import Inspection.Arithmetic

/-!
# Archive — the gzip format

Bytes in stored blocks between a header and a trailer, which holds their checksum and their number.
Only such files are read.
-/

namespace Inspection.Gzip

/-- A number in some bytes, the lowest first. -/
def littleEndian (width n : Nat) : List UInt8 := (Arithmetic.digits 256 width n).map UInt8.ofNat

/-- The number in some bytes. -/
def ofLittleEndian (bytes : List UInt8) : Nat := Arithmetic.valueOf 256 (bytes.map (·.toNat))

/-- One step of the division by the polynomial. -/
def divide (c : UInt32) : UInt32 := if c &&& 1 = 1 then (c >>> 1) ^^^ 0xEDB88320 else c >>> 1

/-- The remainder after one more byte. -/
def feed (c : UInt32) (b : UInt8) : UInt32 := Nat.repeat divide 8 (c ^^^ b.toUInt32)

/-- The checksum of bytes. -/
def checksum (bytes : List UInt8) : UInt32 := bytes.foldl feed 0xFFFFFFFF ^^^ 0xFFFFFFFF

/-- A block holds at most this many bytes. -/
def blockLimit : Nat := 65535

/-- A stored block. -/
def storedBlock (last : Bool) (bytes : List UInt8) : List UInt8 :=
  (if last then 1 else 0) :: (littleEndian 2 bytes.length ++
    (littleEndian 2 (blockLimit - bytes.length) ++ bytes))

/-- Bytes in stored blocks.  Even nothing is a block. -/
def storedBlocks (bytes : List UInt8) : List UInt8 :=
  if bytes.length ≤ blockLimit then storedBlock true bytes
  else storedBlock false (bytes.take blockLimit) ++ storedBlocks (bytes.drop blockLimit)
termination_by bytes.length
decreasing_by
  simp only [List.length_drop, blockLimit] at *
  omega

/-- The header: method, no flags, no time, no system. -/
def header : List UInt8 := [0x1F, 0x8B, 8, 0, 0, 0, 0, 0, 0, 255]

/-- The trailer behind bytes. -/
def trailer (bytes : List UInt8) : List UInt8 :=
  littleEndian 4 (checksum bytes).toNat ++ littleEndian 4 bytes.length

/-- Bytes as a gzip file. -/
def encode (bytes : List UInt8) : List UInt8 := header ++ (storedBlocks bytes ++ trailer bytes)

/-! ### Reading -/

/-- The content of a stored block: whether it is the last, its bytes, and what is behind it. -/
def readBlock? : List UInt8 → Option (Bool × List UInt8 × List UInt8)
  | mark :: lo :: hi :: lo' :: hi' :: rest =>
    let length := ofLittleEndian [lo, hi]
    if mark ≤ 1 ∧ length + ofLittleEndian [lo', hi'] = blockLimit ∧ length ≤ rest.length then
      some (mark = 1, rest.take length, rest.drop length)
    else none
  | _ => none

theorem length_lt_of_readBlock? {bytes content rest : List UInt8} {last : Bool}
    (h : readBlock? bytes = some (last, content, rest)) : rest.length < bytes.length := by
  unfold readBlock? at h
  split at h
  · dsimp only at h
    split at h
    · cases h
      simp only [List.length_drop, List.length_cons]
      omega
    · cases h
  · cases h

/-- The content of stored blocks, and what is behind the last one. -/
def readBlocks? (bytes : List UInt8) : Option (List UInt8 × List UInt8) :=
  match _ : readBlock? bytes with
  | none => none
  | some (true, content, rest) => some (content, rest)
  | some (false, content, rest) =>
    (readBlocks? rest).map fun (more, rest) => (content ++ more, rest)
termination_by bytes.length
decreasing_by exact length_lt_of_readBlock? ‹_›

/-- The bytes of a gzip file whose header and trailer are right. -/
def decode? (file : List UInt8) : Option (List UInt8) :=
  if header.isPrefixOf file then
    match readBlocks? (file.drop header.length) with
    | some (bytes, rest) => if rest = trailer bytes then some bytes else none
    | none => none
  else none

end Inspection.Gzip
