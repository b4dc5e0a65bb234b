import Inspection.Arithmetic
import Inspection.Text.Split
import Inspection.Text.Utf8

/-!
# Archive — the tape format

Directories and files one after another, each behind a header of one block, and all of it in whole
blocks.  A name that is too long for a header stands in an entry of its own before.  Such archives
are read up to the first empty block.
-/

namespace Inspection

/-- What an archive holds under a name: a file with its content, or a directory. -/
structure Member where
  name : List String
  content : Option (List UInt8)
  deriving DecidableEq

namespace Tar

/-- Bytes in a block. -/
def blockSize : Nat := 512

/-- As many zeros as are missing to whole blocks behind some bytes. -/
def padding (length : Nat) : List UInt8 :=
  List.replicate ((blockSize - length % blockSize) % blockSize) 0

/-- Bytes and the zeros that make whole blocks of them. -/
def block (bytes : List UInt8) : List UInt8 := bytes ++ padding bytes.length

/-- A field of a header: bytes and the zeros behind them. -/
def field (width : Nat) (bytes : List UInt8) : List UInt8 :=
  bytes.take width ++ List.replicate (width - bytes.length) 0

/-- A number in a field: octal digits, the highest first, and an end; one with too many of them as
bytes, behind a mark. -/
def number (width n : Nat) : List UInt8 :=
  if n < Nat.pow 8 (width - 1) then
    ((Arithmetic.digits 8 (width - 1) n).map fun d => UInt8.ofNat (48 + d)).reverse ++ [0]
  else 0x80 :: ((Arithmetic.digits 256 (width - 1) n).map UInt8.ofNat).reverse

/-- A header without its checksum. -/
structure Header where
  name : List UInt8
  mode : Nat
  size : Nat
  kind : UInt8

/-- The kinds of members: files, directories, and names that are too long for a header. -/
def fileKind : UInt8 := 48

@[inherit_doc fileKind]
def directoryKind : UInt8 := 53

@[inherit_doc fileKind]
def nameKind : UInt8 := 76

/-- The bytes before the checksum. -/
def Header.front (h : Header) : List UInt8 :=
  field 100 h.name ++ (number 8 h.mode ++ (number 8 0 ++ (number 8 0 ++
    (number 12 h.size ++ number 12 0))))

/-- The bytes behind the checksum. -/
def Header.back (h : Header) : List UInt8 :=
  h.kind :: (field 100 [] ++ (Text.encode "ustar  " ++ List.replicate 248 0))

/-- The checksum, which counts itself as eight blanks. -/
def sum (front back : List UInt8) : Nat :=
  Arithmetic.sum ((front ++ back).map (·.toNat)) + 8 * 32

/-- A header in its block. -/
def Header.encode (h : Header) : List UInt8 :=
  h.front ++ (number 8 (sum h.front h.back) ++ h.back)

/-- Names of more bytes stand in an entry of their own. -/
def nameLimit : Nat := 100

/-- The entry of a long name. -/
def longName (name : List UInt8) : List UInt8 :=
  if name.length ≤ nameLimit then []
  else
    Header.encode ⟨Text.encode "././@LongLink", 0o644, (name ++ [0]).length, nameKind⟩ ++
      block (name ++ [0])

/-- The bytes of a name. -/
def nameBytes (name : List String) : List UInt8 := Text.encode (String.intercalate "/" name)

/-- The header of a member, with as much of its name as there is room for. -/
def headerOf (m : Member) : Header :=
  let name := (nameBytes m.name).take nameLimit
  match m.content with
  | none => ⟨name, 0o755, 0, directoryKind⟩
  | some content => ⟨name, 0o644, content.length, fileKind⟩

/-- A member: its header and its content. -/
def member (m : Member) : List UInt8 :=
  longName (nameBytes m.name) ++ ((headerOf m).encode ++ block (m.content.getD []))

/-- An archive: its members, and two empty blocks. -/
def encode (members : List Member) : List UInt8 :=
  members.flatMap member ++ List.replicate (2 * blockSize) 0

/-! ### Reading -/

/-- The value of octal digits, the lowest first. -/
def octal? (digits : List UInt8) : Option Nat :=
  if digits.all fun b => 48 ≤ b && b < 56 then
    some (Arithmetic.valueOf 8 (digits.map (·.toNat - 48)))
  else none

/-- The number in a field. -/
def number? (bytes : List UInt8) : Option Nat :=
  if bytes.head? = some 0x80 then
    some (Arithmetic.valueOf 256 (bytes.tail.reverse.map (·.toNat)))
  else octal? (bytes.takeWhile (· ≠ 0)).reverse

/-- The header in a block whose checksum is right. -/
def Header.read? (bytes : List UInt8) : Option Header := do
  let front := bytes.take 148
  let back := bytes.drop 156
  let checksum ← number? ((bytes.drop 148).take 8)
  if checksum = sum front back then
    return {
      name := (front.take 100).takeWhile (· ≠ 0)
      mode := ← number? ((front.drop 100).take 8)
      size := ← number? ((front.drop 124).take 12)
      kind := ← back.head? }
  else none

/-- The components of a name. -/
def nameOf? (name : List UInt8) : Option (List String) :=
  (Text.decode? name).map (Text.pieces '/')

/-- A header, the bytes behind it that it tells of, and the rest. -/
def readPart? (bytes : List UInt8) : Option (Header × List UInt8 × List UInt8) := do
  let header ← Header.read? (bytes.take blockSize)
  let body := bytes.drop blockSize
  let whole := header.size + (padding header.size).length
  if blockSize ≤ bytes.length ∧ whole ≤ body.length then
    return (header, body.take header.size, body.drop whole)
  else none

theorem length_lt_of_readPart? {bytes content rest : List UInt8} {h : Header}
    (hread : readPart? bytes = some (h, content, rest)) : rest.length < bytes.length := by
  simp only [readPart?, Option.bind_eq_bind, Option.bind_eq_some_iff] at hread
  obtain ⟨header, -, hread⟩ := hread
  split at hread
  next hlong =>
    cases hread
    simp only [List.length_drop, blockSize] at *
    omega
  next => cases hread

/-- The members of the entries of an archive, the first of which may have had its name before. -/
def readMembers? (long : Option (List UInt8)) (bytes : List UInt8) : Option (List Member) :=
  if (bytes.take blockSize).all (· = 0) then some []
  else
    match _ : readPart? bytes with
    | none => none
    | some (header, content, rest) =>
      if header.kind = nameKind then readMembers? (some (content.takeWhile (· ≠ 0))) rest
      else do
        let name ← nameOf? (long.getD header.name)
        let members ← readMembers? none rest
        if header.kind = directoryKind then some (⟨name, none⟩ :: members)
        else if header.kind = fileKind then some (⟨name, some content⟩ :: members)
        else none
termination_by bytes.length
decreasing_by all_goals exact length_lt_of_readPart? ‹_›

/-- The members of an archive. -/
def decode? (bytes : List UInt8) : Option (List Member) := readMembers? none bytes

end Tar

end Inspection
