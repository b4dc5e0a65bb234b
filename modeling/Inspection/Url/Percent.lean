import Inspection.Text.Utf8

/-!
# Url — percent encoding

Bytes written as a percent sign and two hexadecimal digits, where they are outside ASCII or in the
set of the place they stand in.  The sets are those of the URL standard; each place adds some
characters to those of another.

* `decode_encodeByte`: an encoded byte is decoded to itself.
-/

namespace Inspection.Url

/-- A set of ASCII characters that are encoded in some place. -/
abbrev EncodeSet := Char → Bool

namespace EncodeSet

/-- A set with further characters. -/
def adding (set : EncodeSet) (more : List Char) : EncodeSet := fun c => set c || more.contains c

/-- The control characters. -/
def control : EncodeSet := fun c => c.toNat < 0x20 || c.toNat == 0x7F

/-- Encoded in a fragment. -/
def fragment : EncodeSet := control.adding [' ', '"', '<', '>', '\x60']

/-- Encoded in a query. -/
def query : EncodeSet := control.adding [' ', '"', '#', '<', '>', '\x27']

/-- Encoded in a path that is parsed. -/
def path : EncodeSet := fragment.adding ['#', '?', '\x7b', '\x7d']

/-- Encoded in a path segment that is appended. -/
def segment : EncodeSet := path.adding ['/', '%', '\\']

/-- Encoded in a user name or password. -/
def userinfo : EncodeSet := path.adding ['/', ':', ';', '=', '@', '[', '\\', ']', '^', '|']

end EncodeSet

/-- The hexadecimal digit of a value, in capitals. -/
def hexDigit (n : Nat) : Char :=
  if n < 10 then Char.ofNat ('0'.toNat + n) else Char.ofNat ('A'.toNat + n - 10)

/-- The value of a hexadecimal digit. -/
def hexValue? (c : Char) : Option Nat :=
  if c.isDigit then some (c.toNat - '0'.toNat)
  else if 'a' ≤ c ∧ c ≤ 'f' then some (c.toNat - 'a'.toNat + 10)
  else if 'A' ≤ c ∧ c ≤ 'F' then some (c.toNat - 'A'.toNat + 10)
  else none

/-- A byte encoded. -/
def encodeByte (b : UInt8) : List Char := ['%', hexDigit (b.toNat / 16), hexDigit (b.toNat % 16)]

/-- A character as it stands in a place. -/
def encodeChar (set : EncodeSet) (c : Char) : List Char :=
  if c.toNat < 0x80 && !set c then [c] else (String.utf8EncodeChar c).flatMap encodeByte

/-- Characters as they stand in a place. -/
def encode (set : EncodeSet) (cs : List Char) : List Char := cs.flatMap (encodeChar set)

/-- The bytes that some characters denote.  A percent sign without two digits stands for itself. -/
def decode : List Char → List UInt8
  | [] => []
  | '%' :: a :: b :: rest =>
    match hexValue? a, hexValue? b with
    | some high, some low => UInt8.ofNat (high * 16 + low) :: decode rest
    | _, _ => 0x25 :: decode (a :: b :: rest)
  | c :: rest => String.utf8EncodeChar c ++ decode rest

theorem hexValue?_hexDigit : ∀ n : Nat, n < 16 → hexValue? (hexDigit n) = some n := by decide

theorem decode_encodeByte (b : UInt8) (rest : List Char) :
    decode (encodeByte b ++ rest) = b :: decode rest := by
  have below : b.toNat < 256 := UInt8.toNat_lt b
  have parts : b.toNat / 16 * 16 + b.toNat % 16 = b.toNat := by omega
  simp [encodeByte, decode, hexValue?_hexDigit (b.toNat / 16) (by omega),
    hexValue?_hexDigit (b.toNat % 16) (by omega), parts]

end Inspection.Url
