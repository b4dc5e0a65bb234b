/-!
# Identifier

Names of runs that were not given one: 128 bits, all but six of them random, in hexadecimal digits
with dashes between them.  The six tell which kind of identifier it is.
-/

namespace Inspection.Identifier

/-- The two digits of a byte. -/
def digits (b : UInt8) : List Char := [(b.toNat / 16).digitChar, (b.toNat % 16).digitChar]

/-- The bytes of an identifier out of random ones. -/
def marked (bytes : List UInt8) : List UInt8 :=
  (bytes.modify 6 fun b => (b &&& 0x0F) ||| 0x40).modify 8 fun b => (b &&& 0x3F) ||| 0x80

/-- The lengths of the parts between dashes, in bytes. -/
def parts : List Nat := [4, 2, 2, 2, 6]

/-- Digits of bytes in parts of some lengths, a dash between two of them. -/
def dashed : List Nat → List UInt8 → List Char
  | [], _ => []
  | [n], bytes => (bytes.take n).flatMap digits
  | n :: more, bytes => (bytes.take n).flatMap digits ++ '-' :: dashed more (bytes.drop n)

/-- The identifier made of sixteen random bytes. -/
def render (bytes : List UInt8) : String := String.ofList (dashed parts (marked bytes))

end Inspection.Identifier
