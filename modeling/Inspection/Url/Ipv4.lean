import Inspection.Arithmetic
import Inspection.Text.Decimal
import Inspection.Text.Split
import Inspection.Url.Percent

/-!
# Url — IPv4 addresses

Addresses of up to four numbers in decimal, octal (after `0`) or hexadecimal (after `0x`), of which
the last one fills the bytes that are left.  A name whose last part is a number is such an address
or none at all.
-/

namespace Inspection.Url.Ipv4

/-- The number that digits of a base denote, if they are digits of it. -/
def inBase? (base : Nat) (cs : List Char) : Option Nat :=
  cs.foldlM (fun n c => (hexValue? c).bind fun d => if d < base then some (n * base + d) else none)
    0

/-- The number that a part of an address denotes. -/
def number? : List Char → Option Nat
  | [] => none
  | '0' :: 'x' :: rest => inBase? 16 rest
  | '0' :: 'X' :: rest => inBase? 16 rest
  | '0' :: c :: rest => inBase? 8 (c :: rest)
  | cs => inBase? 10 cs

/-- The parts of a name between its points, without the empty one at the end. -/
def parts (cs : List Char) : List (List Char) :=
  let found := Text.split '.' cs
  match found.reverse with
  | [] :: rest => rest.reverse
  | _ => found

/-- Whether the last part of a name is a number. -/
def endsInNumber (cs : List Char) : Bool :=
  match (Text.split '.' cs).reverse with
  | [] :: last :: _ | last :: _ =>
    (!last.isEmpty && last.all Char.isDigit) || (number? last).isSome
  | [] => false

/-- The address of some numbers, the last of which fills the bytes left. -/
def combine? (numbers : List Nat) : Option Nat :=
  match numbers.reverse with
  | [] => none
  | last :: front =>
    let places := front.length
    if last < Arithmetic.twoTo (32 - 8 * places) ∧ front.all (· ≤ 255) then
      some (last +
        front.reverse.foldl (fun n byte => n * 256 + byte) 0 * Arithmetic.twoTo (32 - 8 * places))
    else none

/-- The address that a name denotes. -/
def read? (cs : List Char) : Option Nat :=
  let found := parts cs
  if found.length > 4 then none
  else do
    let numbers ← found.mapM number?
    if numbers.any (· ≥ UInt32.size) then none
    combine? numbers

/-- The writing of an address. -/
def render (address : Nat) : List Char :=
  Text.join ['.'] ([16777216, 65536, 256, 1].map fun unit =>
    Nat.toDigits 10 (address / unit % 256))

end Inspection.Url.Ipv4
