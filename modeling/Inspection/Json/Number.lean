import Inspection.Arithmetic
import Inspection.Binary64

/-!
# Json — numbers

A number is an integer of 64 bits, signed or not, or a double.  Its literal is a sign, the digits
before the point, the digits behind it and an exponent; without the last two it denotes an integer
where 64 bits suffice.

A literal becomes a double through its *significand*: as many of its digits as make a number below
2⁶⁴, scaled by the power of ten that the digits left out and the exponent amount to.  A literal
that is too large denotes nothing; negative zero is a double.
-/

namespace Inspection

/-- The numbers of a document. -/
inductive Number
  | integer (value : Int)
  | double (value : Binary64)
  deriving DecidableEq

namespace Number

/-- The writing of a number. -/
def render : Number → String
  | integer value => Text.integer value
  | double value => value.render

end Number

/-- A number as it is spelled.  `fraction` is absent where there is no point, and the exponent is a
sign (set for minus) and digits. -/
structure NumberLiteral where
  negative : Bool
  whole : List Nat
  fraction : Option (List Nat)
  exponent : Option (Bool × List Nat)

namespace NumberLiteral

/-- Significands stay below this number. -/
def bound : Nat := UInt64.size

/-- Takes up digits as long as the significand stays below the bound, and gives the significand
and the digits left out. -/
def takeUp (significand : Nat) : List Nat → Nat × List Nat
  | [] => (significand, [])
  | d :: rest =>
    if significand * 10 + d < bound then takeUp (significand * 10 + d) rest
    else (significand, d :: rest)

/-- Exponents stay below this number. -/
def exponentBound : Nat := 2147483648

/-- The value of the digits of an exponent; `none` beyond its bound. -/
def exponentValue? (before : Nat) : List Nat → Option Nat
  | [] => some before
  | d :: rest =>
    if before * 10 + d < exponentBound then exponentValue? (before * 10 + d) rest else none

/-- A power of ten as a double. -/
def powerOfTen? (n : Nat) : Option Binary64 := Binary64.ofNat? (Arithmetic.tenTo n)

/-- Powers of ten are doubles up to this exponent. -/
def largestPower : Nat := 308

/-- Multiplies a double by a power of ten.  Beyond the range of doubles zero stays zero. -/
def scaleUp? (x : Binary64) (n : Nat) : Option Binary64 :=
  if n ≤ largestPower then (powerOfTen? n).bind x.mul?
  else if x.magnitude = 0 then some x else none

/-- Divides a double by a power of ten, in steps that are doubles themselves. -/
def scaleDown? (x : Binary64) (n : Nat) : Option Binary64 :=
  if n ≤ largestPower then (powerOfTen? n).bind x.div?
  else if x.magnitude = 0 then some x
  else ((powerOfTen? largestPower).bind x.div?).bind fun y => scaleDown? y (n - largestPower)
termination_by n
decreasing_by simp only [largestPower] at *; omega

/-- A significand scaled by a power of ten. -/
def scaled? (significand : Nat) (power : Int) : Option Binary64 :=
  (Binary64.ofNat? significand).bind fun x =>
    if 0 ≤ power then scaleUp? x power.toNat else scaleDown? x power.natAbs

/-- The number that a literal denotes; `none` if it is out of range. -/
def value? (literal : NumberLiteral) : Option Number :=
  let signed x := Number.double (Binary64.withSign literal.negative x)
  let (high, wholeRest) := takeUp 0 literal.whole
  match literal.fraction, literal.exponent, wholeRest with
  | none, none, [] =>
    if literal.negative then
      if 0 < high ∧ high ≤ 9223372036854775808 then some (.integer (-high))
      else (Binary64.ofNat? high).map signed
    else some (.integer high)
  | fraction, exponent, _ =>
    let digits := fraction.getD []
    let (significand, left) := takeUp high digits
    let power : Int := (wholeRest.length : Int) - ((digits.length - left.length : Nat) : Int)
    match exponent with
    | none => (scaled? significand power).map signed
    | some (down, digits) =>
      match exponentValue? 0 digits with
      | some e => (scaled? significand (if down then power - e else power + e)).map signed
      | none => if significand ≠ 0 ∧ !down then none else some (signed (Binary64.zero false))

end NumberLiteral

end Inspection
