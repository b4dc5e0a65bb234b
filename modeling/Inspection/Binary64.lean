import Inspection.Arithmetic
import Inspection.Text.Decimal

/-!
# Binary64

The finite numbers of the 64-bit binary floating-point format, with exact arithmetic on natural
numbers: rounding a quotient to the nearest number, an exact half to the even neighbour, and the
shortest decimal that rounds back.

A magnitude is the bit pattern without the sign.  Patterns below 2⁵² are multiples of 2⁻¹⁰⁷⁴, and
above that each further block of 2⁵² patterns has twice the spacing of the block before, so the
order of patterns is the order of values.
-/

namespace Inspection

/-- A finite double. -/
structure Binary64 where
  negative : Bool
  magnitude : Nat
  finite : magnitude < 0x7FF0000000000000
  deriving DecidableEq

namespace Binary64

open Arithmetic (twoTo tenTo)

/-- Zero with a sign. -/
def zero (negative : Bool) : Binary64 := ⟨negative, 0, by decide⟩

/-- A number with another sign. -/
def withSign (negative : Bool) (x : Binary64) : Binary64 := { x with negative }

/-- The mantissa of a magnitude: its value is a multiple of it by a power of two. -/
def mantissa (magnitude : Nat) : Nat :=
  if magnitude < twoTo 52 then magnitude else twoTo 52 + magnitude % twoTo 52

/-- The power of two of a magnitude, counted from 2⁻¹⁰⁷⁴. -/
def scale (magnitude : Nat) : Nat := magnitude / twoTo 52 - 1

/-- The value of a magnitude as a quotient. -/
def quotient (magnitude : Nat) : Nat × Nat :=
  (mantissa magnitude * twoTo (scale magnitude), twoTo 1074)

/-- The quotient of two numbers, rounded to an integer, an exact half to the even one. -/
def divEven (n d : Nat) : Nat :=
  let q := n / d
  let twice := 2 * (n % d)
  if twice < d then q else if d < twice then q + 1 else q + q % 2

/-- The least power of two, counted from 2⁻¹⁰⁷⁴, by which a quotient has at most 53 bits before
the point. -/
def fitting (n d : Nat) : Nat :=
  let low := (n * twoTo 1074).log2 - d.log2 - 53
  if n * twoTo 1074 < twoTo 53 * d * twoTo low then low else low + 1

/-- The number nearest to the quotient `n / d`; `none` when it is too large. -/
def ofQuotient? (n d : Nat) : Option Binary64 :=
  let power := fitting n d
  let magnitude := power * twoTo 52 + divEven (n * twoTo 1074) (d * twoTo power)
  if finite : magnitude < 0x7FF0000000000000 then some ⟨false, magnitude, finite⟩ else none

/-- The number nearest to a natural number. -/
def ofNat? (n : Nat) : Option Binary64 := ofQuotient? n 1

/-- The product of two magnitudes, rounded. -/
def mul? (x y : Binary64) : Option Binary64 :=
  let (a, b) := quotient x.magnitude
  let (c, d) := quotient y.magnitude
  ofQuotient? (a * c) (b * d)

/-- The quotient of two magnitudes, rounded. -/
def div? (x y : Binary64) : Option Binary64 :=
  let (a, b) := quotient x.magnitude
  let (c, d) := quotient y.magnitude
  ofQuotient? (a * d) (b * c)

/-- The largest `p` with `10ᵖ ≤ n / d`. -/
def log10 (n d : Nat) : Int :=
  let p : Int := (Nat.toDigits 10 n).length - (Nat.toDigits 10 d).length
  if d * tenTo p.toNat ≤ n * tenTo (-p).toNat then p else p - 1

/-- A decimal: some digits and the power of ten of the last one. -/
structure Decimal where
  digits : Nat
  power : Int

/-- Of the two multiples of a power of ten next to a magnitude, the nearer one of those that round
to the magnitude.  The numbers that do so reach half-way to the two neighbours, the ends included
if the mantissa is even; below a power of two the spacing is halved. -/
def onGrid? (magnitude : Nat) (power : Int) : Option Decimal :=
  let m := mantissa magnitude
  let value := 4 * m
  let high := value + 2
  let low := if m = twoTo 52 ∧ 0 < scale magnitude then value - 1 else value - 2
  -- quarter units of the mantissa, and grid steps, over one denominator
  let unit := twoTo (scale magnitude) * tenTo (-power).toNat
  let step := 4 * twoTo 1074 * tenTo power.toNat
  let inside c :=
    if m % 2 = 0 then low * unit ≤ c * step && c * step ≤ high * unit
    else low * unit < c * step && c * step < high * unit
  let below := value * unit / step
  let above := below + 1
  let downward := value * unit - below * step
  let upward := above * step - value * unit
  match inside below, inside above with
  | false, false => none
  | true, false => some ⟨below, power⟩
  | false, true => some ⟨above, power⟩
  | true, true =>
    if downward < upward ∨ downward = upward ∧ below % 2 = 0 then some ⟨below, power⟩
    else some ⟨above, power⟩

/-- The shortest decimal that rounds to a magnitude, the nearest of these.  The coarsest grid has
no point below the magnitude but zero, since a power of ten may be the point above it. -/
def shortest (magnitude : Nat) : Decimal :=
  let (n, d) := quotient magnitude
  let first := log10 n d + 1
  ((List.range 18).findSome? fun (count : Nat) =>
    onGrid? magnitude (first - count)).getD ⟨0, 0⟩

/-- The parts of a decimal's writing: positional between 10⁻⁵ and 10¹⁶, always with a point, and
with a signed exponent elsewhere. -/
def renderDecimal (x : Decimal) : List Char :=
  let digits := Nat.toDigits 10 x.digits
  let count := digits.length
  let exponent : Int := x.power + count - 1
  if exponent < -5 ∨ 16 ≤ exponent then
    let fraction := digits.drop 1
    digits.take 1 ++ (if fraction.isEmpty then [] else '.' :: fraction) ++
      ['e', if exponent < 0 then '-' else '+'] ++ Nat.toDigits 10 exponent.natAbs
  else if exponent < 0 then
    ['0', '.'] ++ List.replicate (exponent.natAbs - 1) '0' ++ digits
  else
    let whole := exponent.toNat + 1
    digits.take whole ++ List.replicate (whole - count) '0' ++ ['.'] ++
      (if whole < count then digits.drop whole else ['0'])

/-- The writing of a double: the fewest digits that read back, and always a point or an
exponent. -/
def render (x : Binary64) : String :=
  let unsigned := if x.magnitude = 0 then ['0', '.', '0'] else renderDecimal (shortest x.magnitude)
  String.ofList (if x.negative then '-' :: unsigned else unsigned)

end Binary64

end Inspection
