/-!
# Url — Punycode

Labels with characters outside ASCII, written in letters and digits: the ASCII characters first,
then for every other one, in the order of code points, how far it is from the one before, counted
over all places where it might be inserted.  The counts are numbers of base 36 whose digits have
thresholds that follow the sizes met so far.
-/

namespace Inspection.Url.Punycode

/-- The digit of a value below 36. -/
def digit (n : Nat) : Char :=
  if n < 26 then Char.ofNat ('a'.toNat + n) else Char.ofNat ('0'.toNat + n - 26)

/-- The value of a digit. -/
def value? (c : Char) : Option Nat :=
  if c.isLower then some (c.toNat - 'a'.toNat)
  else if c.isUpper then some (c.toNat - 'A'.toNat)
  else if c.isDigit then some (c.toNat - '0'.toNat + 26)
  else none

/-- The threshold of the digit at a position that counts in steps of 36. -/
def threshold (bias position : Nat) : Nat := max 1 (min 26 (position - bias))

/-- Counts the thirty-fifths of a difference that are too large for one digit. -/
def shrink (delta steps : Nat) : Nat × Nat :=
  if 455 < delta then shrink (delta / 35) (steps + 36) else (delta, steps)
termination_by delta
decreasing_by omega

/-- The bias after a difference, which was the first one or led to `count` characters. -/
def adapt (delta count : Nat) (first : Bool) : Nat :=
  let halved := if first then delta / 700 else delta / 2
  let (delta, steps) := shrink (halved + halved / count) 0
  steps + 36 * delta / (delta + 38)

theorem threshold_bounds (bias position : Nat) :
    1 ≤ threshold bias position ∧ threshold bias position ≤ 26 := by
  unfold threshold
  omega

/-- The digits of a difference, from the least one on, which has the threshold `t`. -/
def digitsFrom (bias position t delta : Nat) (_bounds : 1 ≤ t ∧ t ≤ 26) : List Char :=
  if delta < t then [digit delta]
  else
    digit (t + (delta - t) % (36 - t)) ::
      digitsFrom bias (position + 36) (threshold bias (position + 36)) ((delta - t) / (36 - t))
        (threshold_bounds _ _)
termination_by delta
decreasing_by
  have : (delta - t) / (36 - t) ≤ delta - t := Nat.div_le_self _ _
  omega

/-- The digits of a difference. -/
def digits (bias delta : Nat) : List Char :=
  digitsFrom bias 36 (threshold bias 36) delta (threshold_bounds _ _)

/-- The state of an encoding: the digits, the difference so far, the bias and the number of
characters written. -/
structure Encoding where
  written : List Char
  delta : Nat
  bias : Nat
  count : Nat

/-- Takes one character of the label, while the code point `n` is being inserted. -/
def Encoding.take (basic n : Nat) (e : Encoding) (c : Char) : Encoding :=
  if c.toNat < n then { e with delta := e.delta + 1 }
  else if c.toNat = n then
    { written := e.written ++ digits e.bias e.delta
      delta := 0
      bias := adapt e.delta (e.count + 1) (e.count = basic)
      count := e.count + 1 }
  else e

/-- The code points of a label outside ASCII, ascending. -/
def further (label : List Char) : List Nat :=
  ((label.map Char.toNat).filter (0x80 ≤ ·)).eraseDups.mergeSort (· ≤ ·)

/-- The writing of a label. -/
def encode (label : List Char) : List Char :=
  let basic := label.filter (·.toNat < 0x80)
  let start : Encoding :=
    { written := if basic.isEmpty then [] else basic ++ ['-'], delta := 0, bias := 72,
      count := basic.length }
  let done := (further label).foldl (fun (previous, e) n =>
    let e := { e with delta := e.delta + (n - previous) * (e.count + 1) }
    let e := label.foldl (Encoding.take basic.length n) e
    (n + 1, { e with delta := e.delta + 1 })) (0x80, start)
  done.2.written

/-- Reads the digits of one difference: it, and what follows. -/
def difference? (bias position delta weight : Nat) : List Char → Option (Nat × List Char)
  | [] => none
  | c :: rest =>
    (value? c).bind fun d =>
      let delta := delta + d * weight
      let t := threshold bias position
      if d < t then some (delta, rest)
      else difference? bias (position + 36) delta (weight * (36 - t)) rest

/-- The largest number that code points are counted with. -/
def limit : Nat := UInt32.size

/-- Inserts the characters that the differences stand for.  Each one takes a digit at least, so
the number of digits bounds the number of characters. -/
def insertions? (fuel : Nat) (n index bias : Nat) (label rest : List Char) : Option (List Char) :=
  match fuel, rest with
  | _, [] => some label
  | 0, _ => none
  | fuel + 1, rest =>
    (difference? bias 36 0 1 rest).bind fun (delta, rest) =>
      let count := label.length + 1
      let total := index + delta
      let n := n + total / count
      let place := total % count
      if total ≥ limit ∨ n > 0x10FFFF ∨ (0xD800 ≤ n ∧ n < 0xE000) then none
      else
        insertions? fuel n (place + 1) (adapt delta count (index = 0))
          (label.take place ++ Char.ofNat n :: label.drop place) rest

/-- The label of a writing. -/
def decode? (written : List Char) : Option (List Char) :=
  let tail := (written.reverse.takeWhile (· ≠ '-')).reverse
  let basic := (written.take (written.length - tail.length)).dropLast
  if basic.any (0x80 ≤ ·.toNat) then none
  else insertions? tail.length 0x80 0 72 basic tail

end Inspection.Url.Punycode
