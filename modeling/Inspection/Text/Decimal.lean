/-!
# Text — decimal numbers

Integers written in decimal without a leading zero, and read back from digits with an optional
plus sign as long as they stay within a bound.

* `valueOf?_natural`: the value of a written number is the number.
* `unsigned?_natural`: a number within the bound is read back from its writing.
-/

namespace Inspection.Text

/-- The decimal writing of a natural number. -/
def natural (n : Nat) : String := n.repr

/-- The decimal writing of an integer, with a minus sign before a negative one. -/
def integer : Int → String
  | .ofNat n => natural n
  | .negSucc n => "-" ++ natural (n + 1)

/-- The value of a decimal digit of ASCII. -/
def digit? (c : Char) : Option Nat :=
  if c.isDigit then some (c.toNat - '0'.toNat) else none

/-- The value of a run of digits that continues a number with the value `before`; `none` at any
other character. -/
def valueFrom? (before : Nat) : List Char → Option Nat
  | [] => some before
  | c :: cs => (digit? c).bind fun d => valueFrom? (before * 10 + d) cs

/-- The value of a non-empty run of digits. -/
def valueOf? : List Char → Option Nat
  | [] => none
  | cs => valueFrom? 0 cs

/-- A text without the plus sign it may begin with. -/
def afterPlus : List Char → List Char
  | '+' :: rest => rest
  | cs => cs

/-- A number of at most `bound`: an optional plus sign and at least one digit. -/
def unsigned? (bound : Nat) (cs : List Char) : Option Nat :=
  (valueOf? (afterPlus cs)).filter (· ≤ bound)

theorem digit?_digitChar {d : Nat} (h : d < 10) : digit? d.digitChar = some d := by
  have : d = 0 ∨ d = 1 ∨ d = 2 ∨ d = 3 ∨ d = 4 ∨ d = 5 ∨ d = 6 ∨ d = 7 ∨ d = 8 ∨ d = 9 := by
    omega
  rcases this with rfl | rfl | rfl | rfl | rfl | rfl | rfl | rfl | rfl | rfl <;> decide

theorem valueFrom?_append (before : Nat) (xs ys : List Char) :
    valueFrom? before (xs ++ ys) = (valueFrom? before xs).bind (valueFrom? · ys) := by
  induction xs generalizing before with
  | nil => rfl
  | cons x xs ih =>
    simp only [List.cons_append, valueFrom?]
    cases digit? x <;> simp [ih]

theorem toList_natural (n : Nat) : (natural n).toList = Nat.toDigits 10 n := Nat.toList_repr

theorem toDigits_step (n : Nat) :
    Nat.toDigits 10 n =
      (if n < 10 then [] else Nat.toDigits 10 (n / 10)) ++ [(n % 10).digitChar] := by
  by_cases h : n < 10
  · rw [if_pos h, Nat.toDigits_of_lt_base h, Nat.mod_eq_of_lt h]
    rfl
  · rw [if_neg h, Nat.toDigits_of_base_le (by omega) (by omega)]

theorem valueFrom?_toDigits (n : Nat) : valueFrom? 0 (Nat.toDigits 10 n) = some n := by
  induction n using Nat.strongRecOn with
  | _ n ih =>
    rw [toDigits_step, valueFrom?_append]
    by_cases h : n < 10
    · simp [h, valueFrom?, Nat.mod_eq_of_lt h, digit?_digitChar h]
    · rw [if_neg h, ih (n / 10) (by omega)]
      simp only [Option.bind_some, valueFrom?, digit?_digitChar (Nat.mod_lt n (by decide))]
      congr 1
      omega

theorem toDigits_ne_nil (n : Nat) : Nat.toDigits 10 n ≠ [] := by
  rw [toDigits_step]
  simp

theorem valueOf?_natural (n : Nat) : valueOf? (natural n).toList = some n := by
  rw [toList_natural]
  cases h : Nat.toDigits 10 n with
  | nil => exact absurd h (toDigits_ne_nil n)
  | cons c cs => rw [valueOf?, ← h, valueFrom?_toDigits]; simp

theorem afterPlus_natural (n : Nat) : afterPlus (natural n).toList = (natural n).toList := by
  have v := valueOf?_natural n
  revert v
  generalize (natural n).toList = cs
  intro v
  unfold afterPlus
  split
  · simp [valueOf?, valueFrom?, digit?] at v
  · rfl

theorem unsigned?_natural {bound n : Nat} (h : n ≤ bound) :
    unsigned? bound (natural n).toList = some n := by
  rw [unsigned?, afterPlus_natural, valueOf?_natural]
  simp [Option.filter, h]

end Inspection.Text
