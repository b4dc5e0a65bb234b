import Inspection.Text.Blank
import Inspection.Text.Decimal

/-!
# Text — decimal numbers told apart

A number is written in digits, with a minus sign before a negative one, and its writing tells it.
No digit is blank.
-/

namespace Inspection.Text

theorem notMem_natural {c : Char} (h : c.isDigit = false) (n : Nat) : c ∉ (natural n).toList := by
  rw [toList_natural]
  intro hm
  rw [Nat.isDigit_of_mem_toDigits (by decide) (by decide) hm] at h
  cases h

theorem notMem_integer {c : Char} (h : c.isDigit = false) (hc : c ≠ '-') (i : Int) :
    c ∉ (integer i).toList := by
  cases i with
  | ofNat n => exact notMem_natural h n
  | negSucc n => simp [integer, hc, notMem_natural h]

theorem natural_injective {n m : Nat} (h : natural n = natural m) : n = m := by
  have hn := valueOf?_natural n
  rw [h, valueOf?_natural] at hn
  exact (Option.some.inj hn).symm

/-- The writing of a negative number is not that of one without a sign. -/
theorem natural_ne_integer_negSucc (n m : Nat) : natural n ≠ integer (.negSucc m) := by
  intro h
  refine notMem_natural (c := '-') rfl n ?_
  rw [h]
  simp [integer]

theorem integer_injective {i j : Int} (h : integer i = integer j) : i = j := by
  cases i with
  | ofNat n =>
    cases j with
    | ofNat m => rw [natural_injective h]
    | negSucc m => exact absurd h (natural_ne_integer_negSucc n m)
  | negSucc n =>
    cases j with
    | ofNat m => exact absurd h.symm (natural_ne_integer_negSucc m n)
    | negSucc m =>
      have hl := congrArg String.toList h
      simp only [integer, String.toList_append] at hl
      have hn := String.toList_injective (List.append_cancel_left hl)
      rw [Nat.succ.inj (natural_injective hn)]

theorem isBlank_of_isDigit {c : Char} (h : c.isDigit = true) : isBlank c = false := by
  have hn : c.toNat = c.val.toNat := rfl
  have hnine : '9'.val.toNat = 57 := rfl
  have hzero : '0'.val.toNat = 48 := rfl
  simp only [Char.isDigit, Bool.and_eq_true, decide_eq_true_eq, ge_iff_le,
    UInt32.le_iff_toNat_le] at h
  simp only [isBlank, hn, Bool.or_eq_false_iff, Bool.and_eq_false_iff, decide_eq_false_iff_not,
    beq_eq_false_iff_ne]
  omega

end Inspection.Text
