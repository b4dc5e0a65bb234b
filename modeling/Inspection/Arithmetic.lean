/-!
# Arithmetic

Powers of two and ten, sums, and digits, of natural numbers.

* `valueOf_digits`: a number that has enough digits is their value.
-/

namespace Inspection.Arithmetic

/-- A power of two. -/
def twoTo (n : Nat) : Nat := Nat.pow 2 n

/-- A power of ten. -/
def tenTo (n : Nat) : Nat := Nat.pow 10 n

/-- The sum of numbers. -/
def sum (ns : List Nat) : Nat := @List.sum Nat instAddNat ⟨0⟩ ns

/-- The last digits of a number to a base, the lowest first. -/
def digits (base : Nat) : Nat → Nat → List Nat
  | 0, _ => []
  | width + 1, n => n % base :: digits base width (n / base)

/-- The value of digits to a base, the lowest first. -/
def valueOf (base : Nat) (ds : List Nat) : Nat := ds.foldr (fun d value => d + base * value) 0

theorem length_digits (base width n : Nat) : (digits base width n).length = width := by
  induction width generalizing n with
  | zero => rfl
  | succ width ih => exact congrArg (· + 1) (ih _)

theorem lt_of_mem_digits {base width n d : Nat} (hbase : 0 < base) (h : d ∈ digits base width n) :
    d < base := by
  induction width generalizing n with
  | zero => cases h
  | succ width ih =>
    rcases List.mem_cons.mp h with rfl | h
    · exact Nat.mod_lt _ hbase
    · exact ih h

theorem valueOf_digits {base width n : Nat} (hbase : 0 < base) (h : n < Nat.pow base width) :
    valueOf base (digits base width n) = n := by
  induction width generalizing n with
  | zero =>
    have hn : n < 1 := h
    rw [show n = 0 by omega]
    rfl
  | succ width ih =>
    have hrest : n / base < Nat.pow base width := by
      rw [Nat.div_lt_iff_lt_mul hbase]
      exact h
    have hcons : valueOf base (digits base (width + 1) n) =
        n % base + base * valueOf base (digits base width (n / base)) := rfl
    rw [hcons, ih hrest, Nat.mod_add_div]

end Inspection.Arithmetic
