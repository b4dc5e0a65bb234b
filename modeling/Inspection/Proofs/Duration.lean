import Inspection.Arithmetic
import Inspection.Duration
import Mathlib.Data.Bool.AllAny

/-!
# Duration — the value of a text

The text of a duration is a row of runs, each of them digits and the unit behind them, with digits
at the end that no unit follows.  Reading keeps two numbers, the seconds of the runs behind it and
the value of the digits since, and gives up as soon as one of them reaches the bound.

Neither number is ever too large for a text whose value is not, since further characters do not
make the value smaller (`decimal_le`).  So what a reader makes of a beginning of a text hangs on
the two numbers at its end alone (`readFrom_append`).

* `read_value`: the value of a text is read as long as it stays below the bound, and the first
  character that has no place in a duration is told unless the bound was reached before it.
-/

namespace Inspection.Duration

/-! ### Runs -/

/-- The number that digits denote. -/
def decimal (digits : List Char) : Nat := Nat.ofDigitChars 10 digits 0

/-- The runs of a text, each with the character that ends it, and the digits at the end. -/
def runs : List Char → List (List Char × Char) × List Char
  | [] => ([], [])
  | c :: cs =>
    if c.isDigit then
      match runs cs with
      | ([], last) => ([], c :: last)
      | ((digits, unit) :: more, last) => ((c :: digits, unit) :: more, last)
    else (([], c) :: (runs cs).1, (runs cs).2)

/-- The seconds of the runs that a unit ends. -/
def closed (cs : List Char) : Nat :=
  Arithmetic.sum ((runs cs).1.map fun run => decimal run.1 * (unitSeconds? run.2).getD 0)

/-- The value of the digits at the end, which counts as seconds. -/
def trailing (cs : List Char) : Nat := decimal (runs cs).2

/-- Whether a character has a place in a duration. -/
def IsPart (c : Char) : Prop := c.isDigit = true ∨ c ∈ ['h', 'H', 'm', 'M', 's']

instance : DecidablePred IsPart := fun _ => inferInstanceAs (Decidable (_ ∨ _))

theorem decimal_append_digit (digits : List Char) (c : Char) :
    decimal (digits ++ [c]) = decimal digits * 10 + (c.toNat - '0'.toNat) := by
  simp only [decimal, Nat.ofDigitChars, List.foldl_append, List.foldl_cons, List.foldl_nil]
  omega

theorem unitSeconds?_of_isPart {c : Char} (h : IsPart c) (hd : c.isDigit = false) :
    ∃ unit, unitSeconds? c = some unit ∧ 1 ≤ unit := by
  rcases h with h | h
  · rw [hd] at h
    cases h
  · simp only [List.mem_cons, List.not_mem_nil, or_false] at h
    rcases h with rfl | rfl | rfl | rfl | rfl <;> exact ⟨_, rfl, by decide⟩

theorem unitSeconds?_of_not_isPart {c : Char} (h : ¬IsPart c) : unitSeconds? c = none := by
  simp only [IsPart, List.mem_cons, List.not_mem_nil, or_false, not_or] at h
  simp [unitSeconds?, h]

theorem digit?_of_isDigit {c : Char} (h : c.isDigit = true) :
    Text.digit? c = some (c.toNat - '0'.toNat) := if_pos h

theorem digit?_of_not_isDigit {c : Char} (h : c.isDigit = false) : Text.digit? c = none := by
  simp [Text.digit?, h]

/-! ### Behind digits -/

section

variable {digits : List Char} (hdigits : ∀ c ∈ digits, c.isDigit = true)
include hdigits

/-- Digits that nothing follows are at the end. -/
theorem runs_digits : runs digits = ([], digits) := by
  induction digits with
  | nil => rfl
  | cons c cs ih =>
    rw [runs, if_pos (hdigits c (by simp)), ih fun d hd => hdigits d (by simp [hd])]

/-- Digits and another character behind them are a run. -/
theorem runs_append {c : Char} (hc : c.isDigit = false) (cs : List Char) :
    runs (digits ++ c :: cs) = ((digits, c) :: (runs cs).1, (runs cs).2) := by
  induction digits with
  | nil => simp [runs, hc]
  | cons d ds ih =>
    rw [List.cons_append, runs, if_pos (hdigits d (by simp)), ih fun e he => hdigits e (by simp [he])]

theorem closed_digits : closed digits = 0 := by
  rw [closed, runs_digits hdigits]
  rfl

theorem trailing_digits : trailing digits = decimal digits := by
  rw [trailing, runs_digits hdigits]

theorem closed_append {c : Char} {unit : Nat} (hc : c.isDigit = false)
    (hu : unitSeconds? c = some unit) (cs : List Char) :
    closed (digits ++ c :: cs) = decimal digits * unit + closed cs := by
  rw [closed, runs_append hdigits hc, List.map_cons, Arithmetic.sum, hu]
  rfl

theorem trailing_append {c : Char} (hc : c.isDigit = false) (cs : List Char) :
    trailing (digits ++ c :: cs) = trailing cs := by
  rw [trailing, runs_append hdigits hc]
  rfl

/-- **Digits are not lost**: whatever follows them, they count at least once, be it in a run or at
the end. -/
theorem decimal_le {cs : List Char} (hcs : ∀ c ∈ cs, IsPart c) :
    decimal digits ≤ closed (digits ++ cs) ∨ decimal digits ≤ trailing (digits ++ cs) := by
  induction cs generalizing digits with
  | nil =>
    rw [List.append_nil, trailing_digits hdigits]
    exact .inr (Nat.le_refl _)
  | cons c cs ih =>
    have hrest : ∀ d ∈ cs, IsPart d := fun d hd => hcs d (by simp [hd])
    cases hc : c.isDigit with
    | true =>
      have hmore : ∀ d ∈ digits ++ [c], d.isDigit = true :=
        List.forall_mem_append.mpr ⟨hdigits, List.forall_mem_singleton.mpr hc⟩
      have hle : decimal digits ≤ decimal (digits ++ [c]) := by
        rw [decimal_append_digit]
        omega
      rw [List.append_cons]
      exact (ih hmore hrest).imp (Nat.le_trans hle) (Nat.le_trans hle)
    | false =>
      obtain ⟨unit, hu, hpos⟩ := unitSeconds?_of_isPart (hcs c (by simp)) hc
      refine .inl ?_
      rw [closed_append hdigits hc hu]
      exact Nat.le_trans (Nat.le_mul_of_pos_right _ hpos) (Nat.le_add_right ..)

end

/-! ### Reading -/

theorem within_of_lt (text : String) {n : Nat} (h : n < bound) : within text n = .ok n := if_pos h

theorem within_of_not_lt (text : String) {n : Nat} (h : ¬n < bound) :
    within text n = .error (.tooLarge text) := if_neg h

/-- **Reading a beginning of a text.**  Behind it, the seconds of its runs are closed and the digits
at its end are open, unless one of the two numbers has reached the bound. -/
theorem readFrom_append (text : String) {cs : List Char} (hcs : ∀ c ∈ cs, IsPart c)
    (rest : List Char) {digits : List Char} (hdigits : ∀ c ∈ digits, c.isDigit = true) {total : Nat}
    (htotal : total < bound) (hrun : decimal digits < bound) :
    readFrom text total (decimal digits) (cs ++ rest) =
      if total + closed (digits ++ cs) < bound ∧ trailing (digits ++ cs) < bound then
        readFrom text (total + closed (digits ++ cs)) (trailing (digits ++ cs)) rest
      else .error (.tooLarge text) := by
  induction cs generalizing digits total with
  | nil =>
    rw [List.append_nil, closed_digits hdigits, trailing_digits hdigits, Nat.add_zero,
      if_pos ⟨htotal, hrun⟩, List.nil_append]
  | cons c cs ih =>
    have hrest : ∀ d ∈ cs, IsPart d := fun d hd => hcs d (by simp [hd])
    rw [List.cons_append, readFrom]
    cases hc : c.isDigit with
    | true =>
      have hmore : ∀ d ∈ digits ++ [c], d.isDigit = true :=
        List.forall_mem_append.mpr ⟨hdigits, List.forall_mem_singleton.mpr hc⟩
      rw [digit?_of_isDigit hc]
      simp only
      rw [← decimal_append_digit, List.append_cons digits c cs]
      by_cases hnext : decimal (digits ++ [c]) < bound
      · rw [within_of_lt _ hnext]
        exact ih hrest hmore htotal hnext
      · -- The digits alone reach the bound, so what they count for in the end does.
        have hle := decimal_le hmore hrest
        rw [within_of_not_lt _ hnext, if_neg (by omega)]
        rfl
    | false =>
      obtain ⟨unit, hu, -⟩ := unitSeconds?_of_isPart (hcs c (by simp)) hc
      rw [digit?_of_not_isDigit hc, hu, closed_append hdigits hc hu, trailing_append hdigits hc,
        ← Nat.add_assoc]
      simp only
      by_cases hnext : total + decimal digits * unit < bound
      · have hnone : ∀ e ∈ ([] : List Char), e.isDigit = true := by simp
        rw [within_of_lt _ hnext]
        exact ih hrest hnone hnext (by decide)
      · rw [within_of_not_lt _ hnext, if_neg (by omega)]
        rfl

theorem read_append {text : String} {cs rest : List Char} (ht : text.toList = cs ++ rest)
    (hcs : ∀ c ∈ cs, IsPart c) :
    read text =
      if closed cs < bound ∧ trailing cs < bound then
        readFrom text (closed cs) (trailing cs) rest
      else .error (.tooLarge text) := by
  have hnone : ∀ c ∈ ([] : List Char), c.isDigit = true := by simp
  have hzero : 0 < bound := by decide
  have h := readFrom_append text hcs rest hnone hzero (by decide)
  rw [List.nil_append, Nat.zero_add] at h
  rw [read, ht]
  exact h

/-- **The value of a text.**  A text of digits and units alone is read as the seconds of its runs
and of the digits at its end, as long as they are fewer than 2⁶⁴ together, and is too large
otherwise.  In any other text the first character that is neither is told, unless the runs before
it come to 2⁶⁴ seconds, or the digits right before it do by themselves: then the text is too large
again. -/
theorem read_value (text : String) :
    ((∀ c ∈ text.toList, IsPart c) →
      read text =
        if closed text.toList + trailing text.toList < UInt64.size then
          .ok (closed text.toList + trailing text.toList)
        else .error (.tooLarge text)) ∧
    ∀ before c after, text.toList = before ++ c :: after → (∀ b ∈ before, IsPart b) → ¬IsPart c →
      read text =
        if UInt64.size ≤ closed before ∨ UInt64.size ≤ trailing before then
          .error (.tooLarge text)
        else .error (.unexpected text c) := by
  refine ⟨fun hparts => ?_, fun before c after ht hbefore hc => ?_⟩
  · rw [read_append (List.append_nil _).symm hparts]
    by_cases hboth : closed text.toList < bound ∧ trailing text.toList < bound
    · rw [if_pos hboth]
      rfl
    · have hsum : ¬closed text.toList + trailing text.toList < bound := by omega
      rw [if_neg hboth]
      exact (if_neg hsum).symm
  · have hdigit : c.isDigit = false := Bool.eq_false_iff.mpr fun h => hc (.inl h)
    rw [read_append ht hbefore, readFrom, digit?_of_not_isDigit hdigit,
      unitSeconds?_of_not_isPart hc]
    by_cases hlarge : bound ≤ closed before ∨ bound ≤ trailing before
    · rw [if_neg (by omega)]
      exact (if_pos hlarge).symm
    · rw [if_pos (by omega)]
      exact (if_neg hlarge).symm

/-- Units in any order and repeated, and a text that is at fault before its sum is too large. -/
theorem read_value_mixed :
    (∀ c ∈ "007m1h5Mh90".toList, IsPart c) ∧ read "007m1h5Mh90" = .ok 4410 ∧
      read "18446744073709551615s1 h" = .error (.unexpected "18446744073709551615s1 h" ' ') ∧
      read "18446744073709551616 h" = .error (.tooLarge "18446744073709551616 h") := by
  have hparts : ∀ c ∈ "007m1h5Mh90".toList, IsPart c := List.all_iff_forall_prop.mp (by decide)
  have hclosed : ∀ c ∈ "18446744073709551615s1".toList, IsPart c :=
    List.all_iff_forall_prop.mp (by decide)
  have hopen : ∀ c ∈ "18446744073709551616".toList, IsPart c :=
    List.all_iff_forall_prop.mp (by decide)
  refine ⟨hparts, ?_, ?_, ?_⟩
  · exact ((read_value _).1 hparts).trans (if_pos (by decide))
  · exact ((read_value _).2 _ ' ' ['h'] (by decide) hclosed (by decide)).trans
      (if_neg (by decide))
  · exact ((read_value _).2 _ ' ' ['h'] (by decide) hopen (by decide)).trans
      (if_pos (by decide))

end Inspection.Duration
