import Inspection.Proofs.Text.Decimal
import Inspection.Proofs.Time.Calendar
import Inspection.Time.Rfc3339

/-!
# Time — the text of an instant, read back

An instant is read from its text as it was, whatever its year, leap second or fraction.

* `number?_append`: a number ends where its digits or its width do.
* `read?_render`: every instant is read back from its text.
-/

namespace Inspection.Instant

/-! ### Digits -/

theorem digitsValue_eq (ds : List Char) : digitsValue ds = Nat.ofDigitChars 10 ds 0 := by
  rw [digitsValue, Nat.ofDigitChars_eq_foldl]
  congr 1
  funext n d
  rw [Nat.mul_comm]

theorem isDigit_of_mem_padded {width n : Nat} {c : Char} (h : c ∈ padded width n) :
    c.isDigit = true := by
  rcases List.mem_append.mp h with h | h
  · rw [List.eq_of_mem_replicate h]
    rfl
  · exact Nat.isDigit_of_mem_toDigits (by decide) (by decide) h

theorem digitsValue_padded (width n : Nat) : digitsValue (padded width n) = n := by
  rw [digitsValue_eq, padded, Nat.ofDigitChars_append, Nat.ofDigitChars_replicate_zero,
    Nat.mul_zero, Nat.ofDigitChars_ten_toDigits]

theorem length_padded {width n : Nat} (hw : 0 < width) (hn : n < Arithmetic.tenTo width) :
    (padded width n).length = width := by
  have h := (Nat.length_toDigits_le_iff (by decide) hw).mpr hn
  rw [padded, List.length_append, List.length_replicate]
  omega

theorem padded_ne_nil (width n : Nat) : padded width n ≠ [] :=
  List.append_ne_nil_of_right_ne_nil _ Nat.toDigits_ne_nil

theorem padded_eq_cons (width n : Nat) : ∃ c cs, padded width n = c :: cs ∧
    c.isDigit = true := by
  obtain ⟨c, cs, h⟩ := List.exists_cons_of_ne_nil (padded_ne_nil width n)
  exact ⟨c, cs, h, isDigit_of_mem_padded (h ▸ List.mem_cons_self)⟩

/-- No digit follows. -/
def EndsDigits (rest : List Char) : Prop := ∀ c ∈ rest.head?, c.isDigit = false

/-- A run of digits ends where its digits or its width do. -/
theorem takeWhile_take_append {width : Nat} {ds rest : List Char}
    (hd : ∀ c ∈ ds, c.isDigit = true)
    (hw : ds.length = width ∨ ds.length ≤ width ∧ EndsDigits rest) :
    ((ds ++ rest).take width).takeWhile Char.isDigit = ds := by
  -- What is taken beyond the digits begins with none.
  have htake : ∃ more, (ds ++ rest).take width = ds ++ more ∧ more.takeWhile Char.isDigit = [] := by
    rcases hw with rfl | ⟨hle, hrest⟩
    · exact ⟨[], by rw [List.take_left, List.append_nil], rfl⟩
    · refine ⟨rest.take (width - ds.length), ?_, ?_⟩
      · rw [List.take_append, List.take_of_length_le hle]
      · cases rest with
        | nil => rw [List.take_nil, List.takeWhile_nil]
        | cons c cs =>
          cases width - ds.length with
          | zero => rfl
          | succ k => rw [List.take_succ_cons, List.takeWhile_cons, hrest c rfl]; rfl
  obtain ⟨more, htake, hmore⟩ := htake
  rw [htake, List.takeWhile_append_of_pos hd, hmore, List.append_nil]

theorem number?_append {width : Nat} {ds rest : List Char} (hd : ∀ c ∈ ds, c.isDigit = true)
    (hne : ds ≠ []) (hw : ds.length = width ∨ ds.length ≤ width ∧ EndsDigits rest) :
    number? width (ds ++ rest) = some (digitsValue ds, rest) := by
  rw [number?, takeWhile_take_append hd hw, List.drop_left]
  simp [hne]

/-! ### Blanks -/

theorem skipBlanks_of_not {c : Char} (h : Text.isBlank c = false) (cs : List Char) :
    skipBlanks (c :: cs) = c :: cs := by
  rw [skipBlanks, List.dropWhile_cons, h]
  rfl

theorem skipBlanks_padded (width n : Nat) (rest : List Char) :
    skipBlanks (padded width n ++ rest) = padded width n ++ rest := by
  obtain ⟨c, cs, h, hc⟩ := padded_eq_cons width n
  rw [h, List.cons_append, skipBlanks_of_not (Text.isBlank_of_isDigit hc)]

/-! ### The parts of a text -/

theorem bounded?_padded {low high n : Nat} (hl : low ≤ n) (hh : n ≤ high) (hn : n < 100)
    (rest : List Char) : bounded? 2 low high (padded 2 n ++ rest) = some (n, rest) := by
  rw [bounded?, skipBlanks_padded, number?_append (fun _ => isDigit_of_mem_padded)
    (padded_ne_nil _ _) (.inl (length_padded (by decide) hn)), digitsValue_padded]
  simp [hl, hh]

theorem mark?_cons {c : Char} (h : Text.isBlank c = false) (cs : List Char) :
    mark? c (c :: cs) = some cs := by
  rw [mark?, skipBlanks_of_not h]
  exact if_pos rfl

/-- A number of any length, with something behind it that is no digit. -/
theorem number?_padded_of_ends (width n : Nat) {rest : List Char} (h : EndsDigits rest) :
    number? (padded width n ++ rest).length (padded width n ++ rest) = some (n, rest) := by
  rw [number?_append (fun _ => isDigit_of_mem_padded) (padded_ne_nil _ _)
    (.inr ⟨by rw [List.length_append]; exact Nat.le_add_right .., h⟩), digitsValue_padded]

/-- A year is read back from its text, with or without a sign. -/
theorem year?_renderYear {year : Int} (low : -262143 ≤ year) (high : year ≤ 262142)
    (rest : List Char) : year? (renderYear year ++ '-' :: rest) = some (year, '-' :: rest) := by
  have hends : EndsDigits ('-' :: rest) := by simp [EndsDigits]
  have hbound : (-(yearBound : Int) ≤ year && year < yearBound) = true := by
    have hvalue : (yearBound : Int) = 2147483648 := rfl
    simp only [hvalue, Bool.and_eq_true, decide_eq_true_eq]
    omega
  rw [renderYear]
  split
  next h =>
    obtain ⟨c, cs, hcs, hc⟩ := padded_eq_cons 4 year.toNat
    have hnumber : number? 4 (padded 4 year.toNat ++ '-' :: rest) =
        some (year.toNat, '-' :: rest) := by
      rw [number?_append (fun _ => isDigit_of_mem_padded) (padded_ne_nil _ _)
        (.inl (length_padded (by decide) (show year.toNat < 10000 by omega))), digitsValue_padded]
    have hyear : (year.toNat : Int) = year := Int.toNat_of_nonneg h.1
    rw [year?, skipBlanks_padded]
    rw [hcs, List.cons_append] at hnumber ⊢
    split
    next heq => cases heq; cases hc
    next heq => cases heq; cases hc
    next =>
      rw [hnumber, Option.map_some]
      simp only [hyear]
      exact Option.filter_some.trans (if_pos hbound)
  next h =>
    by_cases hneg : year < 0
    · have hyear : -(year.natAbs : Int) = year := by omega
      rw [if_pos hneg, List.cons_append, year?, skipBlanks_of_not (by decide)]
      simp only
      rw [number?_padded_of_ends _ _ hends, Option.map_some]
      simp only [hyear]
      exact Option.filter_some.trans (if_pos hbound)
    · have hyear : (year.natAbs : Int) = year := by omega
      rw [if_neg hneg, List.cons_append, year?, skipBlanks_of_not (by decide)]
      simp only
      rw [number?_padded_of_ends _ _ hends, Option.map_some]
      simp only [hyear]
      exact Option.filter_some.trans (if_pos hbound)

/-- A fraction is read back from as many digits as it has. -/
theorem fraction?_padded {width n : Nat} (low : 0 < width) (high : width ≤ 9)
    (h : n < Arithmetic.tenTo width) : fraction? ('.' :: padded width n ++ ['Z']) =
      some (n * Arithmetic.tenTo (9 - width), ['Z']) := by
  have hlength := length_padded low h
  have htake : ((padded width n ++ ['Z']).take 9).takeWhile Char.isDigit = padded width n :=
    takeWhile_take_append (fun _ => isDigit_of_mem_padded)
      (.inr ⟨by omega, by simp [EndsDigits]⟩)
  have hdrop : (padded width n ++ ['Z']).drop width = ['Z'] := List.drop_left' hlength
  have hnonempty : (padded width n).isEmpty = false := by simp [padded_ne_nil]
  simp only [List.cons_append, fraction?, htake, hlength, hdrop, digitsValue_padded, hnonempty]
  rfl

theorem fraction?_renderFraction {nanos : Nat} (h : nanos < 1000000000) :
    fraction? (renderFraction nanos ++ ['Z']) = some (nanos, ['Z']) := by
  unfold renderFraction
  split
  next hz => rw [hz]; rfl
  next =>
    split
    next hmod =>
      rw [fraction?_padded (by decide) (by decide) (show nanos / 1000000 < 1000 by omega)]
      congr 2
      exact Nat.div_mul_cancel (Nat.dvd_of_mod_eq_zero hmod)
    next =>
      split
      next hmod =>
        rw [fraction?_padded (by decide) (by decide) (show nanos / 1000 < 1000000 by omega)]
        congr 2
        exact Nat.div_mul_cancel (Nat.dvd_of_mod_eq_zero hmod)
      next =>
        rw [fraction?_padded (by decide) (by decide) h]
        congr 2
        exact Nat.mul_one nanos

theorem offset?_utc : offset? ['Z'] = some (0, []) := by decide

/-! ### The whole text -/

theorem toList_render (t : Instant) : t.render.toList =
    renderYear t.date.year ++ '-' :: (padded 2 t.date.month ++ '-' :: (padded 2 t.date.day ++
      'T' :: (padded 2 (t.secondOfDay.toNat / 3600) ++
        ':' :: (padded 2 (t.secondOfDay.toNat / 60 % 60) ++
          ':' :: (padded 2 (t.secondOfDay.toNat % 60 + t.nanos / billion) ++
            (renderFraction (t.nanos % billion) ++ ['Z'])))))) := by
  simp [render, renderLocal]

theorem date_bounds (t : Instant) : t.date.isValid = true ∧ -262143 ≤ t.date.year ∧
    t.date.year ≤ 262142 ∧ 1 ≤ t.date.month ∧ t.date.month ≤ 12 ∧ 1 ≤ t.date.day ∧
      t.date.day ≤ 31 := by
  have hvalid := Date.isValid_ofDays (t.seconds / daySeconds)
  have hyear := @Date.year_ofDays (t.seconds / daySeconds)
    (by have := t.inRange; unfold daySeconds; omega)
    (by have := t.inRange; unfold daySeconds; omega)
  have hdays : ∀ year month, Date.daysOfMonth year month ≤ 31 := by
    intro year month
    unfold Date.daysOfMonth
    split <;> (try split) <;> omega
  refine ⟨hvalid, hyear.1, hyear.2, ?_⟩
  simp only [Date.isValid, Bool.and_eq_true, decide_eq_true_eq] at hvalid
  exact ⟨hvalid.1.1.1, hvalid.1.1.2, hvalid.1.2, Nat.le_trans hvalid.2 (hdays _ _)⟩

theorem secondOfDay_bounds (t : Instant) : 0 ≤ t.secondOfDay ∧ t.secondOfDay < 86400 := by
  unfold secondOfDay daySeconds
  omega

/-- A leap second is the last of its minute, and no more than one. -/
theorem second_cases (t : Instant) : t.nanos / billion = 0 ∨
    t.nanos / billion = 1 ∧ t.secondOfDay.toNat % 60 = 59 := by
  have hsub := t.subsecond
  unfold secondOfDay daySeconds billion
  omega

/-- The parts of an instant make it up again. -/
theorem ofLocal?_parts (t : Instant) :
    ofLocal? t.date (t.secondOfDay.toNat / 3600) (t.secondOfDay.toNat / 60 % 60)
      (t.secondOfDay.toNat % 60 + t.nanos / billion) (t.nanos % billion) 0 = some t := by
  obtain ⟨hvalid, hlow, hhigh, -⟩ := t.date_bounds
  have hday := t.secondOfDay_bounds
  have hsecond := t.second_cases
  -- A leap second was written as the sixtieth, and goes back to the nanoseconds.
  have hpair : (if t.secondOfDay.toNat % 60 + t.nanos / billion = 60 then
      ((59 : Nat), t.nanos % billion + billion)
    else (t.secondOfDay.toNat % 60 + t.nanos / billion, t.nanos % billion)) =
      (t.secondOfDay.toNat % 60, t.nanos) := by
    unfold billion at hsecond ⊢
    split <;> congr 1 <;> omega
  have htime : t.date.toDays * daySeconds + (((t.secondOfDay.toNat / 3600 : Nat) : Int) * 3600 +
      ((t.secondOfDay.toNat / 60 % 60 : Nat) : Int) * 60 +
        ((t.secondOfDay.toNat % 60 : Nat) : Int)) - 0 = t.seconds := by
    rw [date, Date.toDays_ofDays]
    unfold secondOfDay daySeconds at *
    omega
  have hyear : ¬((!t.date.isValid) = true ∨ t.date.year < -262143 ∨ 262142 < t.date.year) := by
    rw [hvalid]
    simp only [Bool.not_true, Bool.false_eq_true, false_or]
    omega
  unfold ofLocal?
  rw [if_neg hyear]
  simp only [hpair, htime]
  exact t.ofParts?_self

/-- **An instant is read back from its text.** -/
theorem read?_render (t : Instant) : read? t.render = some t := by
  obtain ⟨-, hlow, hhigh, hmonth, hmonth', hday, hday'⟩ := t.date_bounds
  have hseconds := t.secondOfDay_bounds
  have hsecond := t.second_cases
  have hnanos : t.nanos % billion < 1000000000 := Nat.mod_lt _ (by decide)
  have hz : skipBlanks ['Z'] = ['Z'] := rfl
  have hdash : ∀ cs, mark? '-' ('-' :: cs) = some cs := mark?_cons (by decide)
  have hcolon : ∀ cs, mark? ':' (':' :: cs) = some cs := mark?_cons (by decide)
  have hhour : ∀ cs, bounded? 2 0 23 (padded 2 (t.secondOfDay.toNat / 3600) ++ cs) = some _ :=
    bounded?_padded (Nat.zero_le _) (by omega) (by omega)
  have hminute : ∀ cs, bounded? 2 0 59 (padded 2 (t.secondOfDay.toNat / 60 % 60) ++ cs) = some _ :=
    bounded?_padded (Nat.zero_le _) (by omega) (by omega)
  have hsecond : ∀ cs, bounded? 2 0 60
      (padded 2 (t.secondOfDay.toNat % 60 + t.nanos / billion) ++ cs) = some _ :=
    bounded?_padded (Nat.zero_le _) (by omega) (by omega)
  rw [read?, toList_render]
  simp only [year?_renderYear hlow hhigh, hdash, hcolon,
    bounded?_padded hmonth hmonth' (by omega), bounded?_padded hday hday' (by omega), hhour,
    hminute, hsecond, fraction?_renderFraction hnanos, hz, offset?_utc, bind, Option.bind_some]
  exact t.ofLocal?_parts

end Inspection.Instant
