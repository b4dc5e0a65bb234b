import Inspection.Time.Calendar

/-!
# Time — days and dates

Every day is a date and is found again from it.  Days are counted in cycles of 400 years, and in a
cycle by years that begin in March; `yearStart` tells on which day of the cycle a year begins, and
`yearOfCycle_spec` that the year of a day is the one that has begun last.

* `toDays_ofDays`: the day of the date of a day is the day.
* `isValid_ofDays`: the date of a day is a date of the calendar.
* `year_ofDays`: years go with days.
-/

namespace Inspection.Date

/-! ### Years of a cycle -/

/-- The year of a day, both counted from the beginning of the cycle. -/
def yearOfCycle (day : Int) : Int := (day - day / 1460 + day / 36524 - day / 146096) / 365

/-- The day on which a year begins, both counted from the beginning of the cycle. -/
def yearStart (year : Int) : Int := 365 * year + year / 4 - year / 100

/-- The days of the year that ends with February of a year. -/
def yearLength (year : Int) : Int := if isLeapYear year then 366 else 365

theorem isLeapYear_iff {year : Int} :
    isLeapYear year = true ↔ year % 4 = 0 ∧ (year % 100 ≠ 0 ∨ year % 400 = 0) := by
  simp [isLeapYear]

theorem yearLength_le (year : Int) : yearLength year ≤ 366 := by
  unfold yearLength
  split <;> decide

theorem yearOfCycle_mono {a b : Int} (h : a ≤ b) : yearOfCycle a ≤ yearOfCycle b := by
  -- Every fourth century ends one day later.
  have hcenturies : ∀ day : Int, day / 146096 = day / 36524 / 4 := fun day => by omega
  have hab : a / 36524 ≤ b / 36524 := by omega
  have hday : a - a / 1460 ≤ b - b / 1460 := by omega
  unfold yearOfCycle
  rw [hcenturies a, hcenturies b]
  generalize a / 36524 = k at hab
  generalize b / 36524 = l at hab
  omega

/-- The first and the last day of a year are days of that year. -/
theorem yearOfCycle_bounds : ∀ year : Fin 400, yearOfCycle (yearStart year) = year ∧
    yearOfCycle (yearStart year + yearLength (year + 1) - 1) = year := by
  decide +kernel

theorem yearStart_succ {year : Int} (low : 0 ≤ year) (high : year < 399) :
    yearStart (year + 1) = yearStart year + yearLength (year + 1) := by
  have hleap := @isLeapYear_iff (year + 1)
  unfold yearStart yearLength
  split
  next h =>
    have := hleap.mp h
    omega
  next h =>
    have := mt hleap.mpr h
    omega

/-- A day of the cycle is a day of its year. -/
theorem yearOfCycle_spec {day : Int} (low : 0 ≤ day) (high : day < 146097) :
    0 ≤ yearOfCycle day ∧ yearOfCycle day < 400 ∧ yearStart (yearOfCycle day) ≤ day ∧
      day < yearStart (yearOfCycle day) + yearLength (yearOfCycle day + 1) := by
  have hlow : 0 ≤ yearOfCycle day := yearOfCycle_mono low
  have hhigh : yearOfCycle day ≤ 399 := yearOfCycle_mono (Int.le_sub_one_of_lt high)
  -- The years before and after are those of their last and first days.
  have hlast : ∀ year : Int, 0 ≤ year → year < 400 →
      yearOfCycle (yearStart year + yearLength (year + 1) - 1) = year := fun year h h' => by
    obtain ⟨n, rfl⟩ := Int.eq_ofNat_of_zero_le h
    exact (yearOfCycle_bounds ⟨n, by omega⟩).2
  have hfirst : ∀ year : Int, 0 ≤ year → year < 400 → yearOfCycle (yearStart year) = year :=
    fun year h h' => by
      obtain ⟨n, rfl⟩ := Int.eq_ofNat_of_zero_le h
      exact (yearOfCycle_bounds ⟨n, by omega⟩).1
  generalize hy : yearOfCycle day = year at hlow hhigh ⊢
  refine ⟨hlow, by omega, Int.not_lt.mp fun hbefore => ?_, Int.not_le.mp fun hafter => ?_⟩
  · rcases Int.lt_or_eq_of_le hlow with hpos | rfl
    · have hstart := @yearStart_succ (year - 1) (by omega) (by omega)
      have hmono := yearOfCycle_mono (Int.le_sub_one_of_lt hbefore)
      rw [show year - 1 + 1 = year by omega] at hstart
      have := hlast (year - 1) (by omega) (by omega)
      rw [show year - 1 + 1 = year by omega, ← hstart] at this
      omega
    · exact absurd hbefore (Int.not_lt.mpr low)
  · rcases Int.lt_or_eq_of_le hhigh with hless | rfl
    · rw [← yearStart_succ hlow hless] at hafter
      have := yearOfCycle_mono hafter
      rw [hfirst (year + 1) (by omega) (by omega)] at this
      omega
    · exact absurd hafter (Int.not_le.mpr high)

theorem yearLength_add_cycles (year cycle : Int) :
    yearLength (year + cycle * 400) = yearLength year := by
  have hleap : isLeapYear (year + cycle * 400) = isLeapYear year := by
    rw [Bool.eq_iff_iff, isLeapYear_iff, isLeapYear_iff]
    omega
  rw [yearLength, yearLength, hleap]

/-! ### Days of a year -/

/-- The date of a day of a year, both counted from March on. -/
def ofDayOfYear (year day : Int) : Date :=
  let monthFromMarch := (5 * day + 2) / 153
  let month := if monthFromMarch < 10 then monthFromMarch + 3 else monthFromMarch - 9
  ⟨year + if month ≤ 2 then 1 else 0, month.toNat,
    (day - (153 * monthFromMarch + 2) / 5 + 1).toNat⟩

/-- The parts of a day, as its date is made of them. -/
theorem ofDays_eq (days : Int) : ∃ cycle year day : Int,
    days = cycle * 146097 + (yearStart year + day) - 719468 ∧ 0 ≤ year ∧ year < 400 ∧ 0 ≤ day ∧
      day < yearLength (year + cycle * 400 + 1) ∧
      ofDays days = ofDayOfYear (year + cycle * 400) day := by
  have hcycle : 0 ≤ days + 719468 - (days + 719468) / 146097 * 146097 ∧
      days + 719468 - (days + 719468) / 146097 * 146097 < 146097 := by omega
  obtain ⟨hlow, hhigh, hstart, hend⟩ := yearOfCycle_spec hcycle.1 hcycle.2
  refine ⟨(days + 719468) / 146097, yearOfCycle _, _ - yearStart (yearOfCycle _), ?_, hlow, hhigh,
    Int.sub_nonneg_of_le hstart, ?_, rfl⟩
  · omega
  · rw [Int.add_right_comm, yearLength_add_cycles]
    omega

theorem toDays_ofDayOfYear {year day : Int} (low : 0 ≤ day) (high : day < 366) :
    toDays (ofDayOfYear year day) =
      year / 400 * 146097 + (yearStart (year - year / 400 * 400) + day) - 719468 := by
  unfold ofDayOfYear toDays yearStart
  simp only
  generalize hm : (5 * day + 2) / 153 = m
  have hm' : 0 ≤ m ∧ m ≤ 11 := by omega
  by_cases h : m < 10
  · have h' : ¬m + 3 ≤ 2 := by omega
    rw [if_pos h, if_neg h', if_neg (by omega), if_pos (by omega)]
    omega
  · have h' : m - 9 ≤ 2 := by omega
    rw [if_neg h, if_pos h', if_pos (by omega), if_neg (by omega)]
    omega

/-- From March to January, months are as long as the day of the year on which they begin tells. -/
theorem daysOfMonth_fromMarch (year : Int) : ∀ m : Fin 11,
    (daysOfMonth year (if (m : Int) < 10 then (m : Int) + 3 else m - 9).toNat : Int) =
      (153 * ((m : Int) + 1) + 2) / 5 - (153 * m + 2) / 5
  | 0 | 1 | 2 | 3 | 4 | 5 | 6 | 7 | 8 | 9 | 10 => rfl

theorem isValid_ofDayOfYear {year day : Int} (low : 0 ≤ day) (high : day < yearLength (year + 1)) :
    (ofDayOfYear year day).isValid = true := by
  have hle := yearLength_le (year + 1)
  unfold ofDayOfYear
  simp only
  generalize hm : (5 * day + 2) / 153 = m
  simp only [isValid, Bool.and_eq_true, decide_eq_true_eq]
  by_cases hfebruary : m = 11
  · subst hfebruary
    have hlength : daysOfMonth (year + 1) 2 = if isLeapYear (year + 1) then 29 else 28 := rfl
    refine ⟨⟨⟨by decide, by decide⟩, by omega⟩, ?_⟩
    change _ ≤ daysOfMonth (year + 1) 2
    rw [hlength]
    unfold yearLength at high
    split at high
    next h => rw [if_pos h]; omega
    next h => rw [if_neg h]; omega
  · obtain ⟨n, rfl⟩ := Int.eq_ofNat_of_zero_le (a := m) (by omega)
    have hlength := daysOfMonth_fromMarch
      (year + if (if (n : Int) < 10 then (n : Int) + 3 else n - 9) ≤ 2 then 1 else 0) ⟨n, by omega⟩
    refine ⟨⟨⟨?_, ?_⟩, by omega⟩, ?_⟩
    · split <;> omega
    · split <;> omega
    · rw [← Int.ofNat_le, hlength]
      simp only
      omega

/-! ### Days -/

/-- **The day of the date of a day** is the day. -/
theorem toDays_ofDays (days : Int) : toDays (ofDays days) = days := by
  obtain ⟨cycle, year, day, rfl, hlow, hhigh, hday, hlength, hdate⟩ := ofDays_eq days
  have hcycle : (year + cycle * 400) / 400 = cycle := by omega
  have hle := yearLength_le (year + cycle * 400 + 1)
  rw [hdate, toDays_ofDayOfYear hday (by omega), hcycle, Int.add_sub_cancel]

/-- **The date of a day** is a date of the calendar. -/
theorem isValid_ofDays (days : Int) : (ofDays days).isValid = true := by
  obtain ⟨cycle, year, day, -, -, -, hday, hlength, hdate⟩ := ofDays_eq days
  rw [hdate]
  exact isValid_ofDayOfYear hday hlength

/-- The years of the days of all instants. -/
theorem year_ofDays {days : Int} (low : -96465292 ≤ days) (high : days ≤ 95026236) :
    -262143 ≤ (ofDays days).year ∧ (ofDays days).year ≤ 262142 := by
  obtain ⟨cycle, year, day, rfl, hlow, hhigh, hday, hlength, hdate⟩ := ofDays_eq days
  have hle := yearLength_le (year + cycle * 400 + 1)
  rw [hdate]
  unfold ofDayOfYear
  unfold yearStart at low high
  simp only
  generalize hm : (5 * day + 2) / 153 = m
  -- The first and the last year lie in the first and the last cycle, and are not whole there.
  have hfirst : cycle < -656 ∨ cycle = -656 ∧ year < 256 ∨ cycle = -656 ∧ year = 256 ∨
      -262143 < year + cycle * 400 ∨ -262143 = year + cycle * 400 := by omega
  have hlast : 655 < cycle ∨ cycle = 655 ∧ 142 < year ∨ cycle = 655 ∧ year = 142 ∨
      year + cycle * 400 < 262142 := by omega
  constructor
  · rcases hfirst with h | ⟨rfl, h⟩ | ⟨rfl, rfl⟩ | h | h <;> split <;> split <;> omega
  · rcases hlast with h | ⟨rfl, h⟩ | ⟨rfl, rfl⟩ | h <;> split <;> split <;> omega

end Inspection.Date
