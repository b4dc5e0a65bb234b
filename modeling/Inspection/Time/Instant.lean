import Inspection.Time.Calendar

/-!
# Time — instants

Points in time with nanoseconds, from the year -262143 to the year 262142.  The nanoseconds of a
leap second go on beyond 10⁹ within the second before it, which is the last of a minute.

* `before?_eq_some`: within the range, going back subtracts.
* `before?_eq_none`: there is nothing before the range.
-/

namespace Inspection

/-- A point in time: seconds since 1970-01-01T00:00:00Z and nanoseconds. -/
structure Instant where
  seconds : Int
  nanos : Nat
  inRange : -8334601228800 ≤ seconds ∧ seconds ≤ 8210266876799
  subsecond : nanos < 1000000000 ∨ nanos < 2000000000 ∧ seconds % 60 = 59
  deriving DecidableEq

/-- A span of whole seconds.  Spans are kept in milliseconds, as a word of 64 bits with a sign. -/
structure Span where
  seconds : Nat
  inRange : seconds ≤ 9223372036854775

/-- The span of some seconds, if there is one. -/
def Span.ofSeconds? (seconds : Nat) : Option Span :=
  if inRange : seconds ≤ 9223372036854775 then some ⟨seconds, inRange⟩ else none

namespace Instant

/-- Nanoseconds in a second. -/
def billion : Nat := 1000000000

/-- The earliest instant, -262143-01-01T00:00:00Z. -/
def earliest : Instant := ⟨-8334601228800, 0, by decide, by decide⟩

/-- Seconds in a day. -/
def daySeconds : Int := 86400

/-- The instant of some seconds and nanoseconds, if it is in range. -/
def ofParts? (seconds : Int) (nanos : Nat) : Option Instant :=
  if inRange : -8334601228800 ≤ seconds ∧ seconds ≤ 8210266876799 then
    if subsecond : nanos < 1000000000 ∨ nanos < 2000000000 ∧ seconds % 60 = 59 then
      some ⟨seconds, nanos, inRange, subsecond⟩
    else none
  else none

/-- Whether an instant lies in a leap second. -/
def isLeap (t : Instant) : Bool := billion ≤ t.nanos

/-- The date of an instant. -/
def date (t : Instant) : Date := Date.ofDays (t.seconds / daySeconds)

/-- The second of the day. -/
def secondOfDay (t : Instant) : Int := t.seconds % daySeconds

/-- The whole seconds from one instant to another, toward zero.  A leap second between two times
of day counts. -/
def span (start finish : Instant) : Int :=
  let days := finish.seconds / daySeconds - start.seconds / daySeconds
  let a := finish.secondOfDay
  let b := start.secondOfDay
  let leap : Int :=
    if b < a ∧ start.isLeap then 1 else if a < b ∧ finish.isLeap then -1 else 0
  let nanos : Int := finish.nanos - start.nanos
  let total := days * daySeconds + (a - b + leap + nanos / billion)
  if total < 0 ∧ nanos % billion ≠ 0 then total + 1 else total

/-- The instant that a span of time leads back to, if it is in range.  A leap second is left at the
second after it. -/
def before? (t : Instant) (span : Span) : Option Instant :=
  if span.seconds = 0 then some t
  else if t.isLeap then ofParts? (t.seconds + 1 - span.seconds) (t.nanos - billion)
  else ofParts? (t.seconds - span.seconds) t.nanos

theorem ofParts?_self (t : Instant) : ofParts? t.seconds t.nanos = some t := by
  simp [ofParts?, t.inRange, t.subsecond]

theorem not_isLeap {t : Instant} (h : t.isLeap = false) : t.nanos < 1000000000 := by
  have := of_decide_eq_false h
  exact Nat.not_le.mp this

section

variable {t : Instant} (plain : t.isLeap = false) {span : Span}
include plain

theorem before?_eq_some (room : earliest.seconds ≤ t.seconds - span.seconds) :
    ∃ earlier, t.before? span = some earlier ∧ earlier.seconds = t.seconds - span.seconds ∧
      earlier.nanos = t.nanos := by
  have upper := t.inRange.2
  have lower : -8334601228800 ≤ t.seconds - span.seconds := room
  unfold before?
  split
  next zero => exact ⟨t, rfl, by simp [zero], rfl⟩
  · rw [if_neg (by simp [plain]), ofParts?, dif_pos ⟨lower, by omega⟩,
      dif_pos (.inl (not_isLeap plain))]
    exact ⟨_, rfl, rfl, rfl⟩

theorem before?_eq_none (outside : t.seconds - span.seconds < earliest.seconds) :
    t.before? span = none := by
  have lower := t.inRange.1
  have early : t.seconds - span.seconds < -8334601228800 := outside
  rw [before?, if_neg (by omega), if_neg (by simp [plain]), ofParts?, dif_neg (by omega)]

end

end Instant

end Inspection
