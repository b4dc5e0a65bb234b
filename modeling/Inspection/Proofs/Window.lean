import Inspection.Proofs.Check
import Inspection.Window

/-!
# Window — where windows begin, and how fine they are

A window of the last seconds begins that many seconds ago, or with the earliest instant there is.
Going back meets three bounds, that of words, that of spans and that of instants; the first two
lie so far out that whatever they hold back is out of the third as well.

* `start_relative`: the begin, by seconds and nanoseconds.
* `resolve_of_validate`: what a window is taken from, once the targets are checked.
* `isCoarse_of_step`: about sixty points fit into a window, however long it is.
* `windows_clamped_and_coarse`: all of it.
-/

namespace Inspection

namespace Instant

/-- The nanoseconds since 1970-01-01T00:00:00Z. -/
def total (t : Instant) : Int := t.seconds * billion + t.nanos

theorem earliest_total_le (t : Instant) : earliest.total ≤ t.total := by
  have hlow : earliest.seconds ≤ t.seconds := t.inRange.1
  have hzero : earliest.nanos = 0 := rfl
  simp only [total, billion]
  omega

/-- Between two instants with the same nanoseconds, the seconds are counted. -/
theorem span_of_nanos {start finish : Instant} (hstart : start.isLeap = false)
    (hfinish : finish.isLeap = false) (hnanos : start.nanos = finish.nanos) :
    start.span finish = finish.seconds - start.seconds := by
  simp only [span, secondOfDay, hstart, hfinish, hnanos, Bool.false_eq_true, and_false, if_false,
    Int.sub_self, Int.zero_ediv, Int.zero_emod, daySeconds]
  split <;> omega

end Instant

namespace Window

open Instant

/-! ### Relative windows -/

section

variable {now : Instant} (plain : now.isLeap = false) (seconds : Nat)
include plain

/-- Within the range, a relative window begins the seconds ago that it was given. -/
theorem start_relative_of_le (room : earliest.seconds ≤ now.seconds - seconds) :
    (relative now seconds).start.seconds = now.seconds - seconds ∧
      (relative now seconds).start.nanos = now.nanos := by
  have hlow : earliest.seconds = -8334601228800 := rfl
  have hhigh := now.inRange.2
  have hword : min seconds largestWord = seconds := Nat.min_eq_left (by unfold largestWord; omega)
  obtain ⟨span, hspan, hvalue⟩ : ∃ span, Span.ofSeconds? seconds = some span ∧
      span.seconds = seconds := ⟨⟨seconds, by omega⟩, dif_pos _, rfl⟩
  rw [← hvalue] at room
  obtain ⟨earlier, he, hseconds, hnanos⟩ := before?_eq_some plain room
  have hstart : (relative now seconds).start = earlier := by
    simp only [relative, hword, hspan, Option.bind_some, he, Option.getD_some, between]
  rw [hstart, ← hvalue]
  exact ⟨hseconds, hnanos⟩

/-- Out of the range, a relative window begins with the earliest instant. -/
theorem start_relative_of_lt (outside : now.seconds - seconds < earliest.seconds) :
    (relative now seconds).start = earliest := by
  have hlow : earliest.seconds = -8334601228800 := rfl
  have hnow := now.inRange.1
  simp only [relative, between]
  cases hspan : Span.ofSeconds? (min seconds largestWord) with
  | none => rfl
  | some span =>
    -- There is a span of as many seconds, so the word was large enough.
    have hseconds : span.seconds = seconds := by
      unfold Span.ofSeconds? at hspan
      split at hspan
      next hle =>
        cases hspan
        simp only [largestWord] at hle ⊢
        omega
      · cases hspan
    rw [Option.bind_some, before?_eq_none plain (by rw [hseconds]; exact outside)]
    rfl

/-- **Where a relative window begins**: the seconds ago that it was given, or with the earliest
instant if that is later. -/
theorem start_relative : (relative now seconds).start.isLeap = false ∧
    (relative now seconds).start.total =
      max (now.total - seconds * billion) earliest.total := by
  have hnanos := not_isLeap plain
  by_cases room : earliest.seconds ≤ now.seconds - seconds
  · obtain ⟨hs, hn⟩ := start_relative_of_le plain seconds room
    have hzero : earliest.nanos = 0 := rfl
    refine ⟨by rw [isLeap, hn]; exact plain, ?_⟩
    simp only [total, hs, hn, billion]
    omega
  · have hout := Int.not_le.mp room
    have hzero : earliest.nanos = 0 := rfl
    rw [start_relative_of_lt plain seconds hout]
    refine ⟨rfl, ?_⟩
    simp only [total, billion]
    omega

/-- A relative window that was not cut short has the seconds that it was given. -/
theorem span_relative (room : earliest.total ≤ now.total - seconds * billion) :
    (relative now seconds).span = seconds := by
  have hnanos := not_isLeap plain
  have hzero : earliest.nanos = 0 := rfl
  have hroom : earliest.seconds ≤ now.seconds - seconds := by
    simp only [total, billion] at room
    omega
  obtain ⟨hs, hn⟩ := start_relative_of_le plain seconds hroom
  have hspan := span_of_nanos (start_relative plain seconds).1 plain hn
  rw [span, relative_finish, hspan, hs]
  omega

end

/-! ### Resolution -/

/-- The points of a window lie as far apart as servers sample at least, and there are about sixty of
them. -/
structure IsCoarse (w : Window) : Prop where
  least : 15 ≤ w.step
  short : w.span < 960 → w.step = 15
  few : ∀ k : Nat, (k * w.step : Nat) ≤ w.span → k ≤ 63
  enough : 900 ≤ w.span → (60 * w.step : Nat) ≤ w.span

/-- About sixty points fit into a window. -/
theorem isCoarse_of_step {w : Window} (h : w.step = stepOf w.span) : w.IsCoarse := by
  have hstep : w.step = max (w.span.toNat / 60) 15 := h
  refine ⟨by omega, fun hshort => by omega, fun k hk => ?_, fun hlong => by omega⟩
  refine Nat.le_of_not_lt fun hmore => ?_
  have hsixtyFour : 64 * w.step ≤ k * w.step := Nat.mul_le_mul_right _ hmore
  omega

theorem isCoarse_between (start finish : Instant) : (between start finish).IsCoarse :=
  isCoarse_of_step rfl

theorem isCoarse_of_resolve {qualifier : Option Qualifier} {windowBegin windowEnd : Option Instant}
    {now : Instant} {w : Window} (h : resolve qualifier windowBegin windowEnd now = .ok w) :
    w.IsCoarse := by
  unfold resolve at h
  split at h
  · rw [← Except.ok.inj h]
    exact isCoarse_between ..
  · obtain ⟨seconds, -, rfl⟩ := Check.map_eq_ok.mp h
    exact isCoarse_between ..

end Window

/-! ### What a window is taken from -/

/-- The duration that a qualifier is. -/
def Qualifier.duration? : Qualifier → Option String
  | .value text => some text
  | _ => none

namespace TargetSpec

/-- The first duration written with the category of metrics. -/
def duration? (spec : TargetSpec) : Option String :=
  (spec.qualifiers .metric).findSome? Qualifier.duration?

/-- No qualifier of metrics has several segments, once the targets are checked. -/
theorem firstParts?_of_validate {spec : TargetSpec} {o : Options} (hv : spec.validate o = .ok ()) :
    firstParts? (spec.qualifiers .metric) = none := by
  by_cases hm : spec.contains .metric = true
  · simp only [validate, hm, if_true] at hv
    obtain ⟨⟨⟩, hmetric, -⟩ := Check.bind_eq_ok.mp hv
    unfold validateMetric at hmetric
    split at hmetric
    · cases hmetric
    next hnone => exact hnone
  · have hnil : spec.qualifiers .metric = [] := by simpa [contains] using hm
    rw [hnil]
    rfl

theorem durationOf_find? {qs : List Qualifier} (h : firstParts? qs = none) :
    Window.durationOf (qs.find? (!·.isFlag)) =
      (qs.findSome? Qualifier.duration?).getD Window.defaultDuration := by
  induction qs with
  | nil => rfl
  | cons q qs ih =>
    cases q with
    | flag => exact ih h
    | value text => rfl
    | parts segments => cases h

end TargetSpec

/-- **What a window is taken from**, once the targets are checked: from both its ends if they are
given, or else from the first duration written, or else it is the last hour. -/
theorem Window.resolve_of_validate {spec : TargetSpec} {o : Options}
    (hv : spec.validate o = .ok ()) (now : Instant) :
    resolve (spec.choice? .metric) o.windowBegin o.windowEnd now =
      match o.windowBegin, o.windowEnd with
      | some start, some finish => .ok (between start finish)
      | _, _ =>
        match spec.duration? with
        | some text => (Duration.read text).map (relative now)
        | none => .ok (relative now 3600) := by
  have hduration : durationOf (spec.choice? .metric) = spec.duration?.getD defaultDuration :=
    TargetSpec.durationOf_find? (TargetSpec.firstParts?_of_validate hv)
  have hhour : Duration.read defaultDuration = .ok 3600 := by decide
  have hread : (Duration.read (durationOf (spec.choice? .metric))).map (relative now) =
      match spec.duration? with
      | some text => (Duration.read text).map (relative now)
      | none => .ok (relative now 3600) := by
    rw [hduration]
    cases spec.duration? with
    | some text => rfl
    | none =>
      rw [Option.getD_none, hhour]
      rfl
  rw [← hread]
  rfl

namespace Window

open Instant

/-- **Windows** of the last seconds end now, and begin as long ago as they were given, without
any bound, or with the earliest instant if that is later.  Once the targets are checked, a
window is that between both ends if they are given, or else that of the first duration written, or
else the last hour; one end alone has no say.  Points lie fifteen seconds apart or more, as many as
that in windows below sixteen minutes; no more than 63 steps fit into any window, and no fewer than
60 into one of fifteen minutes. -/
theorem windows_clamped_and_coarse :
    (∀ now seconds, now.isLeap = false →
      (relative now seconds).finish = now ∧
      (relative now seconds).start.isLeap = false ∧
      (relative now seconds).start.total =
        max (now.total - seconds * billion) earliest.total ∧
      (relative now seconds).start.total ≤ (relative now seconds).finish.total ∧
      (earliest.total ≤ now.total - seconds * billion → (relative now seconds).span = seconds)) ∧
    (earliest.date = ⟨-262143, 1, 1⟩ ∧ earliest.secondOfDay = 0 ∧ earliest.nanos = 0 ∧
      ∀ t : Instant, earliest.total ≤ t.total) ∧
    (∀ (spec : TargetSpec) (o : Options) now, spec.validate o = .ok () →
      resolve (spec.choice? .metric) o.windowBegin o.windowEnd now =
        match o.windowBegin, o.windowEnd with
        | some start, some finish => .ok (between start finish)
        | _, _ =>
          match spec.duration? with
          | some text => (Duration.read text).map (relative now)
          | none => .ok (relative now 3600)) ∧
    (∀ now seconds, (relative now seconds).IsCoarse) ∧
    ∀ qualifier windowBegin windowEnd now w,
      resolve qualifier windowBegin windowEnd now = .ok w → w.IsCoarse := by
  refine ⟨fun now seconds plain => ?_, ⟨by decide, by decide, rfl, earliest_total_le⟩,
    fun spec o now hv => resolve_of_validate hv now, fun now seconds => isCoarse_between _ _,
    fun _ _ _ _ w h => isCoarse_of_resolve h⟩
  obtain ⟨hleap, htotal⟩ := start_relative plain seconds
  refine ⟨relative_finish now seconds, hleap, htotal, ?_, span_relative plain seconds⟩
  rw [htotal, relative_finish]
  have hleast := earliest_total_le now
  simp only [billion]
  omega

/-- Half a second into 2024-03-02. -/
def halfPast : Instant := ⟨1709337600, 500000000, by decide, by decide⟩

/-- A run with a bare target of metrics, two durations and one end of a window. -/
def halfBoundRun : Options where
  inspectionId := "i"
  dataDir := "d"
  collect := "metric,metric:2h,metric:1d"
  windowBegin := some .earliest
  windowEnd := none
  logDir := none
  logSpliter := none
  profileSeconds := 10
  httpTimeout := 30

/-- The longest duration is cut short, and the first one written counts. -/
theorem windows_clamped_and_coarse_mixed :
    halfPast.isLeap = false ∧
      (relative halfPast 18446744073709551615).start.total = earliest.total ∧
      earliest.total ≤ halfPast.total - 100 * billion ∧ (relative halfPast 100).span = 100 ∧
      ∃ spec, TargetSpec.read halfBoundRun.collect = .ok spec ∧
        spec.validate halfBoundRun = .ok () ∧
        resolve (spec.choice? .metric) halfBoundRun.windowBegin halfBoundRun.windowEnd halfPast =
          .ok (relative halfPast 7200) ∧
        (relative halfPast 7200).IsCoarse := by
  obtain ⟨hrelative, -, hresolve, -, hcoarse⟩ := windows_clamped_and_coarse
  have hplain : halfPast.isLeap = false := by decide
  have hroom : earliest.total ≤ halfPast.total - 100 * billion := by decide
  obtain ⟨spec, hspec⟩ : ∃ spec, TargetSpec.read halfBoundRun.collect = .ok spec := ⟨_, rfl⟩
  have hvalid : spec.validate halfBoundRun = .ok () := by
    cases hspec
    rfl
  have hwindow : resolve (spec.choice? .metric) halfBoundRun.windowBegin halfBoundRun.windowEnd
      halfPast = .ok (relative halfPast 7200) := by
    rw [hresolve spec halfBoundRun halfPast hvalid]
    cases hspec
    rfl
  refine ⟨hplain, (hrelative halfPast _ hplain).2.2.1.trans (by decide), hroom,
    (hrelative halfPast 100 hplain).2.2.2.2 hroom, spec, hspec, hvalid, hwindow,
    hcoarse _ _ _ _ _ hwindow⟩

end Window

end Inspection
