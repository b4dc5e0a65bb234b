import Inspection.Proofs.Schedule.Chronicle

/-!
# Schedule — safety

What holds at every moment of every execution, however its operations take turns and however each
of them ends: `schedule_safe`.  The number of permits that is wanted may be any, zero too.
-/

namespace Inspection

namespace Schedule

/-- A moment of an execution, and what happened until then. -/
structure Safe (p : Plan) (wanted : Nat) (hs : Chronicle) (s : Schedule) : Prop where
  /-- No more operations have started and not ended than are wanted to run at once, or one. -/
  bounded : hs.running.length ≤ max 1 wanted
  /-- These are the operations that run in the active group. -/
  counted : hs.running.length = (s.active.map (·.running)).getD 0
  together : ∀ a ∈ hs.running, ∃ g, s.active = some g ∧ a.1 = g.category
  /-- The operations of all groups before the active one have ended. -/
  behind : ∀ g, s.active = some g → ∀ b ∈ p.tasks, b.1.Before g.category → b ∈ hs.ended
  /-- None has been started twice. -/
  once : hs.started.Nodup
  /-- What runs can end in every way, and each gives a permit back. -/
  release : ∀ a ∈ hs.running, ∀ x, ∃ g k, s.active = some g ∧
    s.step (Execution.permits wanted) (.finish a.2 x) = some { s with active := some k } ∧
    k.free = g.free + 1
  /-- As long as an operation has not ended, something can happen. -/
  goesOn : (∃ b ∈ p.tasks, b ∉ hs.ended) →
    ∃ event t, s.step (Execution.permits wanted) event = some t
  /-- When an operation started, those of earlier groups had ended. -/
  ordered : ∀ (front back : Chronicle) (a : Task), hs = front ++ .started a :: back →
    ∀ b ∈ p.tasks, b.1.Before a.1 → b ∈ front.ended
  /-- All that is written at the begin was there when the first content was collected. -/
  opened : ∀ (front back : Chronicle) (a : Task), hs = front ++ .started a :: back → a.1 ≠ .setup →
    ∀ b ∈ p.tasks, b.1 = .setup → b ∈ front.ended
  /-- The operation that stamps the end started when all others had ended. -/
  closed : ∀ (front back : Chronicle) (a : Task), hs = front ++ .started a :: back → a.1 = .teardown →
    ∀ b ∈ p.tasks, b.1 ≠ .teardown ∨ (p.group .teardown).length = 1 ∧ b ≠ a → b ∈ front.ended
  /-- Once over, each has been run exactly once. -/
  complete : s.isOver = true → hs.started.Perm p.tasks ∧ hs.ended.Perm p.tasks

end Schedule

theorem Category.before_teardown : ∀ {c : Category}, c ≠ .teardown → c.Before .teardown := by
  intro c hc
  cases c <;> first | decide | exact absurd rfl hc

theorem Category.setup_before : ∀ {c : Category}, c ≠ .setup → Before .setup c := by
  intro c hc
  cases c <;> first | decide | exact absurd rfl hc

/-- Of the operations of a plan whose group has only one, none but that one is in the group. -/
theorem Plan.category_ne_of_single {p : Plan} {a b : Task} (h : (p.group a.1).length = 1)
    (ha : a ∈ p.tasks) (hb : b ∈ p.tasks) (hne : b ≠ a) : b.1 ≠ a.1 := by
  intro hc
  have ha := mem_tasks.mp ha
  have hb := mem_tasks.mp hb
  rw [hc] at hb
  exact hne (Prod.ext hc (by omega))

namespace Schedule

variable {p : Plan} {now : Instant} {permits : Nat} {hs : Chronicle} {s : Schedule}

/-- An operation starts only after those of earlier groups have ended. -/
theorem Runs.ordered (run : Runs permits (.ofPlan p now) hs s) {front back : Chronicle} {a b : Task}
    (he : hs = front ++ .started a :: back) (hb : b ∈ p.tasks) (hbefore : b.1.Before a.1) :
    b ∈ front.ended := by
  obtain ⟨t, event, u, hfront, hstep, htold⟩ := run.split he
  obtain ⟨past, current, h⟩ := hfront.explained
  cases event with
  | start i =>
    obtain ⟨g, k, hg, hk, rfl⟩ := step_start hstep
    obtain ⟨e, rfl, ht⟩ := h.of_active hg
    rw [told_start hg] at htold
    cases htold
    exact h.ended_before (by simp) hb (ht.category ▸ hbefore)
  | finish i x =>
    obtain ⟨g, k, hg, hk, rfl⟩ := step_finish hstep
    rw [told_finish hg] at htold
    cases htold
  | enter => cases htold
  | leave => cases htold

end Schedule

/-- **Safety of the schedule.**  However many operations are wanted to run at once, and whatever
happens one after another from the begin of the execution of a plan, the moment that is reached is
safe. -/
theorem schedule_safe {p : Plan} {now : Instant} {wanted : Nat} {hs : Chronicle} {s : Schedule}
    (run : Schedule.Runs (Execution.permits wanted) (.ofPlan p now) hs s) :
    s.Safe p wanted hs := by
  obtain ⟨past, current, h⟩ := run.explained
  have hpermits : Execution.permits wanted = max 1 wanted := Nat.max_comm ..
  refine ⟨hpermits ▸ h.running_length_le, h.running_eq, fun a ha => ?_, fun g hg b hb hbefore => ?_,
    h.started_nodup, fun a ha x => ?_, fun hunfinished => ?_, fun front back a he b hb hbefore => ?_,
    fun front back a he ha b hb hc => ?_, fun front back a he ha b hb hc => ?_, h.perm⟩
  · obtain ⟨e, g, hg, ht, ha⟩ := h.of_running ha
    exact ⟨g, hg, ht.category ▸ (ht.place a (Chronicle.mem_running.mp ha).1).1⟩
  · obtain ⟨e, rfl, ht⟩ := h.of_active hg
    exact h.ended_before (by simp) hb (ht.category ▸ hbefore)
  · obtain ⟨e, g, hg, ht, ha⟩ := h.of_running ha
    obtain ⟨k, hk⟩ := ht.finishes ha x
    refine ⟨g, k, hg, ?_, ActiveGroup.finish_free hk⟩
    rw [Schedule.step, hg, Option.bind_some, hk, Option.map_some]
  · obtain ⟨b, hb, hne⟩ := hunfinished
    refine h.moves (by omega) (Bool.eq_false_iff.mpr fun ho => hne ?_)
    exact (h.perm ho).2.mem_iff.mpr hb
  · exact run.ordered he hb hbefore
  · exact run.ordered he hb (hc ▸ Category.setup_before ha)
  · refine run.ordered he hb (ha ▸ Category.before_teardown ?_)
    rcases hc with hc | ⟨hsingle, hne⟩
    · exact hc
    · have hstarted : a ∈ hs.started := Chronicle.mem_started.mpr (by simp [he])
      exact ha ▸ Plan.category_ne_of_single (ha ▸ hsingle) (h.started_subset_tasks hstarted) hb hne

/-- A plan whose operations end in each way: one at the begin, three that collect, one at the
end. -/
def mixedPlan : Plan where
  inspectionId := "i"
  entries := [
    (.teardown, ⟨.fixed "end" (.bytes []), .discard, none⟩),
    (.basic, ⟨.fixed "state" (.bytes []), .discard, none⟩),
    (.setup, ⟨.fixed "begin" (.bytes []), .discard, none⟩),
    (.basic, ⟨.preparation "load" "refused", .discard, none⟩),
    (.basic, ⟨.fixed "lost" (.death "task 5 panicked"), .discard, none⟩)]

theorem schedule_safe_mixed : ∃ hs s,
    Schedule.Runs (Execution.permits 0) (.ofPlan mixedPlan .earliest) hs s ∧
      hs = [.started (.setup, 0), .ended (.setup, 0) .success, .started (.basic, 2),
        .ended (.basic, 2) (.death "task 5 panicked"), .started (.basic, 0)] ∧
      s.Safe mixedPlan 0 hs ∧ hs.running = [(.basic, 0)] ∧ (.basic, 1) ∉ hs.ended := by
  have run : Schedule.Runs (Execution.permits 0) (.ofPlan mixedPlan .earliest) _ _ :=
    .of_play (show Schedule.play _ _ [.enter, .start 0, .finish 0 .success, .leave, .enter,
      .start 2, .finish 2 (.death "task 5 panicked"), .start 0] = some _ from rfl)
  exact ⟨_, _, run, rfl, schedule_safe run, by decide, by decide⟩

end Inspection
