import Inspection.Proofs.Schedule.Arranged
import Inspection.Proofs.Schedule.Safe

/-!
# Schedule — the report

However the operations of a plan take turns and however each of them ends, the report accounts for
every one (`report_accounts`).

* `Explained.accounts`: the episodes of an execution that is over account for the plan.
* `Completes.alike`: executions whose operations end alike give reports that are alike.
-/

namespace Inspection

namespace Schedule

variable {outcome outcome' : Task → Outcome}

/-- The ends of an episode that is over are those of its group, in some order. -/
theorem ends_perm {permits : Nat} {e : Episode} (hover : e.IsOver permits)
    (h : EndsAs outcome e.chronicle) {p : Plan} (hops : e.operations = p.group e.category) :
    e.ends.Perm ((p.ended outcome e.category).map Operation.told) := by
  have hends : e.ends = (Chronicle.ended e.chronicle).map fun a =>
      (ActiveGroup.labelAt e.operations a.2, outcome a) := by
    rw [Episode.ends, h.endings_eq, List.map_map]
    rfl
  rw [hends]
  refine (hover.ended_perm.map _).trans (.of_eq ?_)
  rw [Episode.tasks, Plan.ended, ← hops, List.map_map, List.map_map]
  refine List.ext_getElem (by simp) fun i hi hi' => ?_
  have hlt : i < e.operations.length := by simpa using hi
  simp [ActiveGroup.labelAt, Operation.told, hlt]

variable {permits : Nat} {p : Plan} {now : Instant} {hs hs' : Chronicle} {s t : Schedule}

/-- The episodes of an execution that is over account for the plan. -/
theorem Explained.accounts {past : List Episode} {current : Option Episode}
    (h : Explained permits p now hs s past current) (hover : s.isOver = true)
    (ends : EndsAs outcome hs) : s.report.AccountsFor p (p.ended outcome) := by
  obtain ⟨rfl, hgroups⟩ := h.of_isOver hover
  rw [h.report]
  refine Report.ofEnds_accounts ?_ (fun c => .of_eq (p.map_ended outcome c)) fun g hg => ?_
  · rw [← p.map_groups, hgroups, List.map_map, List.map_map]
    rfl
  · obtain ⟨e, he, rfl⟩ := List.mem_map.mp hg
    have hm : e ∈ past ++ (none : Option Episode).toList := List.mem_append_left _ he
    refine ends_perm (h.finished e he) (fun end' hend => ends end' ?_) (h.operations_eq hm)
    rw [h.chronicle, Chronicle.mem_endings]
    exact List.mem_flatMap.mpr ⟨e, hm, Chronicle.mem_endings.mp hend⟩

namespace Completes

variable {wanted wanted' : Nat}

theorem accounts (h : Completes wanted p now outcome hs s) :
    s.report.AccountsFor p (p.ended outcome) := by
  obtain ⟨past, current, he⟩ := h.run.explained
  exact he.accounts h.isOver h.ends

theorem begun (h : Completes wanted p now outcome hs s) :
    s.report.inspectionId = p.inspectionId ∧ s.report.started = now := by
  obtain ⟨past, current, he⟩ := h.run.explained
  simp [he.report, Report.start]

/-- Executions whose operations end alike give reports that are alike. -/
theorem alike {same : Failure → Failure → Prop} (h : Completes wanted p now outcome hs s)
    (h' : Completes wanted' p now outcome' hs' t)
    (hsame : ∀ a (o : Operation),
      Option.Rel same (o.failure? (outcome a)) (o.failure? (outcome' a))) :
    s.report.Alike same t.report := by
  refine h.accounts.alike h'.accounts (fun c => ?_) ?_ ?_
  · rw [Plan.ended, Plan.ended, List.forall₂_map_left_iff, List.forall₂_map_right_iff,
      List.forall₂_same]
    exact fun x _ => hsame (c, x.2) x.1
  · rw [h.begun.1, h'.begun.1]
  · rw [h.begun.2, h'.begun.2]

end Completes

end Schedule

/-- **The report accounts for every operation.**  Let a plan be executed to the end, with as many
operations at once as are wanted, its operations taking turns in any way and each ending as is
given.  Then the report accounts for the plan.  The report of any other such execution differs at
most in the order in which failures are listed, and where what is told of deaths is not the same, in
that too; and the operations of a group can end in every order.  So it is when the operations of
each group are run one after another, in any arrangement that leaves none out and repeats none: the
report is that of an execution, with the time when the run ended. -/
theorem report_accounts {p : Plan} {now : Instant} {wanted : Nat} {outcome : Task → Outcome}
    {hs : Chronicle} {s : Schedule} (h : Schedule.Completes wanted p now outcome hs s) :
    s.report.AccountsFor p (p.ended outcome) ∧
      (∀ wanted' hs' s', Schedule.Completes wanted' p now outcome hs' s' →
        s.report.Alike (· = ·) s'.report) ∧
      (∀ wanted' outcome' hs' s', Schedule.Completes wanted' p now outcome' hs' s' →
        (∀ a, (outcome a).Alike (outcome' a)) → s.report.Alike Failure.Alike s'.report) ∧
      (∀ order : Category → List Nat, (∀ c, (order c).Perm (List.range (p.group c).length)) →
        ∃ hs' s', Schedule.Completes wanted p now outcome hs' s' ∧
          hs'.ended = Category.all.flatMap fun c => (order c).map (c, ·)) ∧
      ∀ (w : World) (arrange : Execution.Arrangement) (tree : FileTree), arrange.IsFair →
        let report := (Execution.runArranged w arrange tree p).report
        report.AccountsFor p (Execution.ended w arrange tree p) ∧
          ∃ outcome' hs' s', Schedule.Completes wanted p w.now outcome' hs' s' ∧
            (∀ c, (p.ended outcome' c).Perm (Execution.ended w arrange tree p c)) ∧
            report = { s'.report with finished := some w.now } := by
  refine ⟨h.accounts, fun wanted' hs' s' h' => ?_, fun wanted' outcome' hs' s' h' hsame => ?_,
    fun order every => Schedule.exists_completes p now wanted outcome every,
    fun w arrange tree fair => ?_⟩
  · refine h.alike h' fun a o => ?_
    cases o.failure? (outcome a) with
    | none => exact .none
    | some f => exact .some rfl
  · exact h.alike h' fun a => (hsame a).failures
  · obtain ⟨outcome', hs', s', h', hperm, hreport⟩ :=
      Schedule.runArranged_completes p wanted fair tree
    have haccounts := h'.accounts.of_perm hperm
    refine ⟨?_, outcome', hs', s', h', hperm, hreport⟩
    rw [hreport]
    exact ⟨haccounts.operations, haccounts.named, haccounts.group, haccounts.total,
      haccounts.isSuccess⟩

/-- How the operations of a plan end that has one of every end. -/
def mixedEnds : Task → Outcome
  | (.basic, 1) => .failure (.collection (.preparation "refused"))
  | (.basic, 2) => .death "task 5 panicked"
  | _ => .success

/-- An execution of it, in which the first of the operations that collect waits until the last has
died. -/
def mixedChronicle : Chronicle := [
  .started (.setup, 0), .ended (.setup, 0) .success,
  .started (.basic, 1), .started (.basic, 2), .ended (.basic, 2) (mixedEnds (.basic, 2)),
  .started (.basic, 0), .ended (.basic, 1) (mixedEnds (.basic, 1)), .ended (.basic, 0) .success,
  .started (.teardown, 0), .ended (.teardown, 0) .success]

theorem report_accounts_mixed : ∃ s,
    Schedule.Completes 2 mixedPlan .earliest mixedEnds mixedChronicle s ∧
      s.report.AccountsFor mixedPlan (mixedPlan.ended mixedEnds) ∧
      s.report.groups.keys = ["_setup", "_teardown", "basic"] ∧
      s.report.group? .basic = some ⟨.error, 3, 2,
        [⟨"unknown", "task 5 panicked", false⟩,
          ⟨"load -> discard", "Preparation failed: refused", true⟩]⟩ := by
  have run : Schedule.Runs (Execution.permits 2) (.ofPlan mixedPlan .earliest) mixedChronicle _ :=
    .of_play (show Schedule.play _ _ [.enter, .start 0, .finish 0 .success, .leave,
      .enter, .start 1, .start 2, .finish 2 (mixedEnds (.basic, 2)), .start 0,
      .finish 1 (mixedEnds (.basic, 1)), .finish 0 .success, .leave,
      .enter, .enter, .enter, .enter, .enter,
      .enter, .start 0, .finish 0 .success, .leave] = some (mixedChronicle, _) from rfl)
  have h : Schedule.Completes 2 mixedPlan .earliest mixedEnds mixedChronicle _ :=
    ⟨run, rfl, by decide⟩
  exact ⟨_, h, (report_accounts h).1, rfl, rfl⟩

end Inspection
