import Inspection.Proofs.Report
import Inspection.Proofs.Schedule.Group
import Mathlib.Data.List.Perm.Basic

/-!
# Schedule — a plan while it is executed

A run of a schedule tells a chronicle.  At every moment the chronicle falls into *episodes*, one for
each group that was executed or is (`Explained`): the groups of the past are over, the present one
is as its episode tells, and the groups ahead are those that remain.

* `Runs.split`: at what is told, the run was at a moment of which it is told.
* `Explained.step`: an event adds to the current episode, or begins or ends one.
* `Runs.explained`: so every run falls into episodes.
* `Explained.mem_running_iff`: only operations of the current group run.
* `Explained.ended_before`: the operations of earlier groups have ended.
* `Explained.moves`: what is not over goes on.
* `Explained.perm`: once over, every operation has started once and ended once.
-/

namespace Inspection

/-- Whether the group of a category is executed before that of another. -/
def Category.Before (a b : Category) : Prop := all.idxOf a < all.idxOf b

instance (a b : Category) : Decidable (a.Before b) := inferInstanceAs (Decidable (_ < _))

/-- The operations of a plan, by their groups and in order. -/
def Plan.tasks (p : Plan) : List Task :=
  p.groups.flatMap fun (c, os) => (List.range os.length).map (c, ·)

theorem Plan.mem_tasks {p : Plan} {a : Task} : a ∈ p.tasks ↔ a.2 < (p.group a.1).length := by
  unfold Plan.tasks Plan.groups
  rw [List.flatMap_map, List.mem_flatMap]
  constructor
  · rintro ⟨c, -, hm⟩
    obtain ⟨i, hi, rfl⟩ := List.mem_map.mp hm
    exact List.mem_range.mp hi
  · intro h
    exact ⟨a.1, Category.mem_all _, List.mem_map.mpr ⟨a.2, List.mem_range.mpr h, rfl⟩⟩

namespace Schedule

/-! ### Runs -/

/-- What an event tells. -/
def told (s : Schedule) : Event → Chronicle
  | .start i => s.active.toList.map fun g => .started (g.category, i)
  | .finish i x => s.active.toList.map fun g => .ended (g.category, i) x
  | .enter | .leave => []

theorem told_start {s : Schedule} {g : ActiveGroup} (h : s.active = some g) (i : Nat) :
    s.told (.start i) = [.started (g.category, i)] := by
  simp [told, h]

theorem told_finish {s : Schedule} {g : ActiveGroup} (h : s.active = some g) (i : Nat)
    (x : Outcome) : s.told (.finish i x) = [.ended (g.category, i) x] := by
  simp [told, h]

/-- The schedules that events lead to, one after another, and what the events tell. -/
inductive Runs (permits : Nat) (s : Schedule) : Chronicle → Schedule → Prop
  | refl : Runs permits s [] s
  | more {hs : Chronicle} {t u : Schedule} {e : Event} (run : Runs permits s hs t)
      (h : step permits t e = some u) : Runs permits s (hs ++ t.told e) u

/-- Lets events happen one after another, if they can: what they tell, and where they lead. -/
def play (permits : Nat) : Schedule → List Event → Option (Chronicle × Schedule)
  | s, [] => some ([], s)
  | s, e :: rest => (step permits s e).bind fun t =>
    (play permits t rest).map fun (hs, u) => (s.told e ++ hs, u)

namespace Runs

variable {permits : Nat} {s t u : Schedule} {hs more : Chronicle}

theorem trans (h₁ : Runs permits s hs t) (h₂ : Runs permits t more u) :
    Runs permits s (hs ++ more) u := by
  induction h₂ with
  | refl => rwa [List.append_nil]
  | more _ h ih =>
    rw [← List.append_assoc]
    exact .more ih h

theorem of_play {events : List Event} (h : play permits s events = some (hs, t)) :
    Runs permits s hs t := by
  induction events generalizing s hs with
  | nil =>
    cases h
    exact .refl
  | cons e rest ih =>
    obtain ⟨u, hstep, h⟩ := Option.bind_eq_some_iff.mp h
    obtain ⟨⟨more, t⟩, hrest, he⟩ := Option.map_eq_some_iff.mp h
    cases he
    exact (Runs.more .refl hstep).trans (ih hrest)

theorem told_cases (s : Schedule) (e : Event) : s.told e = [] ∨ ∃ h, s.told e = [h] := by
  cases e with
  | enter => exact .inl rfl
  | leave => exact .inl rfl
  | start i => cases ha : s.active <;> simp [told, ha]
  | finish i x => cases ha : s.active <;> simp [told, ha]

/-- The moment at which something happened that is told. -/
theorem split (run : Runs permits s hs u) : ∀ {front back : Chronicle} {h : Happening},
    hs = front ++ h :: back →
      ∃ t e v, Runs permits s front t ∧ step permits t e = some v ∧ t.told e = [h] := by
  induction run with
  | refl =>
    intro front back h he
    simp at he
  | @more hs t u e run hstep ih =>
    intro front back h he
    rcases told_cases t e with ht | ⟨last, ht⟩
    · rw [ht, List.append_nil] at he
      exact ih he
    · rw [ht] at he
      -- It is the last that is told, or it was told before.
      rcases List.eq_nil_or_concat back with rfl | ⟨back, last', rfl⟩
      · obtain ⟨rfl, hh⟩ := List.append_inj' he rfl
        cases hh
        exact ⟨t, e, u, run, hstep, ht⟩
      · have hrest : hs ++ [last] = (front ++ h :: back) ++ [last'] := by simpa using he
        exact ih (List.append_inj' hrest rfl).1

end Runs

/-- Operations end as is given. -/
def EndsAs (outcome : Task → Outcome) (hs : Chronicle) : Prop :=
  ∀ e ∈ hs.endings, e.2 = outcome e.1

instance (outcome : Task → Outcome) (hs : Chronicle) : Decidable (EndsAs outcome hs) :=
  inferInstanceAs (Decidable (∀ e ∈ hs.endings, e.2 = outcome e.1))

theorem EndsAs.endings_eq {outcome : Task → Outcome} {hs : Chronicle} (h : EndsAs outcome hs) :
    hs.endings = hs.ended.map fun a => (a, outcome a) := by
  rw [Chronicle.ended, List.map_map]
  refine (List.map_id _).symm.trans (List.map_congr_left fun e he => ?_)
  exact Prod.ext rfl (h e he)

/-- Operations that end once each end as is given somehow. -/
theorem exists_endsAs {hs : Chronicle} (once : hs.ended.Nodup) : ∃ outcome, EndsAs outcome hs := by
  refine ⟨fun a => ((hs.endings.find? (·.1 = a)).map (·.2)).getD .success, fun e he => ?_⟩
  have hfind := (Entries.find?_eq_some_iff once).mpr ⟨he, rfl⟩
  simp only [hfind]
  rfl

/-- An execution of a plan from its begin to its end, with as many operations at once as are wanted,
each of which ends as is given. -/
structure Completes (wanted : Nat) (p : Plan) (now : Instant) (outcome : Task → Outcome)
    (hs : Chronicle) (s : Schedule) : Prop where
  run : Runs (Execution.permits wanted) (.ofPlan p now) hs s
  isOver : s.isOver = true
  ends : EndsAs outcome hs

/-! ### Events -/

theorem step_enter {permits : Nat} {s t : Schedule} (h : step permits s .enter = some t) :
    s.active = none ∧ ∃ c os ahead, s.ahead = (c, os) :: ahead ∧
      t = if os.isEmpty then { s with ahead }
        else { s with active := some (.enter permits c os), ahead } := by
  obtain ⟨report, active, ahead⟩ := s
  cases active with
  | some g => cases h
  | none =>
    cases ahead with
    | nil => cases h
    | cons group ahead =>
      refine ⟨rfl, group.1, group.2, ahead, rfl, ?_⟩
      simp only [step] at h
      split at h
      next hempty => rw [if_pos hempty, ← Option.some.inj h]
      next hsome => rw [if_neg hsome, ← Option.some.inj h]

theorem step_start {permits : Nat} {s t : Schedule} {i : Nat}
    (h : step permits s (.start i) = some t) :
    ∃ g k, s.active = some g ∧ g.start i = some k ∧ t = { s with active := some k } := by
  obtain ⟨k, hk, ht⟩ := Option.map_eq_some_iff.mp h
  obtain ⟨g, hg, hstart⟩ := Option.bind_eq_some_iff.mp hk
  exact ⟨g, k, hg, hstart, ht.symm⟩

theorem step_finish {permits : Nat} {s t : Schedule} {i : Nat} {x : Outcome}
    (h : step permits s (.finish i x) = some t) :
    ∃ g k, s.active = some g ∧ g.finish i x = some k ∧ t = { s with active := some k } := by
  obtain ⟨k, hk, ht⟩ := Option.map_eq_some_iff.mp h
  obtain ⟨g, hg, hfinish⟩ := Option.bind_eq_some_iff.mp hk
  exact ⟨g, k, hg, hfinish, ht.symm⟩

theorem step_leave {permits : Nat} {s t : Schedule} (h : step permits s .leave = some t) :
    ∃ g, s.active = some g ∧ g.isOver = true ∧
      t = { s with
        report := s.report.insert g.category (GroupStatus.ofOutcomes g.ends), active := none } := by
  obtain ⟨g, hg, ht⟩ := Option.map_eq_some_iff.mp h
  obtain ⟨hg, ho⟩ := Option.filter_eq_some_iff.mp hg
  exact ⟨g, hg, ho, ht.symm⟩

end Schedule

/-! ### Episodes -/

/-- What a chronicle tells of one group. -/
structure Episode where
  category : Category
  operations : List Operation
  chronicle : Chronicle

namespace Episode

/-- The group that an episode is about. -/
def group (e : Episode) : Category × List Operation := (e.category, e.operations)

/-- The operations of the group. -/
def tasks (e : Episode) : List Task := (List.range e.operations.length).map (e.category, ·)

/-- How the operations ended, each told by its label. -/
def ends (e : Episode) : List (String × Outcome) :=
  (Chronicle.endings e.chronicle).map fun x => (ActiveGroup.labelAt e.operations x.1.2, x.2)

/-- What is reported of the group. -/
def account (e : Episode) : Category × List (String × Outcome) := (e.category, e.ends)

/-- An episode that goes on. -/
def add (e : Episode) (h : Happening) : Episode := { e with chronicle := e.chronicle ++ [h] }

/-- An active group is as the episode tells. -/
abbrev Tells (permits : Nat) (e : Episode) (g : ActiveGroup) : Prop :=
  g.Told permits e.category e.operations e.chronicle

/-- An episode that has come to its end. -/
def IsOver (permits : Nat) (e : Episode) : Prop := ∃ g, e.Tells permits g ∧ g.isOver = true

variable {permits : Nat} {e : Episode}

/-- The episode of a group without operations is over as it begins. -/
theorem isOver_of_isEmpty {c : Category} {os : List Operation} (h : os.isEmpty = true) :
    IsOver permits ⟨c, os, []⟩ := by
  obtain rfl := List.isEmpty_iff.mp h
  exact ⟨_, .enter permits c [], rfl⟩

namespace IsOver

variable (h : e.IsOver permits)
include h

theorem started_perm : e.chronicle.started.Perm e.tasks := by
  obtain ⟨g, ht, ho⟩ := h
  exact (ht.perm ho).1

theorem ended_perm : e.chronicle.ended.Perm e.tasks := by
  obtain ⟨g, ht, ho⟩ := h
  exact (ht.perm ho).2

theorem started_subset_ended : e.chronicle.started ⊆ e.chronicle.ended :=
  (h.started_perm.trans h.ended_perm.symm).subset

end IsOver

end Episode

namespace Schedule

open Chronicle

/-- A plan in execution as it falls into episodes: those of the past, and the current one if there
is one. -/
structure Explained (permits : Nat) (p : Plan) (now : Instant) (hs : Chronicle) (s : Schedule)
    (past : List Episode) (current : Option Episode) : Prop where
  groups : p.groups = (past ++ current.toList).map Episode.group ++ s.ahead
  chronicle : hs = (past ++ current.toList).flatMap Episode.chronicle
  finished : ∀ e ∈ past, e.IsOver permits
  active : Option.Rel (Episode.Tells permits) current s.active
  busy : ∀ e ∈ current, e.operations.isEmpty = false
  report : s.report = (Report.start p.inspectionId now).ofEnds (past.map Episode.account)

namespace Explained

theorem ofPlan (permits : Nat) (p : Plan) (now : Instant) :
    Explained permits p now [] (.ofPlan p now) [] none where
  groups := rfl
  chronicle := rfl
  finished := by simp
  active := .none
  busy := by simp
  report := rfl

variable {permits : Nat} {p : Plan} {now : Instant} {hs : Chronicle} {s : Schedule}
  {past : List Episode}

/-- The current episode goes on. -/
theorem add {e : Episode} {k : ActiveGroup} {event : Happening}
    (h : Explained permits p now hs s past (some e)) (hk : (e.add event).Tells permits k) :
    Explained permits p now (hs ++ [event]) { s with active := some k } past
      (some (e.add event)) where
  groups := by simpa [Episode.add, Episode.group] using h.groups
  chronicle := by simp [h.chronicle, Episode.add]
  finished := h.finished
  active := .some hk
  busy e' he := by
    cases he
    exact h.busy e rfl
  report := h.report

/-- An event adds to the current episode, or begins or ends one. -/
theorem step {current : Option Episode} (h : Explained permits p now hs s past current)
    {t : Schedule} {event : Event} (hstep : s.step permits event = some t) :
    ∃ past current, Explained permits p now (hs ++ s.told event) t past current := by
  have hactive := h.active
  cases event with
  | enter =>
    obtain ⟨hnone, c, os, ahead, hahead, rfl⟩ := step_enter hstep
    rw [hnone] at hactive
    cases hactive
    have hgroups := h.groups
    rw [hahead] at hgroups
    by_cases hempty : os.isEmpty
    · rw [if_pos hempty]
      refine ⟨past ++ [⟨c, os, []⟩], none, ?_, ?_, fun e he => ?_, ?_, by simp, ?_⟩
      · simpa [Episode.group] using hgroups
      · simpa [told] using h.chronicle
      · rcases List.mem_append.mp he with he | he
        · exact h.finished e he
        · rw [List.mem_singleton.mp he]
          exact Episode.isOver_of_isEmpty hempty
      · rw [hnone]
        exact .none
      · simp [h.report, Report.ofEnds, Episode.account, Episode.ends]
    · rw [if_neg hempty]
      refine ⟨past, some ⟨c, os, []⟩, ?_, ?_, h.finished, .some (.enter permits c os), ?_, h.report⟩
      · simpa [Episode.group] using hgroups
      · simpa [told] using h.chronicle
      · rintro e ⟨⟩
        exact Bool.eq_false_iff.mpr hempty
  | start i =>
    obtain ⟨g, k, hg, hk, rfl⟩ := step_start hstep
    rw [hg] at hactive
    cases hactive with
    | some htells =>
      rw [told_start hg, htells.category]
      exact ⟨past, _, h.add (htells.start hk)⟩
  | finish i x =>
    obtain ⟨g, k, hg, hk, rfl⟩ := step_finish hstep
    rw [hg] at hactive
    cases hactive with
    | some htells =>
      rw [told_finish hg, htells.category]
      exact ⟨past, _, h.add (htells.finish hk)⟩
  | leave =>
    obtain ⟨g, hg, ho, rfl⟩ := step_leave hstep
    rw [hg] at hactive
    cases hactive with
    | @some e _ htells =>
      refine ⟨past ++ [e], none, ?_, ?_, fun e' he => ?_, .none, by simp, ?_⟩
      · simpa using h.groups
      · simpa [told] using h.chronicle
      · rcases List.mem_append.mp he with he | he
        · exact h.finished e' he
        · rw [List.mem_singleton.mp he]
          exact ⟨g, htells, ho⟩
      · have hends : g.ends = e.ends := htells.ends
        have hlength : g.ends.length = e.operations.length :=
          (of_decide_eq_true ho).trans htells.length
        have hsome : e.ends ≠ [] := by
          rw [← hends, ← List.length_pos_iff, hlength, List.length_pos_iff]
          simpa using h.busy e rfl
        simp [Report.ofEnds, Episode.account, hsome, h.report, htells.category, hends]

end Explained

/-- Every run from the begin of an execution falls into episodes. -/
theorem Runs.explained {permits : Nat} {p : Plan} {now : Instant} {hs : Chronicle} {s : Schedule}
    (run : Runs permits (.ofPlan p now) hs s) :
    ∃ past current, Explained permits p now hs s past current := by
  induction run with
  | refl => exact ⟨[], none, .ofPlan permits p now⟩
  | more _ hstep ih =>
    obtain ⟨past, current, h⟩ := ih
    exact h.step hstep

/-! ### What episodes tell of a moment -/

namespace Explained

variable {permits : Nat} {p : Plan} {now : Instant} {hs : Chronicle} {s : Schedule}
  {past : List Episode} {current : Option Episode}
  (h : Explained permits p now hs s past current)
include h

theorem started_eq : started hs = (past ++ current.toList).flatMap (·.chronicle.started) := by
  rw [h.chronicle, started, List.filterMap_flatMap]
  rfl

theorem ended_eq : ended hs = (past ++ current.toList).flatMap (·.chronicle.ended) := by
  rw [h.chronicle, ended, endings, List.filterMap_flatMap, List.map_flatMap]
  rfl

theorem tells {e : Episode} (he : e ∈ past ++ current.toList) : ∃ g, e.Tells permits g := by
  rcases List.mem_append.mp he with he | he
  · obtain ⟨g, ht, -⟩ := h.finished e he
    exact ⟨g, ht⟩
  · obtain rfl := Option.mem_toList.mp he
    have hactive := h.active
    generalize s.active = active at hactive
    cases hactive with
    | some ht => exact ⟨_, ht⟩

/-- The groups are those of the plan, in their order. -/
theorem categories : Category.all =
    (past ++ current.toList).map Episode.category ++ s.ahead.map (·.1) := by
  calc Category.all = p.groups.map (·.1) := p.map_groups.symm
    _ = _ := by
      rw [h.groups, List.map_append, List.map_map]
      rfl

theorem operations_eq {e : Episode} (he : e ∈ past ++ current.toList) :
    e.operations = p.group e.category := by
  refine Plan.eq_group_of_mem ?_
  rw [h.groups]
  exact List.mem_append_left _ (List.mem_map_of_mem (f := Episode.group) he)

theorem category_of_started {e : Episode} {a : Task} (he : e ∈ past ++ current.toList)
    (ha : a ∈ e.chronicle.started) : a.1 = e.category := by
  obtain ⟨g, ht⟩ := h.tells he
  exact (ht.place a ha).1

theorem categories_nodup : ((past ++ current.toList).map Episode.category).Nodup := by
  have hall : Category.all.Nodup := by decide
  rw [h.categories] at hall
  exact hall.of_append_left

/-- Nothing starts twice. -/
theorem started_nodup : (started hs).Nodup := by
  rw [h.started_eq, List.nodup_flatMap]
  constructor
  · intro e he
    obtain ⟨g, ht⟩ := h.tells he
    exact ht.started_once
  · refine (List.pairwise_map.mp h.categories_nodup).imp_of_mem fun hd he hne a had hae => hne ?_
    rw [← h.category_of_started hd had, h.category_of_started he hae]

/-- What runs is what runs in the current group. -/
theorem mem_running_iff {a : Task} : a ∈ running hs ↔ ∃ e ∈ current, a ∈ e.chronicle.running := by
  rw [mem_running, h.started_eq, h.ended_eq, List.mem_flatMap, List.mem_flatMap]
  constructor
  · rintro ⟨⟨e, he, hstarted⟩, hended⟩
    have hnot : a ∉ e.chronicle.ended := fun hm => hended ⟨e, he, hm⟩
    rcases List.mem_append.mp he with hpast | hcurrent
    · exact absurd ((h.finished e hpast).started_subset_ended hstarted) hnot
    · exact ⟨e, Option.mem_toList.mp hcurrent, mem_running.mpr ⟨hstarted, hnot⟩⟩
  · rintro ⟨e, he, ha⟩
    obtain ⟨hstarted, hnot⟩ := mem_running.mp ha
    have he : e ∈ past ++ current.toList := List.mem_append_right _ (Option.mem_toList.mpr he)
    refine ⟨⟨e, he, hstarted⟩, ?_⟩
    rintro ⟨d, hd, hended⟩
    -- Episodes are of one group each, so the operation has ended in its own.
    obtain ⟨g, ht⟩ := h.tells hd
    have hcategory : d.category = e.category := by
      rw [← h.category_of_started hd (ht.ended_sub hended), h.category_of_started he hstarted]
    exact hnot (List.inj_on_of_nodup_map h.categories_nodup hd he hcategory ▸ hended)

/-- The active group is the current one. -/
theorem of_active {g : ActiveGroup} (hg : s.active = some g) :
    ∃ e, current = some e ∧ e.Tells permits g := by
  have hactive := h.active
  rw [hg] at hactive
  cases hactive with
  | some ht => exact ⟨_, rfl, ht⟩

/-- There is an active group as long as something runs, and it is told of what runs. -/
theorem of_running {a : Task} (ha : a ∈ running hs) :
    ∃ (e : Episode) (g : ActiveGroup), s.active = some g ∧ e.Tells permits g ∧
      a ∈ e.chronicle.running := by
  obtain ⟨e, he, ha⟩ := h.mem_running_iff.mp ha
  have hactive := h.active
  rw [Option.mem_def.mp he] at hactive
  generalize s.active = active at hactive
  cases hactive with
  | some ht => exact ⟨e, _, rfl, ht, ha⟩

/-- As many operations run as the active group says. -/
theorem running_eq : (running hs).length = (s.active.map (·.running)).getD 0 := by
  have hactive := h.active
  cases hs : s.active with
  | none =>
    rw [hs] at hactive
    cases hactive
    refine congrArg List.length (List.eq_nil_iff_forall_not_mem.mpr fun a ha => ?_)
    obtain ⟨e, ⟨⟩, -⟩ := h.mem_running_iff.mp ha
  | some g =>
    obtain ⟨e, rfl, ht⟩ := h.of_active hs
    rw [Option.map_some, Option.getD_some, ht.running_eq]
    refine List.Perm.length_eq ?_
    refine (List.perm_ext_iff_of_nodup (h.started_nodup.filter _)
      (ht.started_once.filter _)).mpr fun a => ?_
    exact h.mem_running_iff.trans (by simp [mem_running])

theorem running_length_le : (running hs).length ≤ permits := by
  rw [h.running_eq]
  cases hs : s.active with
  | none => exact Nat.zero_le _
  | some g =>
    obtain ⟨e, rfl, ht⟩ := h.of_active hs
    exact ht.held ▸ Nat.le_add_right _ _

theorem started_subset_tasks : started hs ⊆ p.tasks := by
  intro a ha
  rw [h.started_eq, List.mem_flatMap] at ha
  obtain ⟨e, he, ha⟩ := ha
  obtain ⟨g, ht⟩ := h.tells he
  rw [Plan.mem_tasks, h.category_of_started he ha, ← h.operations_eq he]
  exact (ht.place a ha).2

/-- Where a group has been entered, the operations of earlier groups have ended. -/
theorem ended_before {e : Episode} {b : Task} (he : e ∈ past ++ current.toList) (hb : b ∈ p.tasks)
    (hbefore : b.1.Before e.category) : b ∈ ended hs := by
  -- The category of an episode stands no later than the current one.
  have hplace : Category.all.idxOf e.category ≤ past.length := by
    have hm : e.category ∈ (past ++ current.toList).map Episode.category :=
      List.mem_map_of_mem he
    have hlt := List.idxOf_lt_length_iff.mpr hm
    have hone : current.toList.length ≤ 1 := by cases current <;> simp
    rw [h.categories, List.idxOf_append_of_mem hm]
    simp only [List.length_map, List.length_append] at hlt
    omega
  have hpast : b.1 ∈ past.map Episode.category := by
    refine Decidable.byContradiction fun hm => ?_
    have hlate : past.length ≤ Category.all.idxOf b.1 := by
      rw [h.categories, List.map_append, List.append_assoc, List.idxOf_append_of_notMem hm,
        List.length_map]
      exact Nat.le_add_right _ _
    exact absurd (Nat.lt_of_lt_of_le hbefore hplace) (Nat.not_lt.mpr hlate)
  obtain ⟨d, hd, hdc⟩ := List.mem_map.mp hpast
  have hd' : d ∈ past ++ current.toList := List.mem_append_left _ hd
  rw [h.ended_eq, List.mem_flatMap]
  refine ⟨d, hd', (h.finished d hd).ended_perm.mem_iff.mpr ?_⟩
  refine List.mem_map.mpr ⟨b.2, List.mem_range.mpr ?_, by rw [hdc]⟩
  rw [h.operations_eq hd', hdc]
  exact Plan.mem_tasks.mp hb

/-- What is not over goes on. -/
theorem moves (hp : 0 < permits) (hnot : s.isOver = false) :
    ∃ event t, s.step permits event = some t := by
  have hactive := h.active
  cases hs : s.active with
  | none =>
    cases ha : s.ahead with
    | nil => simp [isOver, hs, ha] at hnot
    | cons group ahead =>
      by_cases hempty : group.2.isEmpty
      · exact ⟨.enter, { s with ahead }, by simp [Schedule.step, hs, ha, hempty]⟩
      · exact ⟨.enter, { s with active := some (.enter permits group.1 group.2), ahead },
          by simp [Schedule.step, hs, ha, hempty]⟩
  | some g =>
    by_cases ho : g.isOver
    · exact ⟨.leave, _, by rw [Schedule.step, hs, Option.filter_some, if_pos ho, Option.map_some]⟩
    · rw [hs] at hactive
      cases hactive with
      | some ht =>
        obtain ⟨i, ⟨k, hk⟩ | hk⟩ := ht.moves hp (ht.unfinished ho)
        · exact ⟨.start i, _, by rw [Schedule.step, hs, Option.bind_some, hk, Option.map_some]⟩
        · obtain ⟨k, hk⟩ := hk .success
          exact ⟨.finish i .success, _,
            by rw [Schedule.step, hs, Option.bind_some, hk, Option.map_some]⟩

/-- Once over, every episode is of the past, and no group is left. -/
theorem of_isOver (ho : s.isOver = true) : current = none ∧ p.groups = past.map Episode.group := by
  have hactive := h.active
  have hgroups := h.groups
  obtain ⟨hnone, hnil⟩ := Bool.and_eq_true_iff.mp ho
  rw [Option.isNone_iff_eq_none.mp hnone] at hactive
  cases hactive
  refine ⟨rfl, ?_⟩
  simpa [List.isEmpty_iff.mp hnil] using hgroups

/-- **Once over**, every operation of the plan has started once and ended once. -/
theorem perm (ho : s.isOver = true) : (started hs).Perm p.tasks ∧ (ended hs).Perm p.tasks := by
  obtain ⟨rfl, hgroups⟩ := h.of_isOver ho
  have htasks : p.tasks = past.flatMap Episode.tasks := by
    rw [Plan.tasks, hgroups, List.flatMap_map]
    rfl
  rw [h.started_eq, h.ended_eq, htasks, Option.toList_none, List.append_nil]
  exact ⟨.flatMap_left _ fun e he => (h.finished e he).started_perm,
    .flatMap_left _ fun e he => (h.finished e he).ended_perm⟩

end Explained

/-- In an execution that is over nothing has ended twice. -/
theorem Runs.ended_nodup {permits : Nat} {p : Plan} {now : Instant} {hs : Chronicle} {s : Schedule}
    (run : Runs permits (.ofPlan p now) hs s) (hover : s.isOver = true) : (ended hs).Nodup := by
  obtain ⟨past, current, h⟩ := run.explained
  obtain ⟨hstarted, hended⟩ := h.perm hover
  exact (hended.trans hstarted.symm).nodup_iff.mpr h.started_nodup

end Schedule

end Inspection
