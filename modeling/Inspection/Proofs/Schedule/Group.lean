import Inspection.Schedule
import Mathlib.Data.List.Nodup
import Mathlib.Data.List.Perm.Subperm

/-!
# Schedule — a group while it is executed

What happens while a plan is executed is told by a *chronicle*: which operations started and which
ended, and how, one after another.  A group is as the chronicle tells (`ActiveGroup.Told`) when the
phase of each of its operations can be read off the chronicle, none started or ended twice, and the
permits that nobody holds are those that no operation in between has.

* `Told.start`, `Told.finish`: a group stays as it is told, with one thing more to tell.
* `Told.moves`: as long as some operation has not ended, one of them can start or end.
* `Told.perm`: once there are as many ends as operations, each started and ended once.
-/

namespace Inspection

/-- An operation of a plan: its category, and its place in the group. -/
abbrev Task := Category × Nat

/-- Something that happens to an operation. -/
inductive Happening
  | started (task : Task)
  | ended (task : Task) (outcome : Outcome)
  deriving DecidableEq

/-- What happened, one thing after another. -/
abbrev Chronicle := List Happening

namespace Chronicle

/-- The operations that have started, in that order. -/
def started (hs : Chronicle) : List Task :=
  hs.filterMap fun
    | .started a => some a
    | .ended .. => none

/-- The operations that have ended, in that order, with how they did. -/
def endings (hs : Chronicle) : List (Task × Outcome) :=
  hs.filterMap fun
    | .started _ => none
    | .ended a x => some (a, x)

/-- The operations that have ended, in that order. -/
def ended (hs : Chronicle) : List Task := (endings hs).map (·.1)

/-- The operations that have started and not ended. -/
def running (hs : Chronicle) : List Task := (started hs).filter (· ∉ ended hs)

/-- What an operation does, as far as a chronicle tells. -/
def phase (hs : Chronicle) (a : Task) : Phase :=
  match (endings hs).find? (·.1 = a) with
  | some e => .ended e.2
  | none => if a ∈ started hs then .running else .waiting

section

variable (hs more : Chronicle) (a : Task) (x : Outcome)

@[simp] theorem started_nil : started [] = [] := rfl

@[simp] theorem endings_nil : endings [] = [] := rfl

@[simp] theorem started_append : started (hs ++ more) = started hs ++ started more :=
  List.filterMap_append

@[simp] theorem endings_append : endings (hs ++ more) = endings hs ++ endings more :=
  List.filterMap_append

@[simp] theorem ended_append : ended (hs ++ more) = ended hs ++ ended more := by
  simp [ended]

@[simp] theorem started_started : started [.started a] = [a] := rfl

@[simp] theorem started_ended : started [.ended a x] = [] := rfl

@[simp] theorem endings_started : endings [.started a] = [] := rfl

@[simp] theorem endings_ended : endings [.ended a x] = [(a, x)] := rfl

@[simp] theorem ended_nil : ended [] = [] := rfl

@[simp] theorem ended_started : ended [.started a] = [] := rfl

@[simp] theorem ended_ended : ended [.ended a x] = [a] := rfl

end

section

variable {hs : Chronicle} {a b : Task} {x : Outcome}

theorem mem_running : a ∈ running hs ↔ a ∈ started hs ∧ a ∉ ended hs := by
  simp [running]

theorem mem_started : a ∈ started hs ↔ .started a ∈ hs := by
  unfold started
  rw [List.mem_filterMap]
  constructor
  · rintro ⟨h, hm, he⟩
    cases h with
    | started b => cases he; exact hm
    | ended b y => cases he
  · intro hm
    exact ⟨_, hm, rfl⟩

theorem mem_endings : (a, x) ∈ endings hs ↔ .ended a x ∈ hs := by
  unfold endings
  rw [List.mem_filterMap]
  constructor
  · rintro ⟨h, hm, he⟩
    cases h with
    | started b => cases he
    | ended b y => cases he; exact hm
  · intro hm
    exact ⟨_, hm, rfl⟩

theorem find?_endings_eq_none : (endings hs).find? (·.1 = a) = none ↔ a ∉ ended hs := by
  rw [List.find?_eq_none, ended, List.mem_map]
  constructor
  · rintro hn ⟨e, he, rfl⟩
    exact hn e he (decide_eq_true rfl)
  · intro hn e he ha
    exact hn ⟨e, he, of_decide_eq_true ha⟩

theorem phase_of_not_ended (h : a ∉ ended hs) :
    phase hs a = if a ∈ started hs then .running else .waiting := by
  rw [phase, find?_endings_eq_none.mpr h]

theorem phase_of_ended (h : a ∈ ended hs) : ∃ x, phase hs a = .ended x := by
  unfold phase
  cases hf : (endings hs).find? (·.1 = a) with
  | none => exact absurd h (find?_endings_eq_none.mp hf)
  | some e => exact ⟨e.2, rfl⟩

theorem phase_eq_waiting : phase hs a = .waiting ↔ a ∉ started hs ∧ a ∉ ended hs := by
  by_cases he : a ∈ ended hs
  · obtain ⟨x, hx⟩ := phase_of_ended he
    simp [hx, he]
  · rw [phase_of_not_ended he]
    by_cases hs : a ∈ started hs <;> simp [hs, he]

theorem phase_eq_running : phase hs a = .running ↔ a ∈ started hs ∧ a ∉ ended hs := by
  by_cases he : a ∈ ended hs
  · obtain ⟨x, hx⟩ := phase_of_ended he
    simp [hx, he]
  · rw [phase_of_not_ended he]
    by_cases hs : a ∈ started hs <;> simp [hs, he]

/-- A start shows in the phase of what starts, and of nothing else. -/
theorem phase_started (h : phase hs a = .waiting) :
    phase (hs ++ [.started a]) b = if b = a then .running else phase hs b := by
  by_cases e : b = a
  · subst e
    rw [if_pos rfl, phase_eq_running]
    simp [phase_eq_waiting.mp h]
  · simp [phase, e]

/-- An end shows in the phase of what ends, and of nothing else. -/
theorem phase_ended (h : phase hs a = .running) :
    phase (hs ++ [.ended a x]) b = if b = a then .ended x else phase hs b := by
  by_cases e : b = a
  · have hn := find?_endings_eq_none.mpr (phase_eq_running.mp h).2
    subst e
    simp [phase, hn]
  · simp [phase, e, Ne.symm e]

end

end Chronicle

namespace ActiveGroup

open Chronicle

/-! ### What a group does -/

theorem start_eq_some {g k : ActiveGroup} {i : Nat} : g.start i = some k ↔
    ∃ o free, g.tasks[i]? = some (o, .waiting) ∧ g.free = free + 1 ∧
      k = { g with tasks := g.tasks.set i (o, .running), free } := by
  unfold start
  split
  next o free ho hf =>
    constructor
    · rintro ⟨⟩
      exact ⟨o, free, ho, hf, rfl⟩
    · rintro ⟨o', free', ho', hf', rfl⟩
      rw [ho] at ho'
      rw [hf] at hf'
      cases ho'
      cases hf'
      rfl
  next hno =>
    constructor
    · rintro ⟨⟩
    · rintro ⟨o, free, ho, hf, -⟩
      exact absurd hf (hno o free ho)

theorem finish_eq_some {g k : ActiveGroup} {i : Nat} {x : Outcome} : g.finish i x = some k ↔
    ∃ o, g.tasks[i]? = some (o, .running) ∧
      k = { g with
        tasks := g.tasks.set i (o, .ended x), free := g.free + 1, ends := g.ends ++ [(o.label, x)] } := by
  unfold finish
  split
  next o ho =>
    constructor
    · rintro ⟨⟩
      exact ⟨o, ho, rfl⟩
    · rintro ⟨o', ho', rfl⟩
      rw [ho] at ho'
      cases ho'
      rfl
  next hno =>
    constructor
    · rintro ⟨⟩
    · rintro ⟨o, ho, -⟩
      exact absurd ho (hno o)

theorem start_running {g k : ActiveGroup} {i : Nat} (hk : g.start i = some k) :
    k.running = g.running + 1 := by
  obtain ⟨o, free, ht, -, rfl⟩ := start_eq_some.mp hk
  obtain ⟨hi, hti⟩ := List.getElem?_eq_some_iff.mp ht
  simp [running, List.countP_set, hi, hti]

theorem finish_running {g k : ActiveGroup} {i : Nat} {x : Outcome} (hk : g.finish i x = some k) :
    k.running + 1 = g.running := by
  obtain ⟨o, ht, rfl⟩ := finish_eq_some.mp hk
  obtain ⟨hi, hti⟩ := List.getElem?_eq_some_iff.mp ht
  have hpos : 0 < g.running := List.countP_pos_iff.mpr ⟨_, List.mem_of_getElem? ht, by simp⟩
  have hless : (g.tasks.set i (o, .ended x)).countP (·.2 = .running) = g.running - 1 := by
    simp [running, List.countP_set, hi, hti]
  calc _ = g.running - 1 + 1 := congrArg (· + 1) hless
    _ = g.running := Nat.sub_add_cancel hpos

/-- What an operation is told as, by its place in a group. -/
def labelAt (os : List Operation) (i : Nat) : String := (os[i]?.map (·.label)).getD ""

/-- A group is as a chronicle tells that has nothing but that group in it. -/
structure Told (permits : Nat) (c : Category) (os : List Operation) (hs : Chronicle)
    (g : ActiveGroup) : Prop where
  category : g.category = c
  length : g.tasks.length = os.length
  task : ∀ i, g.tasks[i]? = os[i]?.map fun o => (o, phase hs (c, i))
  place : ∀ a ∈ started hs, a.1 = c ∧ a.2 < os.length
  started_once : (started hs).Nodup
  ended_once : (ended hs).Nodup
  ended_sub : ended hs ⊆ started hs
  /-- Every start takes a permit, and every end gives one back. -/
  free : g.free + (started hs).length = permits + (ended hs).length
  held : g.running + g.free = permits
  ends : g.ends = (endings hs).map fun e => (labelAt os e.1.2, e.2)

namespace Told

theorem enter (permits : Nat) (c : Category) (os : List Operation) :
    Told permits c os [] (.enter permits c os) where
  category := rfl
  length := List.length_map _
  task i := by simp [ActiveGroup.enter, phase]
  place := by simp
  started_once := List.nodup_nil
  ended_once := List.nodup_nil
  ended_sub := List.Subset.refl _
  free := rfl
  held := by simp [ActiveGroup.enter, ActiveGroup.running]
  ends := rfl

variable {permits : Nat} {c : Category} {os : List Operation} {hs : Chronicle}
  {g : ActiveGroup} (h : Told permits c os hs g)
include h

/-- The operation at a place, and its phase. -/
theorem task_eq_some {i : Nat} {o : Operation} {ph : Phase} (ht : g.tasks[i]? = some (o, ph)) :
    os[i]? = some o ∧ phase hs (c, i) = ph := by
  rw [h.task, Option.map_eq_some_iff] at ht
  obtain ⟨o', ho, he⟩ := ht
  cases he
  exact ⟨ho, rfl⟩

theorem start {k : ActiveGroup} {i : Nat} (hk : g.start i = some k) :
    Told permits c os (hs ++ [.started (c, i)]) k := by
  have hheld : k.running + k.free = permits := by
    rw [← h.held, start_running hk, ← start_free hk]
    omega
  obtain ⟨o, free, ht, hf, rfl⟩ := start_eq_some.mp hk
  obtain ⟨ho, hph⟩ := h.task_eq_some ht
  obtain ⟨hns, hne⟩ := phase_eq_waiting.mp hph
  have hi : i < os.length := (List.getElem?_eq_some_iff.mp ho).1
  refine ⟨h.category, ?_, fun j => ?_, fun a ha => ?_, ?_, ?_, ?_, ?_, hheld, ?_⟩
  · rw [List.length_set, h.length]
  · rw [phase_started hph, List.getElem?_set]
    by_cases e : j = i
    · subst e
      rw [if_pos rfl, if_pos (h.length ▸ hi), if_pos rfl, ho, Option.map_some]
    · simp [Ne.symm e, e, h.task j]
  · rw [started_append, List.mem_append] at ha
    rcases ha with ha | ha
    · exact h.place a ha
    · rw [List.mem_singleton.mp ha]
      exact ⟨rfl, hi⟩
  · rw [started_append, started_started, List.nodup_append]
    refine ⟨h.started_once, List.nodup_singleton _, fun a ha b hb e => hns ?_⟩
    rwa [← List.mem_singleton.mp hb, ← e]
  · simpa using h.ended_once
  · simpa using List.Subset.trans h.ended_sub (List.subset_append_left _ _)
  · have := h.free
    simp only [started_append, started_started, ended_append, ended_started, List.length_append,
      List.length_singleton, List.append_nil]
    omega
  · simpa using h.ends

theorem finish {k : ActiveGroup} {i : Nat} {x : Outcome} (hk : g.finish i x = some k) :
    Told permits c os (hs ++ [.ended (c, i) x]) k := by
  have hheld : k.running + k.free = permits := by
    rw [← h.held, ← finish_running hk, finish_free hk]
    omega
  obtain ⟨o, ht, rfl⟩ := finish_eq_some.mp hk
  obtain ⟨ho, hph⟩ := h.task_eq_some ht
  obtain ⟨hst, hne⟩ := phase_eq_running.mp hph
  have hi : i < os.length := (List.getElem?_eq_some_iff.mp ho).1
  refine ⟨h.category, ?_, fun j => ?_, ?_, ?_, ?_, ?_, ?_, hheld, ?_⟩
  · rw [List.length_set, h.length]
  · rw [phase_ended hph, List.getElem?_set]
    by_cases e : j = i
    · subst e
      rw [if_pos rfl, if_pos (h.length ▸ hi), if_pos rfl, ho, Option.map_some]
    · simp [Ne.symm e, e, h.task j]
  · simpa using h.place
  · simpa using h.started_once
  · rw [ended_append, ended_ended, List.nodup_append]
    refine ⟨h.ended_once, List.nodup_singleton _, fun a ha b hb e => hne ?_⟩
    rwa [← List.mem_singleton.mp hb, ← e]
  · simpa [hst] using h.ended_sub
  · have := h.free
    simp only [started_append, started_ended, ended_append, ended_ended, List.length_append,
      List.length_singleton, List.append_nil]
    omega
  · simp [h.ends, labelAt, ho]

/-- Permits are either free or held by an operation in between. -/
theorem running_add_free : hs.running.length + g.free = permits := by
  have hsplit : hs.running.length + (ended hs).length = (started hs).length := by
    have hended : ((started hs).filter (· ∈ ended hs)).Perm (ended hs) := by
      refine (List.perm_ext_iff_of_nodup (h.started_once.filter _) h.ended_once).mpr fun a => ?_
      rw [List.mem_filter, decide_eq_true_eq]
      exact ⟨And.right, fun ha => ⟨h.ended_sub ha, ha⟩⟩
    rw [← hended.length_eq, Chronicle.running, Nat.add_comm]
    simpa using (List.filter_append_perm (· ∈ ended hs) (started hs)).length_eq
  have := h.free
  omega

/-- What runs in the group is what the chronicle tells. -/
theorem running_eq : g.running = hs.running.length := by
  have := h.held
  have := h.running_add_free
  omega

/-- Only operations of the group start. -/
theorem started_subset_tasks : started hs ⊆ (List.range os.length).map (c, ·) := by
  intro a ha
  obtain ⟨hc, hi⟩ := h.place a ha
  exact List.mem_map.mpr ⟨a.2, List.mem_range.mpr hi, by rw [← hc]⟩

theorem ended_subset_tasks : ended hs ⊆ (List.range os.length).map (c, ·) :=
  List.Subset.trans h.ended_sub h.started_subset_tasks

/-- What runs can end in whichever way. -/
theorem finishes {a : Task} (ha : a ∈ hs.running) (x : Outcome) : ∃ k, g.finish a.2 x = some k := by
  obtain ⟨hst, hne⟩ := mem_running.mp ha
  obtain ⟨rfl, hi⟩ := h.place a hst
  have ht : g.tasks[a.2]? = some (os[a.2], .running) := by
    rw [h.task, List.getElem?_eq_getElem hi, Option.map_some, phase_eq_running.mpr ⟨hst, hne⟩]
  exact ⟨_, finish_eq_some.mpr ⟨_, ht, rfl⟩⟩

/-- **Nothing gets stuck.**  As long as some operation has not ended, one can start, or one can end
in whichever way. -/
theorem moves (hp : 0 < permits) (hn : ∃ i < os.length, (c, i) ∉ ended hs) :
    ∃ i, (∃ k, g.start i = some k) ∨ ∀ x, ∃ k, g.finish i x = some k := by
  by_cases hr : hs.running = []
  · -- All that has started has ended, so all permits are free.
    obtain ⟨i, hi, hne⟩ := hn
    have hns : (c, i) ∉ started hs := by
      intro hst
      have hm := mem_running.mpr ⟨hst, hne⟩
      rw [hr] at hm
      cases hm
    have hfree := h.running_add_free
    rw [hr, List.length_nil, Nat.zero_add] at hfree
    obtain ⟨free, hf⟩ := Nat.exists_eq_succ_of_ne_zero (Nat.pos_iff_ne_zero.mp (hfree ▸ hp))
    have ht : g.tasks[i]? = some (os[i], .waiting) := by
      rw [h.task, List.getElem?_eq_getElem hi, Option.map_some, phase_eq_waiting.mpr ⟨hns, hne⟩]
    exact ⟨i, .inl ⟨_, start_eq_some.mpr ⟨_, free, ht, hf, rfl⟩⟩⟩
  · obtain ⟨a, ha⟩ := List.exists_mem_of_ne_nil _ hr
    exact ⟨a.2, .inr (h.finishes ha)⟩

theorem isOver_iff : g.isOver = true ↔ (ended hs).length = os.length := by
  rw [isOver, decide_eq_true_eq, h.length, h.ends, List.length_map, ended, List.length_map]

/-- As long as the group is not over, some operation has not ended. -/
theorem unfinished (ho : ¬g.isOver = true) : ∃ i < os.length, (c, i) ∉ ended hs := by
  refine Decidable.byContradiction fun hn => ho (h.isOver_iff.mpr ?_)
  have hall : (List.range os.length).map (c, ·) ⊆ ended hs := by
    intro a ha
    obtain ⟨i, hi, rfl⟩ := List.mem_map.mp ha
    exact Decidable.byContradiction fun hne => hn ⟨i, List.mem_range.mp hi, hne⟩
  have hnodup : ((List.range os.length).map (c, ·)).Nodup :=
    List.nodup_range.map fun i j e => (Prod.mk.inj e).2
  have hge := (hnodup.subperm hall).length_le
  have hle := (h.ended_once.subperm h.ended_subset_tasks).length_le
  simp only [List.length_map, List.length_range] at hge hle
  omega

/-- **Once over**, every operation of the group has started once and ended once. -/
theorem perm (ho : g.isOver = true) :
    (started hs).Perm ((List.range os.length).map (c, ·)) ∧
      (ended hs).Perm ((List.range os.length).map (c, ·)) := by
  have hlength := h.isOver_iff.mp ho
  have hended := (h.ended_once.subperm h.ended_subset_tasks).perm_of_length_le
    (by simp [hlength])
  refine ⟨(h.started_once.subperm h.started_subset_tasks).perm_of_length_le ?_, hended⟩
  rw [← hended.length_eq]
  exact (h.ended_once.subperm h.ended_sub).length_le

end Told

end ActiveGroup

end Inspection
