import Inspection.Proofs.Execution.Endings
import Inspection.Proofs.Schedule.Chronicle

/-!
# Schedule — one operation at a time

Operations that take *turns*: each takes a permit, runs and gives it back before the next one
starts.  Running a plan so is one of the executions that a schedule allows, whatever the order
within groups and however the operations end.

* `runs_group`, `runs_groups`: so it is for a group, and for group after group.
* `exists_completes`: operations can end in every way, and in every order within their groups.
* `runArranged_completes`: the report of a run in an arrangement is that of an execution.
-/

namespace Inspection

/-- The operations of a group with how each ends, the ends being given by group and place. -/
def Plan.ended (p : Plan) (outcome : Task → Outcome) (c : Category) : List (Operation × Outcome) :=
  (p.group c).zipIdx.map fun (o, i) => (o, outcome (c, i))

theorem Plan.map_ended (p : Plan) (outcome : Task → Outcome) (c : Category) :
    (p.ended outcome c).map (·.1) = p.group c := by
  simp [Plan.ended, Function.comp_def]

namespace Schedule

open Execution

/-- The operations of a group in the order of their turns, by their places, and how each ends. -/
abbrev Turns := List (Nat × Outcome)

namespace Turns

/-- What is told of operations that take turns. -/
def chronicle (c : Category) (l : Turns) : Chronicle :=
  l.flatMap fun (i, x) => [.started (c, i), .ended (c, i) x]

/-- The operations of a group that take turns, with how each ends. -/
def ended (os : List Operation) (l : Turns) : List (Operation × Outcome) :=
  l.filterMap fun (i, x) => os[i]?.map (·, x)

/-- Every operation of a group takes one turn. -/
def IsFair (os : List Operation) (l : Turns) : Prop := (l.map (·.1)).Perm (List.range os.length)

/-- Turns in an order, each of which ends as is given. -/
def inOrder (outcome : Task → Outcome) (c : Category) (order : List Nat) : Turns :=
  order.map fun i => (i, outcome (c, i))

theorem ended_cons {os : List Operation} {o : Operation} {i : Nat} (h : os[i]? = some o)
    (x : Outcome) (l : Turns) : ended os ((i, x) :: l) = (o, x) :: ended os l := by
  simp [ended, h]

theorem map_inOrder (outcome : Task → Outcome) (c : Category) (order : List Nat) :
    (inOrder outcome c order).map (·.1) = order := by
  simp [inOrder, Function.comp_def]

/-- Turns in the order of the group are those of its operations. -/
theorem ended_range (p : Plan) (outcome : Task → Outcome) (c : Category) :
    ended (p.group c) (inOrder outcome c (List.range (p.group c).length)) = p.ended outcome c := by
  have hrange : List.range (p.group c).length = (p.group c).zipIdx.map Prod.snd := by
    rw [List.zipIdx_map_snd, List.range_eq_range']
  rw [ended, inOrder, hrange, List.map_map, List.filterMap_map, Plan.ended]
  refine (List.filterMap_congr fun x hx => ?_).trans (congrFun List.filterMap_eq_map _)
  simp [List.mem_zipIdx_iff_getElem?.mp hx]

/-- Fair turns that end as is given are of the operations of the group, with how each ends. -/
theorem IsFair.ended_perm {p : Plan} {outcome : Task → Outcome} {c : Category} {l : Turns}
    (fair : l.IsFair (p.group c)) (ends : ∀ turn ∈ l, turn.2 = outcome (c, turn.1)) :
    (p.ended outcome c).Perm (ended (p.group c) l) := by
  have hl : l = inOrder outcome c (l.map (·.1)) := by
    rw [inOrder, List.map_map]
    refine (List.map_id _).symm.trans (List.map_congr_left fun turn hm => ?_)
    exact Prod.ext rfl (ends turn hm)
  rw [← ended_range, hl]
  exact (fair.symm.map _).filterMap _

theorem endings_chronicle (c : Category) (l : Turns) :
    (chronicle c l).endings = l.map fun (i, x) => ((c, i), x) := by
  induction l with
  | nil => rfl
  | cons turn l ih =>
    rw [chronicle, List.flatMap_cons, Chronicle.endings_append, List.map_cons]
    exact congrArg (((c, turn.1), turn.2) :: ·) ih

theorem IsFair.length_ended {os : List Operation} {l : Turns} (h : IsFair os l) :
    (ended os l).length = os.length := by
  have hsome : ∀ turn ∈ l, (os[turn.1]?.map (·, turn.2)).isSome = true := by
    intro turn hm
    have hlt := List.mem_range.mp (h.mem_iff.mp (List.mem_map_of_mem hm))
    simp [hlt]
  rw [ended, List.length_filterMap_eq_countP, List.countP_eq_length.mpr hsome,
    ← List.length_map (f := (·.1)), h.length_eq, List.length_range]

end Turns

/-- A group after an operation has taken its turn. -/
def turned (g : ActiveGroup) (o : Operation) (i : Nat) (x : Outcome) : ActiveGroup :=
  { g with tasks := g.tasks.set i (o, .ended x), ends := g.ends ++ [(o.label, x)] }

variable {permits : Nat}

/-- An operation that waits takes its turn, if a permit is free, and ends in whichever way. -/
theorem runs_turn {s : Schedule} {g : ActiveGroup} (hg : s.active = some g) (hfree : 0 < g.free)
    {o : Operation} {i : Nat} (hwaiting : g.tasks[i]? = some (o, .waiting)) (x : Outcome) :
    Runs permits s [.started (g.category, i), .ended (g.category, i) x]
      { s with active := some (turned g o i x) } := by
  obtain ⟨free, hf⟩ := Nat.exists_eq_succ_of_ne_zero (Nat.pos_iff_ne_zero.mp hfree)
  have hi : i < g.tasks.length := (List.getElem?_eq_some_iff.mp hwaiting).1
  have hstart : s.step permits (.start i) =
      some { s with active := some { g with tasks := g.tasks.set i (o, .running), free } } := by
    rw [step, hg, Option.bind_some, ActiveGroup.start_eq_some.mpr ⟨o, free, hwaiting, hf, rfl⟩,
      Option.map_some]
  have hrunning : (g.tasks.set i (o, .running))[i]? = some (o, .running) :=
    List.getElem?_set_self hi
  have hfinish : ActiveGroup.finish { g with tasks := g.tasks.set i (o, .running), free } i x =
      some _ := ActiveGroup.finish_eq_some.mpr ⟨o, hrunning, rfl⟩
  have hstarted := Runs.refl.more hstart
  rw [told_start hg] at hstarted
  refine hstarted.more (e := .finish i x) ?_
  rw [step, Option.bind_some, hfinish, Option.map_some, List.set_set, turned, hf]

/-- Operations that wait take their turns. -/
theorem runs_group {s : Schedule} {g : ActiveGroup} (hg : s.active = some g) (hfree : 0 < g.free)
    {os : List Operation} {l : Turns} (hnodup : (l.map (·.1)).Nodup)
    (hwaiting : ∀ turn ∈ l, ∃ o, os[turn.1]? = some o ∧ g.tasks[turn.1]? = some (o, .waiting)) :
    ∃ k, Runs permits s (l.chronicle g.category) { s with active := some k } ∧
      k.category = g.category ∧ k.tasks.length = g.tasks.length ∧
        k.ends = g.ends ++ (l.ended os).map Operation.told := by
  induction l generalizing s g with
  | nil =>
    refine ⟨g, ?_, rfl, rfl, (List.append_nil _).symm⟩
    rw [← hg]
    exact .refl
  | cons turn l ih =>
    obtain ⟨i, x⟩ := turn
    obtain ⟨hi, hrest⟩ := List.nodup_cons.mp hnodup
    obtain ⟨⟨o, ho, hwaits⟩, hothers⟩ := List.forall_mem_cons.mp hwaiting
    have hstill : ∀ turn ∈ l, ∃ o', os[turn.1]? = some o' ∧
        (turned g o i x).tasks[turn.1]? = some (o', .waiting) := by
      intro turn hm
      have hne : i ≠ turn.1 := fun e => hi (List.mem_map.mpr ⟨turn, hm, e.symm⟩)
      rw [turned, List.getElem?_set_ne hne]
      exact hothers turn hm
    obtain ⟨k, hruns, hc, hlength, hends⟩ := ih
      (s := { s with active := some (turned g o i x) }) rfl hfree hrest hstill
    refine ⟨k, (runs_turn hg hfree hwaits x).trans hruns, hc, ?_, ?_⟩
    · rw [hlength, turned, List.length_set]
    · rw [hends, turned, List.append_assoc, Turns.ended_cons ho]
      rfl

/-- And so group after group, each of which is reported. -/
theorem runs_groups (hp : 0 < permits) {turns : Category → Turns}
    {gs : List (Category × List Operation)} (fair : ∀ g ∈ gs, (turns g.1).IsFair g.2)
    {s : Schedule} (hnone : s.active = none) (hahead : s.ahead = gs) :
    ∃ t, Runs permits s (gs.flatMap fun g => (turns g.1).chronicle g.1) t ∧ t.isOver = true ∧
      t.report = s.report.ofEnds
        (gs.map fun g => (g.1, ((turns g.1).ended g.2).map Operation.told)) := by
  induction gs generalizing s with
  | nil => exact ⟨s, .refl, by simp [isOver, hnone, hahead], rfl⟩
  | cons g gs ih =>
    obtain ⟨c, os⟩ := g
    obtain ⟨hturns, hothers⟩ := List.forall_mem_cons.mp fair
    rw [List.flatMap_cons, List.map_cons, Report.ofEnds, List.foldl_cons]
    cases hempty : os.isEmpty with
    | true =>
      obtain rfl := List.isEmpty_iff.mp hempty
      have hnil : turns c = [] := List.map_eq_nil_iff.mp hturns.eq_nil
      have henter : s.step permits .enter = some { s with ahead := gs } := by
        simp [step, hnone, hahead]
      obtain ⟨t, hruns, hover, ht⟩ := ih hothers (s := { s with ahead := gs }) hnone rfl
      refine ⟨t, ?_, hover, ?_⟩
      · rw [hnil]
        exact (Runs.refl.more henter).trans hruns
      · rw [hnil]
        exact ht
    | false =>
      have henter : s.step permits .enter =
          some { s with active := some (.enter permits c os), ahead := gs } := by
        simp [step, hnone, hahead, hempty]
      have hnodup : ((turns c).map (·.1)).Nodup := hturns.nodup_iff.mpr List.nodup_range
      have hplaces : ∀ turn ∈ turns c, ∃ o, os[turn.1]? = some o ∧
          (ActiveGroup.enter permits c os).tasks[turn.1]? = some (o, .waiting) := by
        intro turn hm
        have hi : turn.1 < os.length :=
          List.mem_range.mp (hturns.mem_iff.mp (List.mem_map_of_mem hm))
        exact ⟨os[turn.1], List.getElem?_eq_getElem hi, by simp [ActiveGroup.enter, hi]⟩
      obtain ⟨k, hruns, hc, hlength, hends⟩ := runs_group
        (s := { s with active := some (.enter permits c os), ahead := gs }) rfl hp hnodup hplaces
      have hover : k.isOver = true := by
        rw [ActiveGroup.isOver, decide_eq_true_eq, hends, hlength]
        simp [ActiveGroup.enter, hturns.length_ended]
      have hleave : Schedule.step permits { s with active := some k, ahead := gs } .leave =
          some ⟨s.report.insert c
            (GroupStatus.ofOutcomes (((turns c).ended os).map Operation.told)), none, gs⟩ := by
        rw [step, Option.filter_some, if_pos hover, Option.map_some, hc, hends]
        rfl
      have hgroup := ((Runs.refl.more henter).trans hruns).more hleave
      obtain ⟨t, hrest, hdone, ht⟩ := ih hothers (s := ⟨_, none, gs⟩) rfl rfl
      have hsome : (((turns c).ended os).map Operation.told).isEmpty = false := by
        rw [Bool.eq_false_iff, ne_eq, List.isEmpty_iff_length_eq_zero, List.length_map,
          hturns.length_ended, ← List.isEmpty_iff_length_eq_zero, hempty]
        exact Bool.false_ne_true
      refine ⟨t, ?_, hdone, ?_⟩
      · simpa [told, ActiveGroup.enter] using hgroup.trans hrest
      · rw [ht, hsome]
        rfl

variable (p : Plan) (now : Instant) (wanted : Nat)

/-- The operations of a plan can take turns, and then end as they do. -/
theorem exists_runs_of_turns {turns : Category → Turns}
    (fair : ∀ c, (turns c).IsFair (p.group c)) :
    ∃ hs s, Runs (Execution.permits wanted) (.ofPlan p now) hs s ∧ s.isOver = true ∧
      hs.endings = Category.all.flatMap (fun c => (turns c).map fun (i, x) => ((c, i), x)) ∧
      s.report = (Report.start p.inspectionId now).ofEnds
        (p.groups.map fun g => (g.1, ((turns g.1).ended g.2).map Operation.told)) := by
  have hp : 0 < Execution.permits wanted := Nat.le_max_right _ _
  have hfair : ∀ g ∈ p.groups, (turns g.1).IsFair g.2 := by
    rintro ⟨c, os⟩ hg
    exact Plan.eq_group_of_mem hg ▸ fair c
  obtain ⟨s, run, hover, hreport⟩ := runs_groups hp hfair (s := .ofPlan p now) rfl rfl
  refine ⟨_, s, run, hover, ?_, hreport⟩
  rw [Chronicle.endings, List.filterMap_flatMap, Plan.groups, List.flatMap_map]
  exact congrArg (List.flatMap · _) (funext fun c => (turns c).endings_chronicle c)

/-- **Everything can come about**: an operation can end in every way, and the operations of a group
in every order. -/
theorem exists_completes (outcome : Task → Outcome) {order : Category → List Nat}
    (every : ∀ c, (order c).Perm (List.range (p.group c).length)) :
    ∃ hs s, Completes wanted p now outcome hs s ∧
      hs.ended = Category.all.flatMap fun c => (order c).map (c, ·) := by
  have fair : ∀ c, (Turns.inOrder outcome c (order c)).IsFair (p.group c) := by
    intro c
    rw [Turns.IsFair, Turns.map_inOrder]
    exact every c
  obtain ⟨hs, s, run, hover, hendings, -⟩ := exists_runs_of_turns p now wanted fair
  refine ⟨hs, s, ⟨run, hover, fun e he => ?_⟩, ?_⟩
  · rw [hendings, List.mem_flatMap] at he
    obtain ⟨c, -, he⟩ := he
    simp only [Turns.inOrder, List.map_map, List.mem_map] at he
    obtain ⟨i, -, rfl⟩ := he
    rfl
  · rw [Chronicle.ended, hendings, List.map_flatMap]
    simp [Turns.inOrder, Function.comp_def]

/-- An arrangement of operations, with the places at which they stand. -/
theorem exists_places {os arranged : List Operation} (h : arranged.Perm os) :
    ∃ l : List (Operation × Nat), l.map (·.1) = arranged ∧
      (l.map (·.2)).Perm (List.range os.length) ∧ ∀ x ∈ l, os[x.2]? = some x.1 := by
  have hperm : arranged.Perm (os.zipIdx.map Prod.fst) := by rwa [List.zipIdx_map_fst]
  have hsplit := congrFun₂ (List.eq_map_comp_perm (Prod.fst : Operation × Nat → Operation))
    arranged os.zipIdx
  obtain ⟨l, rfl, hl⟩ := hsplit.mpr hperm
  refine ⟨l, rfl, ?_, fun x hx => List.mem_zipIdx_iff_getElem?.mp (hl.mem_iff.mp hx)⟩
  rw [List.range_eq_range', ← List.zipIdx_map_snd]
  exact hl.map _

/-- Operations of a group that end, in some order, take turns. -/
theorem exists_turns {os : List Operation} {ended : List (Operation × Outcome)}
    (h : (ended.map (·.1)).Perm os) : ∃ l : Turns, l.IsFair os ∧ l.ended os = ended := by
  obtain ⟨places, hplaces, hperm, hat⟩ := exists_places h
  have hlength : places.length = ended.length := by simpa using congrArg List.length hplaces
  refine ⟨(places.map (·.2)).zip (ended.map (·.2)), ?_, ?_⟩
  · rw [Turns.IsFair, List.map_fst_zip (by simp [hlength])]
    exact hperm
  · clear h hperm
    induction places generalizing ended with
    | nil =>
      cases ended with
      | nil => rfl
      | cons e ended => simp at hlength
    | cons x places ih =>
      cases ended with
      | nil => simp at hlength
      | cons e ended =>
        obtain ⟨hx, hothers⟩ := List.forall_mem_cons.mp hat
        obtain ⟨hsame, hrest⟩ := List.cons.inj hplaces
        have hhead : (x.1, e.2) = e := Prod.ext hsame rfl
        have htail := ih hrest hothers (Nat.succ.inj hlength)
        exact (Turns.ended_cons hx _ _).trans (congrArg₂ List.cons hhead htail)

/-- **One operation at a time**: the report of a run in an arrangement is that of an execution,
whatever the number of permits, whose operations end as those of the run. -/
theorem runArranged_completes {w : World} {arrange : Arrangement} (fair : arrange.IsFair)
    (tree : FileTree) :
    ∃ outcome hs s, Completes wanted p w.now outcome hs s ∧
      (∀ c, (p.ended outcome c).Perm (Execution.ended w arrange tree p c)) ∧
      (runArranged w arrange tree p).report = { s.report with finished := some w.now } := by
  have hturns : ∀ c, ∃ l : Turns, l.IsFair (p.group c) ∧
      l.ended (p.group c) = Execution.ended w arrange tree p c := by
    intro c
    refine exists_turns ?_
    rw [map_ended]
    exact fair c _
  choose turns hfair hends using hturns
  obtain ⟨hs, s, run, hover, hendings, hreport⟩ := exists_runs_of_turns p w.now wanted hfair
  obtain ⟨outcome, ends⟩ := exists_endsAs (run.ended_nodup hover)
  refine ⟨outcome, hs, s, ⟨run, hover, ends⟩, fun c => ?_, ?_⟩
  · refine hends c ▸ (hfair c).ended_perm fun turn hm => ends ((c, turn.1), turn.2) ?_
    rw [hendings]
    exact List.mem_flatMap.mpr ⟨c, Category.mem_all c, List.mem_map_of_mem hm⟩
  · have hgroups : (groupEndings w arrange tree p.groups).map
        (fun g => (g.1, g.2.map Operation.told)) =
        p.groups.map fun g => (g.1, ((turns g.1).ended g.2).map Operation.told) := by
      calc _ = ((groupEndings w arrange tree p.groups).map (·.1)).map fun c =>
            (c, (Execution.ended w arrange tree p c).map Operation.told) := by
            rw [List.map_map]
            refine List.map_congr_left fun g hg => ?_
            rw [Function.comp_apply, ended_eq w hg]
        _ = p.groups.map fun g => (g.1, ((turns g.1).ended g.2).map Operation.told) := by
            rw [map_groupEndings, List.map_map]
            refine List.map_congr_left fun g hg => ?_
            have hgroup : g.2 = p.group g.1 := Plan.eq_group_of_mem hg
            rw [Function.comp_apply, hgroup, hends]
    rw [runArranged_report w fair, hreport, hgroups]

end Schedule

end Inspection
