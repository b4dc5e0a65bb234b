import Inspection.Execution
import Inspection.Proofs.Report

/-!
# Execution — how operations end

Operations that are run one after another, each with how it ends (`Execution.ended`), group by
group and in the order in which they are run.

* `runGroup_ended`: a run of a group tells of its operations, and of nothing else.
* `runGroups_report`: every group is reported with what was told of it.
* `runArranged_report`: and so it is in a run of a plan, in every fair arrangement.
-/

namespace Inspection

namespace Execution

/-- Operations that are run one after another, with how each ends. -/
def endings (w : World) : FileTree → List Operation → List (Operation × Outcome)
  | _, [] => []
  | tree, o :: rest => (o, (o.run w tree).outcome) :: endings w (o.run w tree).tree rest

/-- Groups that are run one after another, with how each operation ends. -/
def groupEndings (w : World) (arrange : Arrangement) :
    FileTree → List (Category × List Operation) → List (Category × List (Operation × Outcome))
  | _, [] => []
  | tree, (c, os) :: rest =>
    (c, endings w tree (arrange c os)) ::
      groupEndings w arrange (runGroup w tree (arrange c os)).tree rest

/-- The operations of a group in the order in which they are run, with how each ends. -/
def ended (w : World) (arrange : Arrangement) (tree : FileTree) (p : Plan) (c : Category) :
    List (Operation × Outcome) :=
  (((groupEndings w arrange tree p.groups).find? (·.1 = c)).map (·.2)).getD []

section

variable (w : World) (arrange : Arrangement)

theorem map_endings (tree : FileTree) (os : List Operation) : (endings w tree os).map (·.1) = os := by
  induction os generalizing tree with
  | nil => rfl
  | cons o os ih => rw [endings, List.map_cons, ih]

theorem length_endings (tree : FileTree) (os : List Operation) :
    (endings w tree os).length = os.length := by
  rw [← List.length_map (f := (·.1)), map_endings]

theorem runGroup_ended (tree : FileTree) (os : List Operation) :
    (runGroup w tree os).ended = (endings w tree os).map Operation.told := by
  induction os generalizing tree with
  | nil => rfl
  | cons o os ih =>
    rw [runGroup, endings, List.map_cons, ← ih]
    rfl

theorem map_groupEndings (tree : FileTree) (gs : List (Category × List Operation)) :
    (groupEndings w arrange tree gs).map (·.1) = gs.map (·.1) := by
  induction gs generalizing tree with
  | nil => rfl
  | cons g gs ih => rw [groupEndings, List.map_cons, List.map_cons, ih]

/-- Each group is run in its arrangement. -/
theorem mem_groupEndings {tree : FileTree} {gs : List (Category × List Operation)}
    {g : Category × List (Operation × Outcome)} (h : g ∈ groupEndings w arrange tree gs) :
    ∃ os, (g.1, os) ∈ gs ∧ g.2.map (·.1) = arrange g.1 os := by
  induction gs generalizing tree with
  | nil => cases h
  | cons group gs ih =>
    rcases List.mem_cons.mp h with rfl | h
    · exact ⟨group.2, List.mem_cons_self, map_endings w ..⟩
    · obtain ⟨os, hm, he⟩ := ih h
      exact ⟨os, List.mem_cons_of_mem _ hm, he⟩

variable {arrange : Arrangement} (fair : arrange.IsFair)
include fair

/-- Every group is reported with what was told of it. -/
theorem runGroups_report (gs : List (Category × List Operation)) (result : Result) :
    (runGroups w arrange gs result).report = result.report.ofEnds
      ((groupEndings w arrange result.tree gs).map fun g => (g.1, g.2.map Operation.told)) := by
  induction gs generalizing result with
  | nil => rfl
  | cons g gs ih =>
    obtain ⟨c, os⟩ := g
    rw [runGroups, groupEndings, List.map_cons, Report.ofEnds, List.foldl_cons, ← runGroup_ended]
    split
    next hempty =>
      obtain rfl := List.isEmpty_iff.mp hempty
      obtain hnil := (fair c []).eq_nil
      rw [ih, hnil]
      rfl
    next hsome =>
      have hends : (runGroup w result.tree (arrange c os)).ended.isEmpty = false := by
        rw [Bool.eq_false_iff, runGroup_ended, ne_eq, List.isEmpty_iff_length_eq_zero,
          List.length_map, length_endings, (fair c os).length_eq, ← List.isEmpty_iff_length_eq_zero]
        exact hsome
      rw [ih, hends]
      rfl

end

section

variable (w : World) {arrange : Arrangement}

theorem ended_eq {tree : FileTree} {p : Plan} {g : Category × List (Operation × Outcome)}
    (h : g ∈ groupEndings w arrange tree p.groups) : ended w arrange tree p g.1 = g.2 := by
  have hnodup : ((groupEndings w arrange tree p.groups).map (·.1)).Nodup := by
    rw [map_groupEndings, p.map_groups]
    decide
  rw [ended, (Entries.find?_eq_some_iff hnodup).mpr ⟨h, rfl⟩]
  rfl

/-- Each group of a plan is run in its arrangement. -/
theorem map_ended (tree : FileTree) (p : Plan) (c : Category) :
    (ended w arrange tree p c).map (·.1) = arrange c (p.group c) := by
  have hm : c ∈ (groupEndings w arrange tree p.groups).map (·.1) := by
    rw [map_groupEndings, p.map_groups]
    exact Category.mem_all c
  obtain ⟨g, hg, rfl⟩ := List.mem_map.mp hm
  obtain ⟨os, hos, he⟩ := mem_groupEndings w arrange hg
  rw [ended_eq w hg, he, Plan.eq_group_of_mem hos]

/-- What is reported of a run. -/
theorem runArranged_report (fair : arrange.IsFair) (tree : FileTree) (p : Plan) :
    (runArranged w arrange tree p).report =
      { (Report.start p.inspectionId w.now).ofEnds
          ((groupEndings w arrange tree p.groups).map fun g => (g.1, g.2.map Operation.told)) with
        finished := some w.now } := by
  rw [← runGroups_report w fair p.groups ⟨Report.start p.inspectionId w.now, tree, [], []⟩]
  rfl

end

end Execution

end Inspection
