import Inspection.Plan.Basic
import Inspection.Report

/-!
# Execution

Running a plan: group after group, every operation once.  Failures are reported and stop nothing.
The operations of a group may come in any arrangement; unless another is given, it is their order in
the plan.
-/

namespace Inspection

/-- What came of a run: the report, the tree after it, the URLs requested and the notes taken. -/
structure Execution.Result where
  report : Report
  tree : FileTree
  requested : List String
  notes : List String

namespace Execution

/-- As many operations run at once as are wanted, and at least one.  The largest number that a
counter of permits can hold is left out. -/
def permits (wanted : Nat) : Nat := max wanted 1

/-- The order in which the operations of a group are run. -/
abbrev Arrangement := Category → List Operation → List Operation

namespace Arrangement

/-- Nothing is left out, and nothing is repeated. -/
def IsFair (arrange : Arrangement) : Prop := ∀ c os, (arrange c os).Perm os

/-- The order of the plan. -/
def inOrder : Arrangement := fun _ os => os

end Arrangement

/-- The operations of a group after they were run: their labels and outcomes, the tree, the URLs
requested and the notes taken. -/
structure GroupRun where
  ended : List (String × Outcome)
  tree : FileTree
  requested : List String
  notes : List String

/-- Runs operations one after another. -/
def runGroup (w : World) : FileTree → List Operation → GroupRun
  | tree, [] => ⟨[], tree, [], []⟩
  | tree, o :: rest =>
    let first := o.run w tree
    let others := runGroup w first.tree rest
    ⟨(o.label, first.outcome) :: others.ended, others.tree, first.requested ++ others.requested,
      first.notes ++ others.notes⟩

/-- Runs groups one after another.  A group without operations is not reported. -/
def runGroups (w : World) (arrange : Arrangement) :
    List (Category × List Operation) → Result → Result
  | [], result => result
  | (c, os) :: rest, result =>
    if os.isEmpty then runGroups w arrange rest result
    else
      let group := runGroup w result.tree (arrange c os)
      runGroups w arrange rest {
        report := result.report.insert c (GroupStatus.ofOutcomes group.ended)
        tree := group.tree
        requested := result.requested ++ group.requested
        notes := result.notes ++ group.notes }

/-- Runs a plan in an arrangement. -/
def runArranged (w : World) (arrange : Arrangement) (tree : FileTree) (p : Plan) : Result :=
  let result := runGroups w arrange p.groups ⟨Report.start p.inspectionId w.now, tree, [], []⟩
  { result with report := { result.report with finished := some w.now } }

/-- Runs a plan in its order. -/
def run (w : World) (tree : FileTree) (p : Plan) : Result := runArranged w .inOrder tree p

end Execution

end Inspection
