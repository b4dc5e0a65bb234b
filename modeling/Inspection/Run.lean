import Inspection.Archive
import Inspection.CommandLine
import Inspection.Console
import Inspection.Execution
import Inspection.Plan.Build
import Inspection.Topology.File

/-!
# Run

What the commands of the program do: a topology is loaded from its file, a plan is built with
questions over the network, and the plan is printed, or run.  After a run its report is saved, a
summary printed, and the directory of the run packed if that is wanted.  The clock of a world
stands still, so a run takes no time.
-/

namespace Inspection

/-- The step that a command fails in, and why. -/
inductive CommandError
  | topology (path : String) (error : TopologyError)
  | plan (error : PlanError)
  | report
  | archive (error : ArchiveError)

namespace CommandError

/-- What was being done. -/
def step : CommandError → String
  | topology path _ => "Failed to load topology from " ++ path
  | plan _ => "Failed to build inspection plan"
  | report => "Failed to write status report"
  | archive _ => "Failed to archive inspection"

/-- Why it failed.  What the operating system says is left open. -/
def cause : CommandError → String
  | topology _ error => error.message
  | plan error => error.message
  | report => "<io>"
  | archive error => error.message

end CommandError

namespace Run

open CommandLine (Command RunArguments)

/-! ### A run of a topology -/

/-- The file of the report of a run. -/
def reportPath (o : Options) : String := Path.join o.inspectionDir "status.json"

/-- A plan whose questions go over the network. -/
def planning (w : World) (t : Topology) (o : Options) : Planning :=
  Plan.build t o (.overNetwork w o.httpTimeout.toNat) w.now

/-- The URLs requested while a plan was built. -/
def asked (w : World) (o : Options) (p : Planning) : List String :=
  p.queries.flatMap fun q => (q.ask w o.httpTimeout.toNat).2

/-- A plan that was run, and its report saved; false if it could not be saved. -/
structure Ended where
  report : Report
  saved : Bool
  tree : FileTree
  /-- The URLs requested by operations. -/
  requested : List String

/-- Runs a plan and saves the report. -/
def execute (w : World) (tree : FileTree) (o : Options) (p : Plan) : Ended :=
  let result := Execution.run w tree p
  let (tree, saved) := result.report.save result.tree (reportPath o)
  ⟨result.report, saved, tree, result.requested⟩

/-- What a run left behind. -/
def statistics (tree : FileTree) (o : Options) : Statistics :=
  Statistics.gather tree o.inspectionDir 0

/-! ### Commands -/

/-- What came of a command: whether it failed, what it printed, the warnings given, the tree after
it and the URLs requested. -/
structure Result where
  outcome : Except CommandError Unit
  printed : String
  warnings : List Warning
  tree : FileTree
  requested : List String

/-- A command that failed before it printed anything or changed the tree. -/
def Result.failed (tree : FileTree) (error : CommandError) : Result :=
  ⟨.error error, "", [], tree, []⟩

/-- Loads a topology, builds a plan and goes on with it. -/
def prepare (w : World) (tree : FileTree) (path : String) (o : Options)
    (use : Plan → Result) : Result :=
  match Topology.load tree path with
  | .error e => .failed tree (.topology path e)
  | .ok t =>
    let p := planning w t o
    let result := match p.outcome with
      | .error e => Result.failed tree (.plan e)
      | .ok built => use built
    { result with
      warnings := p.warnings ++ result.warnings
      requested := asked w o p ++ result.requested }

/-- Packs the directory of a run behind a command that went well. -/
def pack (o : Options) (result : Result) : Result :=
  match Archive.create .tarGz result.tree o.inspectionDir with
  | (.ok path, tree) =>
    { result with printed := result.printed ++ "\nArchive: " ++ path ++ "\n", tree }
  | (.error e, tree) => { result with outcome := .error (.archive e), tree }

/-- Runs a plan and prints a summary. -/
def inspect (w : World) (tree : FileTree) (colour archived : Bool) (o : Options) (p : Plan) :
    Result :=
  let ended := execute w tree o p
  if ended.saved then
    let summary := Console.summary colour ended.report (statistics ended.tree o)
    let result := ⟨.ok (), summary, [], ended.tree, ended.requested⟩
    if archived then pack o result else result
  else ⟨.error .report, "", [], ended.tree, ended.requested⟩

/-- Prints a plan. -/
def list (tree : FileTree) (colour : Bool) (p : Plan) : Result :=
  ⟨.ok (), Console.plan colour p, [], tree, []⟩

/-- Follows a command; a run without an identifier takes the fresh one. -/
def follow (w : World) (tree : FileTree) (colour : Bool) (fresh : String) : Command → Result
  | .info => ⟨.ok (), Console.info, [], tree, []⟩
  | .plan a => prepare w tree a.topology (a.options w fresh) (list tree colour)
  | .inspect a =>
    let o := a.options w fresh
    prepare w tree a.topology o (inspect w tree colour a.archive o)

end Run

end Inspection
