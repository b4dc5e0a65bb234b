import Inspection.Collector
import Inspection.Sink
import Inspection.Text.Quoted
import Inspection.Time.Record

/-!
# Operation

A collector bound to a sink, with an optional hook before it.  Running an operation goes through
hook, collection and sink, and stops at the first that fails.
-/

namespace Inspection

/-- How a hook ended. -/
inductive HookEnding
  | passed
  /-- It failed; the texts tell of the failure from the outside in. -/
  | refused (chain : List String)
  /-- Its task died; the text tells of it. -/
  | died (text : String)

/-- What came of a hook: the value that the collector holds, the tree and the notes taken when it
ended, and how. -/
structure Hooked where
  value : Json
  tree : FileTree
  notes : List String
  ending : HookEnding

/-- What is done before collecting.  It may be anything that comes of the surroundings, the tree and
the value that the collector holds. -/
abbrev Hook := World → FileTree → Json → Hooked

namespace Hook

/-- Sets a field of the value that the collector holds to the present time. -/
def stamp (field : String) : Hook := fun w tree value =>
  ⟨match value with
    | .object fields => .object (Json.setField field w.now.toJson fields)
    | _ => value, tree, [], .passed⟩

end Hook

/-- Why an operation failed. -/
inductive OperationError
  | hook (text : String)
  | collection (error : CollectorError)
  | sink (error : SinkError)
  deriving DecidableEq

namespace OperationError

/-- The wording of an error. -/
def message : OperationError → String
  | hook text => "pre-hook failed: " ++ text
  | collection error => error.message
  | sink error => error.message

/-- Whether the operation stood for what could not be prepared. -/
def isPreparation : OperationError → Bool
  | collection (.preparation _) => true
  | _ => false

end OperationError

/-- A collector, a sink and what comes before. -/
structure Operation where
  collector : Collector
  sink : Sink
  hook : Option Hook

/-- What came of an operation.  A task that died did not report, but a text tells of it. -/
inductive Outcome
  | success
  | failure (error : OperationError)
  | death (text : String)
  deriving DecidableEq

/-- A run of an operation: the outcome, the operation as it is for the next run, the tree after it,
the URLs requested and the notes taken. -/
structure Operation.Run where
  outcome : Outcome
  operation : Operation
  tree : FileTree
  requested : List String
  notes : List String

namespace Collector

/-- The value that a collector holds, if it holds one. -/
def value : Collector → Json
  | held _ value => value
  | _ => .null

/-- Sets the value that a collector holds. -/
def hold (value : Json) : Collector → Collector
  | held name _ => held name value
  | c => c

end Collector

namespace Operation

/-- What the operation is told as. -/
def label (o : Operation) : String := o.collector.title ++ " -> " ++ o.sink.title

/-- The parts of an operation on one line. -/
def describe (o : Operation) : String :=
  "Operation \x7b collector: " ++ Text.quoted o.collector.title ++ ", output: " ++
    Text.quoted o.sink.title ++ ", pre_hook: " ++ (if o.hook.isSome then "true" else "false") ++
    " \x7d"

/-- Takes the hook, if there is one. -/
def takeHook (w : World) (tree : FileTree) (o : Operation) : Hooked :=
  match o.hook with
  | none => ⟨o.collector.value, tree, [], .passed⟩
  | some hook => hook w tree o.collector.value

/-- Collects, and puts the bytes into the sink. -/
def collectAndPut (w : World) (tree : FileTree) (collector : Collector) (sink : Sink) :
    Outcome × FileTree × List String :=
  let collected := collector.collect w tree
  match collected.yield with
  | .death text => (.death text, collected.tree, collected.requested)
  | .failure e => (.failure (.collection e), collected.tree, collected.requested)
  | .bytes content =>
    match sink.put collected.tree content with
    | (.ok (), tree) => (.success, tree, collected.requested)
    | (.error e, tree) => (.failure (.sink e), tree, collected.requested)

/-- Runs an operation. -/
def run (w : World) (tree : FileTree) (o : Operation) : Run :=
  let hooked := o.takeHook w tree
  let operation := { o with collector := o.collector.hold hooked.value }
  match hooked.ending with
  | .refused chain =>
    ⟨.failure (.hook (String.intercalate ": " chain)), operation, hooked.tree, [], hooked.notes⟩
  | .died text => ⟨.death text, operation, hooked.tree, [], hooked.notes⟩
  | .passed =>
    let (outcome, tree, requested) :=
      collectAndPut w hooked.tree operation.collector o.sink
    ⟨outcome, operation, tree, requested, hooked.notes⟩

end Operation

end Inspection
