import Inspection.Arithmetic
import Inspection.Category
import Inspection.Operation

/-!
# Report

What came of a run: for every group how many operations it had, how many of them failed, and each
failure.  The report is a record of its own.
-/

namespace Inspection

/-- Whether a group went through without failures. -/
inductive GroupState
  | success
  | error
  deriving DecidableEq, Repr

/-- An operation that failed. -/
structure Failure where
  operation : String
  message : String
  /-- Whether it stood for what could not be prepared. -/
  preparation : Bool
  deriving DecidableEq, Repr

/-- What came of a group. -/
structure GroupStatus where
  state : GroupState
  total : Nat
  failed : Nat
  failures : List Failure
  deriving DecidableEq, Repr

/-- What came of a run. -/
structure Report where
  inspectionId : String
  started : Instant
  finished : Option Instant
  groups : Keyed GroupStatus

namespace GroupState

/-- The name of a state in records. -/
def name : GroupState → String
  | success => "success"
  | error => "error"

/-- The state of a name. -/
def named : String → Except JsonError GroupState
  | "success" => .ok success
  | "error" => .ok error
  | other => .error (.unknownVariant other ["success", "error"])

/-- Reads the record of a state. -/
def decode : Decoder GroupState := Decoder.variant named

end GroupState

namespace Failure

/-- The failure of an operation with a label. -/
def ofError (label : String) (error : OperationError) : Failure :=
  ⟨label, error.message, error.isPreparation⟩

/-- The failure of an operation that never reported; the text tells of its death. -/
def lost (text : String) : Failure := ⟨"unknown", text, false⟩

/-- The failure that an outcome is, if it is one. -/
def ofOutcome? (label : String) : Outcome → Option Failure
  | .success => none
  | .failure error => some (ofError label error)
  | .death text => some (lost text)

/-- The record of a failure. -/
def toJson (f : Failure) : Json :=
  .object [("operation", .string f.operation), ("message", .string f.message),
    ("preparation", .bool f.preparation)]

/-- The label of the operation. -/
def operationField : Decoder.Field String := .required "operation" Decoder.string

/-- The wording of the error. -/
def messageField : Decoder.Field String := .required "message" Decoder.string

/-- Whether it stood for what could not be prepared. -/
def preparationField : Decoder.Field Bool := .defaulted "preparation" Decoder.bool false

/-- Reads the record of a failure. -/
def decode : Decoder Failure := fun d => do
  let found ← Decoder.fields "OperationFailure"
    [operationField.rule, messageField.rule, preparationField.rule] d
  return {
    operation := ← operationField.value found
    message := ← messageField.value found
    preparation := ← preparationField.value found }

end Failure

namespace GroupStatus

/-- The status of a group before anything failed. -/
def start (total : Nat) : GroupStatus := ⟨.success, total, 0, []⟩

/-- The status after a failure. -/
def add (s : GroupStatus) (f : Failure) : GroupStatus :=
  { s with state := .error, failed := s.failed + 1, failures := s.failures ++ [f] }

/-- The status after an operation, whose label and outcome are given. -/
def record (s : GroupStatus) (ended : String × Outcome) : GroupStatus :=
  match Failure.ofOutcome? ended.1 ended.2 with
  | some f => s.add f
  | none => s

/-- The status of a group whose operations ended so, one after another. -/
def ofOutcomes (ended : List (String × Outcome)) : GroupStatus :=
  ended.foldl record (start ended.length)

/-- The number of operations that did not fail. -/
def succeeded (s : GroupStatus) : Nat := s.total - s.failed

/-- The record of a status.  No failures are left out. -/
def toJson (s : GroupStatus) : Json :=
  .object ([("status", .string s.state.name), ("total", .natural s.total),
    ("failed", .natural s.failed)] ++
    if s.failures.isEmpty then [] else [("errors", .array (s.failures.map Failure.toJson))])

/-- The state. -/
def stateField : Decoder.Field GroupState := .required "status" GroupState.decode

/-- The number of operations. -/
def totalField : Decoder.Field Nat := .required "total" Decoder.count

/-- The number of failures. -/
def failedField : Decoder.Field Nat := .required "failed" Decoder.count

/-- The failures. -/
def failuresField : Decoder.Field (List Failure) :=
  .defaulted "errors" (Decoder.list Failure.decode) []

/-- Reads the record of a status. -/
def decode : Decoder GroupStatus := fun d => do
  let found ← Decoder.fields "GroupStatus"
    [stateField.rule, totalField.rule, failedField.rule, failuresField.rule] d
  return {
    state := ← stateField.value found
    total := ← totalField.value found
    failed := ← failedField.value found
    failures := ← failuresField.value found }

end GroupStatus

namespace Report

/-- The name of the file that holds a report. -/
def fileName : String := "status.json"

/-- The report of a run that begins. -/
def start (inspectionId : String) (now : Instant) : Report := ⟨inspectionId, now, none, .empty⟩

/-- The report with the status of a group. -/
def insert (r : Report) (c : Category) (s : GroupStatus) : Report :=
  { r with groups := r.groups.insert c.name s }

/-- The status of a group. -/
def group? (r : Report) (c : Category) : Option GroupStatus := r.groups.find? c.name

/-- The number of operations. -/
def total (r : Report) : Nat := Arithmetic.sum (r.groups.values.map (·.total))

/-- The number of failures. -/
def failed (r : Report) : Nat := Arithmetic.sum (r.groups.values.map (·.failed))

/-- Whether every group went through without failures. -/
def isSuccess (r : Report) : Bool := r.groups.values.all (·.state = .success)

/-- The record of a report. -/
def toJson (r : Report) : Json :=
  .object [("inspection_id", .string r.inspectionId), ("started", r.started.toJson),
    ("finished", .optional Instant.toJson r.finished),
    ("groups", .object (r.groups.entries.map fun (name, s) => (name, s.toJson)))]

/-- The identifier of the run. -/
def inspectionIdField : Decoder.Field String := .required "inspection_id" Decoder.string

/-- When the run began. -/
def startedField : Decoder.Field Instant := .required "started" Instant.decode

/-- When the run ended. -/
def finishedField : Decoder.Field (Option Instant) := .nullable "finished" Instant.decode

/-- The groups. -/
def groupsField : Decoder.Field (Keyed GroupStatus) :=
  .required "groups" (Decoder.keyed GroupStatus.decode)

/-- Reads the record of a report. -/
def decode : Decoder Report := fun d => do
  let found ← Decoder.fields "StatusReport"
    [inspectionIdField.rule, startedField.rule, finishedField.rule, groupsField.rule] d
  return {
    inspectionId := ← inspectionIdField.value found
    started := ← startedField.value found
    finished := ← finishedField.value found
    groups := ← groupsField.value found }

/-- Writes the report to a file, making its directory first; false if it cannot be written. -/
def save (r : Report) (tree : FileTree) (path : String) : FileTree × Bool :=
  tree.write path (Text.encode r.toJson.pretty)

end Report

end Inspection
