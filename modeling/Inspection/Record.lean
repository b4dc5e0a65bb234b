import Inspection.Operation
import Inspection.Options
import Inspection.Topology

/-!
# Record

The records that a run keeps of itself: its arguments, its environment, the topology it went by,
and when it began and ended.  The last is written when everything else is done, and its end is
stamped just before, however often that happens.
-/

namespace Inspection

/-- When a run took place. -/
structure RunRecord where
  clusterName : String
  createTime : Instant
  inspectTime : Instant
  endTime : Option Instant
  deriving DecidableEq

namespace RunRecord

/-- The name of the field that is stamped. -/
def endKey : String := "end_time"

/-- The record as a value. -/
def toJson (r : RunRecord) : Json :=
  .object [("cluster_name", .string r.clusterName), ("create_time", r.createTime.toJson),
    ("inspect_time", r.inspectTime.toJson), (endKey, .optional Instant.toJson r.endTime)]

/-- The name of the cluster. -/
def clusterNameField : Decoder.Field String := .required "cluster_name" Decoder.string

/-- When the run was planned. -/
def createTimeField : Decoder.Field Instant := .required "create_time" Instant.decode

/-- When the run took place. -/
def inspectTimeField : Decoder.Field Instant := .required "inspect_time" Instant.decode

/-- When the run ended. -/
def endTimeField : Decoder.Field (Option Instant) := .nullable endKey Instant.decode

/-- Reads the record. -/
def decode : Decoder RunRecord := fun d => do
  let found ← Decoder.fields "InspectionMeta"
    [clusterNameField.rule, createTimeField.rule, inspectTimeField.rule, endTimeField.rule] d
  return {
    clusterName := ← clusterNameField.value found
    createTime := ← createTimeField.value found
    inspectTime := ← inspectTimeField.value found
    endTime := ← endTimeField.value found }

/-- The record of a run that begins. -/
def start (topology : Topology) (now : Instant) : RunRecord :=
  ⟨topology.clusterName, now, now, none⟩

end RunRecord

namespace Record

/-- An operation that writes a value as it is now. -/
def snapshot (root file name : String) (value : Json) : Operation where
  collector := .snapshot name value.sorted
  sink := .json (Path.join root file)
  hook := none

/-- The arguments, the environment and the topology. -/
def setup (root : String) (o : Options) (t : Topology) : List Operation :=
  [snapshot root "args.json" "arguments" o.toJson,
    { collector := .environment, sink := .json (Path.join root "env.json"), hook := none },
    snapshot root "topology.json" "topology" t.toJson]

/-- The time of the run, stamped when it is over. -/
def teardown (root : String) (t : Topology) (now : Instant) : Operation where
  collector := .held "inspection metadata" (RunRecord.start t now).toJson
  sink := .json (Path.join root "meta.json")
  hook := some (.stamp RunRecord.endKey)

end Record

end Inspection
