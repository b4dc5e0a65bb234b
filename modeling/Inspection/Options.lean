import Inspection.Path
import Inspection.Target
import Inspection.Time.Record

/-!
# Options

The arguments of a run, their record, and the check that every requested category has what it
needs.
-/

namespace Inspection

/-- The arguments of a run. -/
structure Options where
  inspectionId : String
  dataDir : String
  /-- The specification of targets. -/
  collect : String
  windowBegin : Option Instant
  windowEnd : Option Instant
  logDir : Option String
  logSpliter : Option String
  profileSeconds : UInt64
  httpTimeout : UInt64
  deriving DecidableEq

namespace Options

/-- Sampling of profiles, in seconds, unless stated otherwise. -/
def defaultProfileSeconds : UInt64 := 10

/-- The limit of requests, in seconds, unless stated otherwise. -/
def defaultHttpTimeout : UInt64 := 30

/-- What a sampling request may take beyond the sampling. -/
def profileGrace : Nat := 10

/-- The largest number of seconds. -/
def largestSeconds : Nat := UInt64.size - 1

/-- The directory of everything that the run writes. -/
def inspectionDir (o : Options) : String := Path.join o.dataDir o.inspectionId

/-- The limit of a request that samples first, as long as it is a number of seconds at all. -/
def profileTimeout (o : Options) : Nat := min (o.profileSeconds.toNat + profileGrace) largestSeconds

/-- The record of some options. -/
def toJson (o : Options) : Json :=
  .object [("inspection_id", .string o.inspectionId), ("data_dir", .string o.dataDir),
    ("collect", .string o.collect), ("begin", .optional Instant.toJson o.windowBegin),
    ("end", .optional Instant.toJson o.windowEnd), ("log_dir", .optional .string o.logDir),
    ("log_spliter", .optional .string o.logSpliter),
    ("profile_seconds", .natural o.profileSeconds.toNat),
    ("http_timeout_secs", .natural o.httpTimeout.toNat)]

/-- The identifier of the run. -/
def inspectionIdField : Decoder.Field String := .required "inspection_id" Decoder.string

/-- The directory of all runs. -/
def dataDirField : Decoder.Field String := .required "data_dir" Decoder.path

/-- The specification of targets. -/
def collectField : Decoder.Field String := .required "collect" Decoder.string

/-- The begin of the window. -/
def windowBeginField : Decoder.Field (Option Instant) := .nullable "begin" Instant.decode

/-- The end of the window. -/
def windowEndField : Decoder.Field (Option Instant) := .nullable "end" Instant.decode

/-- The directory of the logs gathered. -/
def logDirField : Decoder.Field (Option String) := .nullable "log_dir" Decoder.path

/-- The program that cuts logs. -/
def logSpliterField : Decoder.Field (Option String) := .nullable "log_spliter" Decoder.path

/-- The seconds of sampling. -/
def profileSecondsField : Decoder.Field UInt64 := .required "profile_seconds" Decoder.word64

/-- The limit of requests. -/
def httpTimeoutField : Decoder.Field UInt64 := .required "http_timeout_secs" Decoder.word64

/-- Reads the record of some options. -/
def decode : Decoder Options := fun d => do
  let found ← Decoder.fields "InspectOptions"
    [inspectionIdField.rule, dataDirField.rule, collectField.rule, windowBeginField.rule,
      windowEndField.rule, logDirField.rule, logSpliterField.rule, profileSecondsField.rule,
      httpTimeoutField.rule] d
  return {
    inspectionId := ← inspectionIdField.value found
    dataDir := ← dataDirField.value found
    collect := ← collectField.value found
    windowBegin := ← windowBeginField.value found
    windowEnd := ← windowEndField.value found
    logDir := ← logDirField.value found
    logSpliter := ← logSpliterField.value found
    profileSeconds := ← profileSecondsField.value found
    httpTimeout := ← httpTimeoutField.value found }

end Options

namespace TargetSpec

/-- The segments of the first qualifier of several segments. -/
def firstParts? (qualifiers : List Qualifier) : Option (List String) :=
  qualifiers.findSome? fun
    | .parts segments => some segments
    | _ => none

/-- The demand that an option is given. -/
def demand {α : Type} (category : Category) (argument : Argument) :
    Option α → Except TargetError Unit
  | some _ => .ok ()
  | none => .error (.missingArgument category argument)

/-- Metrics take one duration, or both ends of a window, or none. -/
def validateMetric (spec : TargetSpec) (o : Options) : Except TargetError Unit :=
  match firstParts? (spec.qualifiers .metric) with
  | some segments =>
    .error (.invalidOption .metric (String.intercalate ":" segments) .notOneDuration)
  | none =>
    match spec.choice? .metric, o.windowBegin, o.windowEnd with
    | some (.value _), _, _ => .ok ()
    | _, some _, none => .error (.missingArgument .metric .windowEnd)
    | _, none, some _ => .error (.missingArgument .metric .windowBegin)
    | _, _, _ => .ok ()

/-- Logs need a source, a program to cut them and a window. -/
def validateLog (o : Options) : Except TargetError Unit := do
  demand .log .logDir o.logDir
  demand .log .logSpliter o.logSpliter
  demand .log .windowBegin o.windowBegin
  demand .log .windowEnd o.windowEnd

/-- Checks that every requested category has the arguments it needs. -/
def validate (spec : TargetSpec) (o : Options) : Except TargetError Unit := do
  if spec.contains .metric then spec.validateMetric o
  if spec.contains .log then validateLog o

end TargetSpec

end Inspection
