import Inspection.Artifact.Remote
import Inspection.Artifact.Served
import Inspection.Plan.Basic
import Inspection.Record

/-!
# Plan — building

A plan out of a topology and the options of a run.  The requested targets are checked first, and
no question is asked before; then hosts and their instances are gone through in order.  Every
instance that is healthy gives the operations of the requested categories; databases and metrics
are asked for once in a cluster, at the first instance that can be asked.  A question that is not
answered becomes an operation that fails, so that the rest of the plan stands.
-/

namespace Inspection

/-- Why there is no plan. -/
inductive PlanError
  | target (error : TargetError)
  | duration (error : DurationError)
  deriving DecidableEq

/-- The wording of an error. -/
def PlanError.message : PlanError → String
  | target error => error.message
  | duration error => "invalid metric duration: " ++ error.message

/-- A plan or the reason why there is none, the warnings given and the questions asked. -/
structure Planning where
  outcome : Except PlanError Plan
  warnings : List Warning
  queries : List Query

namespace Planning

/-- What holds for a whole walk over the hosts. -/
structure Scope where
  spec : TargetSpec
  options : Options
  root : String
  /-- The window of metrics, if they are requested. -/
  window : Option Window
  /-- Whether an instance was named to be profiled, so that no other is. -/
  profileNamed : Bool
  discovery : Discovery

/-- What was asked in a cluster. -/
structure Asked where
  databases : Bool := false
  metrics : Bool := false
  deriving DecidableEq

/-- The limit of requests. -/
def Scope.timeout (s : Scope) : Nat := s.options.httpTimeout.toNat

/-- Profiles of an instance, unless one was named. -/
def profile (s : Scope) (h : Host) (i : Instance) : Findings :=
  if s.spec.contains .profile ∧ !s.profileNamed then
    match i.statusAddressPort? with
    | none => .warn [.noProfilePort i.kind h.ip]
    | some port =>
      .operations .profile ((Profile.operations? s.root i.kind h.user h.ip port s.options).getD [])
  else .empty

/-- The configuration of an instance. -/
def configuration (s : Scope) (h : Host) (i : Instance) : Findings :=
  if s.spec.contains .config then
    .operations .config (Artifact.configuration? s.root h.user h.ip i).toList
  else .empty

/-- What an answer to a question gives: operations, and a warning where there is no answer. -/
def answered (s : Scope) (c : Category) (q : Query) (use : List String → Findings) : Findings :=
  .query q ++
    match s.discovery q with
    | .ok names => use names
    | .error error =>
      .warn [.discoveryFailed q error] ++ .operations c [Artifact.unprepared q error]

/-- The schemas of the databases of an instance, and whether it was asked. -/
def databases (s : Scope) (h : Host) (i : Instance) : Findings × Bool :=
  match i.statusAddressPort? with
  | none => (.warn [.noSchemaPort h.ip], false)
  | some port =>
    let address := addressOf h.ip (some port)
    (answered s .dbinfo (.databases address) fun names =>
      .warn ((names.filter (!Artifact.isFileName ·)).map .badDatabaseName) ++
        .operations .dbinfo (Artifact.schemas s.root address s.timeout names), true)

/-- The metrics of an instance and its alerts, and whether it was asked. -/
def metrics (s : Scope) (w : Window) (h : Host) (i : Instance) : Findings × Bool :=
  match i.port with
  | none => (.warn [.noMetricPort h.ip], false)
  | some port =>
    let address := addressOf h.ip (some port)
    (answered s .metric (.metrics address) (fun names =>
        .operations .metric (Artifact.metricRanges s.root address s.timeout w names)) ++
      .operations .metric [Artifact.alerts s.root address s.timeout], true)

/-- Goes through a healthy instance. -/
def healthy (s : Scope) (h : Host) (i : Instance) (asked : Asked) : Findings × Asked :=
  match i.kind with
  | .tidb =>
    let found := profile s h i ++ configuration s h i
    if s.spec.contains .dbinfo ∧ !asked.databases then
      let (more, done) := databases s h i
      (found ++ more, { asked with databases := done })
    else (found, asked)
  | .tikv | .pd => (configuration s h i ++ profile s h i, asked)
  | .prometheus =>
    match s.window, asked.metrics with
    | some w, false =>
      let (found, done) := metrics s w h i
      (found, { asked with metrics := done })
    | _, _ => (.empty, asked)
  | _ => (.empty, asked)

/-- Goes through an instance. -/
def visit (s : Scope) (h : Host) (i : Instance) (asked : Asked) : Findings × Asked :=
  if i.isHealthy then healthy s h i asked
  else (.warn [.skipped i.kind h.ip i.status], asked)

/-- Goes through instances in order. -/
def visitAll (s : Scope) (h : Host) : List Instance → Asked → Findings × Asked
  | [], asked => (.empty, asked)
  | i :: rest, asked =>
    let (found, asked) := visit s h i asked
    let (more, asked) := visitAll s h rest asked
    (found ++ more, asked)

/-- Goes through a host. -/
def visitHost (s : Scope) (h : Host) (asked : Asked) : Findings × Asked :=
  let state := if s.spec.contains .basic then Artifact.hostState s.root h else []
  let (found, asked) := visitAll s h h.instances asked
  (.warnIf (h.status ≠ .success) (.hostErrors h.ip) ++ .operations .basic state ++ found, asked)

/-- Goes through hosts in order. -/
def visitHosts (s : Scope) : List Host → Asked → Findings × Asked
  | [], asked => (.empty, asked)
  | h :: rest, asked =>
    let (found, asked) := visitHost s h asked
    let (more, asked) := visitHosts s rest asked
    (found ++ more, asked)

/-- The user of the first host with an address. -/
def userOf (t : Topology) (ip : String) : String :=
  ((t.hosts.find? (·.ip = ip)).map (·.user)).getD ""

/-- The operations that profile the instance that was named, if one was. -/
def named (spec : TargetSpec) (t : Topology) (o : Options) (root : String) :
    Except TargetError (Option (List Operation)) :=
  match spec.choice? .profile with
  | some (.parts segments) => do
    let target ← ProfileTarget.read segments
    match Profile.operations? root target.kind (userOf t target.ip) target.ip target.port o with
    | some os => return some os
    | none => .error (.invalidOption .profile target.render (.notProfiled target.kind.name))
  | some (.value text) => .error (.invalidOption .profile text .notAnEndpoint)
  | _ => .ok none

/-- The window of metrics, if they are requested. -/
def windowOf (spec : TargetSpec) (o : Options) (now : Instant) :
    Except DurationError (Option Window) :=
  if spec.contains .metric then
    (Window.resolve (spec.choice? .metric) o.windowBegin o.windowEnd now).map some
  else .ok none

/-- The checks that come before anything else: the targets and the window of metrics. -/
def prepare (o : Options) (now : Instant) : Except PlanError (TargetSpec × Option Window) := do
  let spec ← (TargetSpec.read o.collect).mapError .target
  (spec.validate o).mapError .target
  let window ← (windowOf spec o now).mapError .duration
  return (spec, window)

/-- The operation that cuts the logs, if they are requested. -/
def logs (spec : TargetSpec) (root : String) (o : Options) : Except TargetError Findings :=
  if spec.contains .log then
    (Artifact.logs root o).map fun operation => .operations .log [operation]
  else .ok .empty

/-- The plan of a run whose targets are in order. -/
def compose (t : Topology) (o : Options) (discovery : Discovery) (now : Instant)
    (spec : TargetSpec) (window : Option Window) : Planning :=
  let root := o.inspectionDir
  let opening := Findings.warnIf (t.status ≠ .success) (.topologyErrors t.clusterName) ++
    .operations .setup (Record.setup root o t) ++
    .operations .teardown [Record.teardown root t now]
  match named spec t o root with
  | .error error => ⟨.error (.target error), opening.warnings, opening.queries⟩
  | .ok chosen =>
    let scope : Scope :=
      { spec, options := o, root, window, profileNamed := chosen.isSome, discovery }
    let (walked, _) := visitHosts scope t.hosts {}
    let found := opening ++ .operations .profile (chosen.getD []) ++ walked
    match logs spec root o with
    | .error error => ⟨.error (.target error), found.warnings, found.queries⟩
    | .ok last =>
      let found := found ++ last
      ⟨.ok ⟨o.inspectionId, found.entries⟩, found.warnings, found.queries⟩

end Planning

/-- Builds the plan of a run that begins now. -/
def Plan.build (t : Topology) (o : Options) (discovery : Discovery) (now : Instant) : Planning :=
  match Planning.prepare o now with
  | .error error => ⟨.error error, [], []⟩
  | .ok (spec, window) => Planning.compose t o discovery now spec window

end Inspection
