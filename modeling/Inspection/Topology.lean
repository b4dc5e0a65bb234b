import Inspection.Json.Decode

/-!
# Topology

The layout of a cluster: hosts and the service instances on each, as host discovery found them, and
its record.  What was found with errors has the status `exception`.
-/

namespace Inspection

/-- Whether something was found without errors. -/
inductive Status
  | success
  | exception
  deriving DecidableEq, Repr

/-- The kinds of services.  Every name but those of the other kinds is that of an unknown one. -/
inductive ServiceKind
  | tidb
  | tikv
  | pd
  | prometheus
  | alertmanager
  | grafana
  | nodeExporter
  | blackboxExporter
  | pushgateway
  | unknown
  deriving DecidableEq, Repr

/-- A service on a host. -/
structure Instance where
  kind : ServiceKind
  status : Status
  deployDir : String
  port : Option UInt16
  statusPort : Option UInt16
  deriving DecidableEq, Repr

/-- A host of a cluster. -/
structure Host where
  ip : String
  user : String
  status : Status
  instances : List Instance
  deriving DecidableEq, Repr

/-- A cluster. -/
structure Topology where
  clusterName : String
  status : Status
  hosts : List Host
  deriving DecidableEq, Repr

namespace Status

/-- The name of a status in records. -/
def name : Status → String
  | success => "success"
  | exception => "exception"

/-- The name of a status in messages. -/
def title : Status → String
  | success => "Success"
  | exception => "Exception"

/-- The record of a status. -/
def toJson (s : Status) : Json := .string s.name

/-- The status of a name. -/
def named : String → Except JsonError Status
  | "success" => .ok success
  | "exception" => .ok exception
  | other => .error (.unknownVariant other ["success", "exception"])

/-- Reads the record of a status. -/
def decode : Decoder Status := Decoder.variant named

end Status

namespace ServiceKind

/-- The kinds that have a name of their own. -/
def known : List ServiceKind :=
  [tidb, tikv, pd, prometheus, alertmanager, grafana, nodeExporter, blackboxExporter, pushgateway]

/-- The name of a kind. -/
def name : ServiceKind → String
  | tidb => "tidb"
  | tikv => "tikv"
  | pd => "pd"
  | prometheus => "prometheus"
  | alertmanager => "alertmanager"
  | grafana => "grafana"
  | nodeExporter => "node_exporter"
  | blackboxExporter => "blackbox_exporter"
  | pushgateway => "pushgateway"
  | unknown => "unknown"

/-- The known kind of a name. -/
def ofName? (s : String) : Option ServiceKind := known.find? (·.name = s)

/-- The record of a kind. -/
def toJson (k : ServiceKind) : Json := .string k.name

/-- The kind of a name, known or not. -/
def named (s : String) : ServiceKind := (ofName? s).getD unknown

/-- Reads the record of a kind. -/
def decode : Decoder ServiceKind := Decoder.variant fun s => .ok (named s)

theorem named_name : ∀ k : ServiceKind, named k.name = k := by
  intro k
  cases k <;> decide

end ServiceKind

/-- The record of a port. -/
def portJson (p : UInt16) : Json := Json.natural p.toNat

namespace Instance

/-- Whether an instance was found without errors. -/
def isHealthy (i : Instance) : Bool := i.status = .success

/-- The port of the status and profiling interface: the status port first with TiDB, and the main
port first with every other service. -/
def statusAddressPort? (i : Instance) : Option UInt16 :=
  match i.kind with
  | .tidb => i.statusPort.or i.port
  | _ => i.port.or i.statusPort

/-- The record of an instance. -/
def toJson (i : Instance) : Json :=
  .object [("name", i.kind.toJson), ("status", i.status.toJson),
    ("deploy_dir", .string i.deployDir), ("port", .optional portJson i.port),
    ("status_port", .optional portJson i.statusPort)]

/-- The kind. -/
def kindField : Decoder.Field ServiceKind := .required "name" ServiceKind.decode

/-- The status. -/
def statusField : Decoder.Field Status := .defaulted "status" Status.decode .success

/-- The directory the service is deployed in. -/
def deployDirField : Decoder.Field String := .defaulted "deploy_dir" Decoder.string ""

/-- The main port. -/
def portField : Decoder.Field (Option UInt16) :=
  .defaulted "port" (Decoder.optional Decoder.word16) none

/-- The status port. -/
def statusPortField : Decoder.Field (Option UInt16) :=
  .defaulted "status_port" (Decoder.optional Decoder.word16) none

/-- Reads the record of an instance. -/
def decode : Decoder Instance := fun d => do
  let found ← Decoder.fields "Component"
    [kindField.rule, statusField.rule, deployDirField.rule, portField.rule, statusPortField.rule] d
  return {
    kind := ← kindField.value found
    status := ← statusField.value found
    deployDir := ← deployDirField.value found
    port := ← portField.value found
    statusPort := ← statusPortField.value found }

end Instance

namespace Host

/-- The record of a host. -/
def toJson (h : Host) : Json :=
  .object [("ip", .string h.ip), ("user", .string h.user), ("status", h.status.toJson),
    ("components", .array (h.instances.map Instance.toJson))]

/-- The address. -/
def ipField : Decoder.Field String := .required "ip" Decoder.string

/-- The user to log in as. -/
def userField : Decoder.Field String := .defaulted "user" Decoder.string ""

/-- The status. -/
def statusField : Decoder.Field Status := .defaulted "status" Status.decode .success

/-- The instances. -/
def instancesField : Decoder.Field (List Instance) :=
  .defaulted "components" (Decoder.list Instance.decode) []

/-- Reads the record of a host. -/
def decode : Decoder Host := fun d => do
  let found ← Decoder.fields "Host"
    [ipField.rule, userField.rule, statusField.rule, instancesField.rule] d
  return {
    ip := ← ipField.value found
    user := ← userField.value found
    status := ← statusField.value found
    instances := ← instancesField.value found }

end Host

namespace Topology

/-- The record of a topology. -/
def toJson (t : Topology) : Json :=
  .object [("cluster_name", .string t.clusterName), ("status", t.status.toJson),
    ("hosts", .array (t.hosts.map Host.toJson))]

/-- The name of the cluster. -/
def clusterNameField : Decoder.Field String := .required "cluster_name" Decoder.string

/-- The status. -/
def statusField : Decoder.Field Status := .defaulted "status" Status.decode .success

/-- The hosts. -/
def hostsField : Decoder.Field (List Host) := .defaulted "hosts" (Decoder.list Host.decode) []

/-- Reads the record of a topology. -/
def decode : Decoder Topology := fun d => do
  let found ← Decoder.fields "Topology"
    [clusterNameField.rule, statusField.rule, hostsField.rule] d
  return {
    clusterName := ← clusterNameField.value found
    status := ← statusField.value found
    hosts := ← hostsField.value found }

end Topology

end Inspection
