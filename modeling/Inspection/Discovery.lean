import Inspection.Collector
import Inspection.Json.Decode

/-!
# Discovery

What a cluster is asked while a run is planned: the databases of a TiDB server and the metrics of a
Prometheus server.  A discovery is any way of answering; one of them is over the network.
-/

namespace Inspection

/-- A question to a server. -/
inductive Query
  | databases (address : String)
  | metrics (address : String)
  deriving DecidableEq, Repr

/-- Why a question was not answered. -/
inductive DiscoveryError
  | request (address : String) (error : CollectorError)
  | answer (address : String) (reason : JsonError)
  deriving DecidableEq

/-- The wording of an error. -/
def DiscoveryError.message : DiscoveryError → String
  | request address error => "request to " ++ address ++ " failed: " ++ error.message
  | answer address reason => "unexpected response from " ++ address ++ ": " ++ reason.message

/-- A way of answering questions by names. -/
abbrev Discovery := Query → Except DiscoveryError (List String)

namespace Query

/-- The server that is asked. -/
def address : Query → String
  | databases address | metrics address => address

/-- The name of what is asked for. -/
def title : Query → String
  | databases _ => "database discovery"
  | metrics _ => "metric discovery"

/-- The request of a question. -/
def request (timeout : Nat) : Query → Request
  | databases address =>
    { name := "schema list", address, path := "/schema", timeout := some timeout }
  | metrics address =>
    { name := "metric list", address, path := "/api/v1/label/__name__/values",
      timeout := some timeout }

/-- The name of a database. -/
def lowerField : Decoder.Field String := .required "L" Decoder.string

/-- Reads the name of a database. -/
def decodeName : Decoder String := fun d => do
  lowerField.value (← Decoder.fields "SchemaName" [lowerField.rule] d)

/-- The name in the description of a database. -/
def nameField : Decoder.Field String := .required "db_name" decodeName

/-- Reads the description of a database. -/
def decodeEntry : Decoder String := fun d => do
  nameField.value (← Decoder.fields "SchemaEntry" [nameField.rule] d)

/-- The names in the description of metrics. -/
def dataField : Decoder.Field (List String) := .required "data" (Decoder.list Decoder.string)

/-- Reads the description of metrics. -/
def decodeLabels : Decoder (List String) := fun d => do
  dataField.value (← Decoder.fields "LabelValues" [dataField.rule] d)

/-- Reads the answer to a question. -/
def decode : Query → Decoder (List String)
  | databases _ => Decoder.list decodeEntry
  | metrics _ => decodeLabels

/-- The answer of the network to a question, and the URLs requested. -/
def ask (w : World) (timeout : Nat) (q : Query) :
    Except DiscoveryError (List String) × List String :=
  let (result, requested) := Collector.fetch w (q.request timeout)
  match result with
  | .error error => (.error (.request q.address error), requested)
  | .ok body =>
    match Decoder.ofBytes q.decode body with
    | .ok names => (.ok names, requested)
    | .error reason => (.error (.answer q.address reason), requested)

end Query

/-- The answers of the network. -/
def Discovery.overNetwork (w : World) (timeout : Nat) : Discovery := fun q => (q.ask w timeout).1

end Inspection
