import Inspection.FileTree
import Inspection.Text.Utf8
import Inspection.Topology
import Inspection.Yaml.Decode

/-!
# Topology — files

A topology read from a file: YAML where the name of the file says so, and JSON elsewhere.
-/

namespace Inspection

/-- Why a file gives no topology. -/
inductive TopologyError
  | io
  | json (reason : JsonError)
  | yaml
  deriving DecidableEq

/-- The wording of an error.  What the operating system says, and how malformed YAML is told, is
left open. -/
def TopologyError.message : TopologyError → String
  | io => "IO error: <io>"
  | json reason => "Invalid topology JSON: " ++ reason.message
  | yaml => "Invalid topology YAML: <yaml>"

/-- Reads a status. -/
def Status.ofYaml : Yaml.Decoder Status := Yaml.Decoder.variant fun s => (named s).toOption

/-- Reads a kind of services. -/
def ServiceKind.ofYaml : Yaml.Decoder ServiceKind := Yaml.Decoder.variant fun s => some (named s)

/-- Reads an instance. -/
def Instance.ofYaml : Yaml.Decoder Instance := fun doc n => do
  let found ← Yaml.Decoder.fields ["name", "status", "deploy_dir", "port", "status_port"] doc n
  let port := Yaml.Decoder.optional Yaml.Decoder.word16
  return {
    kind := ← Yaml.Decoder.required "name" ServiceKind.ofYaml found doc
    status := ← Yaml.Decoder.defaulted "status" Status.ofYaml .success found doc
    deployDir := ← Yaml.Decoder.defaulted "deploy_dir" Yaml.Decoder.text "" found doc
    port := ← Yaml.Decoder.defaulted "port" port none found doc
    statusPort := ← Yaml.Decoder.defaulted "status_port" port none found doc }

/-- Reads a host. -/
def Host.ofYaml : Yaml.Decoder Host := fun doc n => do
  let found ← Yaml.Decoder.fields ["ip", "user", "status", "components"] doc n
  let instances := Yaml.Decoder.list Instance.ofYaml
  return {
    ip := ← Yaml.Decoder.required "ip" Yaml.Decoder.text found doc
    user := ← Yaml.Decoder.defaulted "user" Yaml.Decoder.text "" found doc
    status := ← Yaml.Decoder.defaulted "status" Status.ofYaml .success found doc
    instances := ← Yaml.Decoder.defaulted "components" instances [] found doc }

namespace Topology

/-- Reads a topology. -/
def ofYaml : Yaml.Decoder Topology := fun doc n => do
  let found ← Yaml.Decoder.fields ["cluster_name", "status", "hosts"] doc n
  let hosts := Yaml.Decoder.list Host.ofYaml
  return {
    clusterName := ← Yaml.Decoder.required "cluster_name" Yaml.Decoder.text found doc
    status := ← Yaml.Decoder.defaulted "status" Status.ofYaml .success found doc
    hosts := ← Yaml.Decoder.defaulted "hosts" hosts [] found doc }

/-- Whether the name of a file says that it holds YAML. -/
def isYamlPath (path : String) : Bool :=
  let extension := Path.extension? path
  extension = some "yaml" || extension = some "yml"

/-- The topology of a text, in one of the two formats. -/
def ofText (yaml : Bool) (text : String) : Except TopologyError Topology :=
  if yaml then (Yaml.Decoder.ofText? ofYaml text).elim (.error .yaml) .ok
  else (Decoder.ofText Topology.decode text).mapError .json

/-- Loads a topology from a file, which holds a text. -/
def load (tree : FileTree) (path : String) : Except TopologyError Topology :=
  match (tree.read? path).bind Text.decode? with
  | some text => ofText (isYamlPath path) text
  | none => .error .io

end Topology

end Inspection
