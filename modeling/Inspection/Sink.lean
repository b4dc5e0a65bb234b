import Inspection.Json.Decode
import Inspection.FileTree

/-!
# Sink

Where the bytes of an operation go: to a file as they are, to a file as JSON over several lines, or
nowhere.  A sink for JSON takes documents only, and writes nothing before it has seen that it has
one.
-/

namespace Inspection

/-- Why bytes were not put where they should go. -/
inductive SinkError
  /-- What the operating system says about it may be unknown. -/
  | write (path : String) (cause : Option String)
  | invalidJson (path : String) (reason : JsonError)
  deriving DecidableEq

/-- The wording of an error. -/
def SinkError.message : SinkError → String
  | write path cause => "Failed to write " ++ path ++ ": " ++ cause.getD "<io>"
  | invalidJson path reason =>
    "Collected data for " ++ path ++ " is not valid JSON: " ++ reason.message

/-- Where bytes go. -/
inductive Sink
  | file (path : String)
  | json (path : String)
  | discard
  deriving DecidableEq

namespace Sink

/-- What the sink is told as. -/
def title : Sink → String
  | file path | json path => path
  | discard => "discard"

/-- The file that is written. -/
def path? : Sink → Option String
  | file path | json path => some path
  | discard => none

/-- Writes a file, making its directory first. -/
def writeFile (tree : FileTree) (path : String) (content : List UInt8) :
    Except SinkError Unit × FileTree :=
  match tree.write path content with
  | (tree, true) => (.ok (), tree)
  | (tree, false) => (.error (.write path none), tree)

/-- A document over several lines, with the fields of every object in order. -/
def tidy (content : List UInt8) : Except JsonError (List UInt8) :=
  (Json.read content).map fun value => Text.encode value.pretty

/-- Puts bytes where they go. -/
def put (tree : FileTree) (content : List UInt8) : Sink → Except SinkError Unit × FileTree
  | file path => writeFile tree path content
  | json path =>
    match tidy content with
    | .ok tidied => writeFile tree path tidied
    | .error reason => (.error (.invalidJson path reason), tree)
  | discard => (.ok (), tree)

end Sink

end Inspection
