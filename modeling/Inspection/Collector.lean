import Inspection.Json.Value
import Inspection.Text.Blank
import Inspection.Url.Basic
import Inspection.World

/-!
# Collector

Sources of bytes: the body of a request, the output of a program here or on a host, a value of the
run itself, the environment.  A collector has a name, which tells what it does, and gives bytes or
the reason why there are none; a task that dies gives neither.
-/

namespace Inspection

/-- Why nothing could be collected. -/
inductive CollectorError
  /-- No connection.  What the network says about it may be unknown. -/
  | connection (cause : Option String)
  | timeout (seconds : Nat)
  | httpStatus (url : String) (status : Nat)
  | command (command errors : String)
  | preparation (cause : String)
  /-- A fault of the operating system.  What it says about it may be unknown. -/
  | io (cause : Option String)
  /-- A value that has no document. -/
  | serialization (cause : String)
  | badUrl (base : String) (reason : UrlError)
  | other (text : String)
  deriving DecidableEq

namespace CollectorError

/-- The wording of an error.  What the network or the operating system says is left open. -/
def message : CollectorError → String
  | connection cause => "Connection failed: " ++ cause.getD "<cause>"
  | timeout seconds => "Collection timeout after " ++ Text.natural seconds ++ " seconds"
  | httpStatus url status => "HTTP " ++ Text.natural status ++ " from " ++ url
  | command line errors => "Command `" ++ line ++ "` failed: " ++ errors
  | preparation cause => "Preparation failed: " ++ cause
  | io cause => "IO error: " ++ cause.getD "<io>"
  | serialization cause => "Serialization error: " ++ cause
  | badUrl base reason => "Other error: invalid url " ++ base ++ ": " ++ reason.message
  | other text => "Other error: " ++ text

end CollectorError

/-- A request: `http://` address path, with segments behind the path and query parameters. -/
structure Request where
  name : String
  address : String
  path : String
  segments : List String := []
  params : List (String × String) := []
  /-- The limit in seconds. -/
  timeout : Option Nat := none
  deriving DecidableEq

namespace Request

/-- The text that the URL is read from. -/
def base (r : Request) : String := "http://" ++ r.address ++ r.path

/-- The URL that is requested. -/
def url (r : Request) : Except CollectorError Url :=
  match Url.read ("//" ++ r.address ++ r.path) with
  | .ok url => .ok ((url.withSegments r.segments).withParams r.params)
  | .error reason => .error (.badUrl r.base reason)

/-- What the request is told as. -/
def title (r : Request) : String :=
  r.name ++ " " ++ r.base ++ String.join (r.segments.map fun s => "/" ++ s)

end Request

/-- A command for the shell of a host. -/
structure RemoteCommand where
  user : String
  host : String
  command : String
  deriving DecidableEq

namespace RemoteCommand

/-- The user, if there is one, and the host. -/
def destination (c : RemoteCommand) : String :=
  if c.user = "" then c.host else c.user ++ "@" ++ c.host

/-- Never ask, and give up on hosts that do not answer. -/
def options : List String := ["BatchMode=yes", "StrictHostKeyChecking=no", "ConnectTimeout=10"]

/-- The arguments of the login program. -/
def arguments (c : RemoteCommand) : List String :=
  options.flatMap (fun o => ["-o", o]) ++ [c.destination, c.command]

/-- The login program. -/
def program : String := "ssh"

end RemoteCommand

/-- What a collector yields. -/
inductive Yield
  | bytes (content : List UInt8)
  | failure (error : CollectorError)
  /-- Nothing, since its task died; the text tells of it. -/
  | death (text : String)
  deriving DecidableEq

/-- The bytes or the reason why there are none. -/
def Yield.ofExcept : Except CollectorError (List UInt8) → Yield
  | .ok content => bytes content
  | .error e => failure e

/-- The sources of bytes. -/
inductive Collector
  | http (request : Request)
  | remote (command : RemoteCommand)
  | program (path : String) (arguments : List String)
  /-- A value as it was when the operation was planned. -/
  | snapshot (name : String) (value : Json)
  /-- A value that a hook may change. -/
  | held (name : String) (value : Json)
  | environment
  /-- Stands for what could not be prepared. -/
  | preparation (name cause : String)
  /-- Yields the same in every world. -/
  | fixed (name : String) (yield : Yield)

/-- What came of collecting: what was yielded, the tree after it, and the URLs requested. -/
structure Collected where
  yield : Yield
  tree : FileTree
  requested : List String

namespace Collector

/-- What the collector is told as. -/
def title : Collector → String
  | http request => request.title
  | remote c => "ssh " ++ c.destination ++ " '" ++ c.command ++ "'"
  | program path _ => "exec " ++ path
  | snapshot name _ | held name _ | preparation name _ | fixed name _ => name
  | environment => "environment"

/-- The program and its arguments as they are told. -/
def commandLine (program : String) (arguments : List String) : String :=
  program ++ " " ++ String.intercalate " " arguments

/-- The bytes of a response. -/
def ofReply (url : String) (timeout : Option Nat) : Reply → Except CollectorError (List UInt8)
  | .answer status body =>
    if 200 ≤ status ∧ status < 300 then .ok body else .error (.httpStatus url status)
  | .silent => .error ((timeout.map CollectorError.timeout).getD (.connection none))
  | .refused => .error (.connection none)

/-- The output of a program. -/
def ofExecution (program : String) (arguments : List String) :
    Execution → Except CollectorError (List UInt8)
  | .notStarted => .error (.io none)
  | .finished true output _ => .ok output
  | .finished false _ errors =>
    .error (.command (commandLine program arguments) (Text.trim (Text.decodeLossy errors)))

/-- Runs a program. -/
def run (w : World) (tree : FileTree) (program : String) (arguments : List String) : Collected :=
  let (execution, tree) := w.execute tree program arguments
  ⟨.ofExcept (ofExecution program arguments execution), tree, []⟩

/-- Makes a request.  It is made only if there is a URL, and told only if something answers. -/
def fetch (w : World) (request : Request) : Except CollectorError (List UInt8) × List String :=
  match request.url with
  | .error e => (.error e, [])
  | .ok url =>
    let reply := w.request url.render request.timeout
    (ofReply url.render request.timeout reply, match reply with
      | .answer .. => [url.render]
      | _ => [])

/-- The variables of the environment as a value, in the order of their names. -/
def environmentJson (environment : List Variable) : Json :=
  .object (Entries.sort (environment.map fun (name, value) =>
    (Text.decodeLossy name, .string (Text.decodeLossy value))))

/-- Collects. -/
def collect (w : World) (tree : FileTree) : Collector → Collected
  | http request =>
    let (result, requested) := fetch w request
    ⟨.ofExcept result, tree, requested⟩
  | remote c => run w tree RemoteCommand.program c.arguments
  | program path arguments => run w tree path arguments
  | snapshot _ value | held _ value => ⟨.bytes (Text.encode value.compact), tree, []⟩
  | environment => ⟨.bytes (Text.encode (environmentJson w.environment).compact), tree, []⟩
  | preparation _ cause => ⟨.failure (.preparation cause), tree, []⟩
  | fixed _ yield => ⟨yield, tree, []⟩

end Collector

end Inspection
