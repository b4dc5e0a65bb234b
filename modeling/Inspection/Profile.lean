import Inspection.Operation
import Inspection.Options
import Inspection.Topology

/-!
# Profile

What is sampled from a service: the profiles that services written in Go serve over HTTP, and a
recording of the processor's work for the others.  Sampling takes the seconds that the options say,
and then the request may take a little longer.
-/

namespace Inspection

/-- The profiles that are served over HTTP. -/
inductive ProfileKind
  | cpu
  | heap
  | block
  | allocs
  | goroutine
  | mutex
  | threadCreate
  | trace
  deriving DecidableEq, Repr

namespace ProfileKind

/-- Every profile, in the order they are taken. -/
def all : List ProfileKind := [cpu, heap, block, allocs, goroutine, mutex, threadCreate, trace]

/-- The path that serves the profile. -/
def endpoint : ProfileKind → String
  | cpu => "/debug/pprof/profile"
  | heap => "/debug/pprof/heap"
  | block => "/debug/pprof/block"
  | allocs => "/debug/pprof/allocs"
  | goroutine => "/debug/pprof/goroutine"
  | mutex => "/debug/pprof/mutex"
  | threadCreate => "/debug/pprof/threadcreate"
  | trace => "/debug/pprof/trace"

/-- The name of the profile. -/
def name : ProfileKind → String
  | cpu => "cpu"
  | heap => "mem"
  | block => "block"
  | allocs => "allocs"
  | goroutine => "goroutine"
  | mutex => "mutex"
  | threadCreate => "threadcreate"
  | trace => "trace"

/-- What follows the name in that of the file. -/
def suffix : ProfileKind → String
  | trace => ".out"
  | _ => ".pb.gz"

/-- The file that holds the profile. -/
def fileName (k : ProfileKind) : String := k.name ++ k.suffix

/-- Whether the server samples before it answers. -/
def isSampled : ProfileKind → Bool
  | cpu | trace => true
  | _ => false

end ProfileKind

/-- An address: a host and a port, or the host alone. -/
def addressOf (ip : String) : Option UInt16 → String
  | some port => ip ++ ":" ++ Text.natural port.toNat
  | none => ip

namespace Profile

/-- The directory of the profiles of an instance. -/
def directory (root : String) (kind : ServiceKind) (ip : String) (port : UInt16) : String :=
  Path.join (Path.join (Path.join root "profile") kind.name) (addressOf ip (some port))

/-- The operation that takes one profile over HTTP. -/
def served (root : String) (kind : ServiceKind) (ip : String) (port : UInt16) (o : Options)
    (profile : ProfileKind) : Operation where
  collector := .http {
    name := profile.name
    address := addressOf ip (some port)
    path := profile.endpoint
    params := if profile.isSampled then [("seconds", Text.natural o.profileSeconds.toNat)] else []
    timeout := some (if profile.isSampled then o.profileTimeout else o.httpTimeout.toNat) }
  sink := .file (Path.join (directory root kind ip port) profile.fileName)
  hook := none

/-- The file of a recording on the host. -/
def recordingPath (port : UInt16) : String :=
  "/tmp/diagpilot_perf_" ++ Text.natural port.toNat ++ ".data"

/-- The command that records what the process behind a port does, and gives the recording out. -/
def recordingCommand (port : UInt16) (seconds : UInt64) : String :=
  "perf record -F 99 -g -p $(/usr/sbin/lsof -tiTCP:" ++ Text.natural port.toNat ++
    " -sTCP:LISTEN -P -n) -o " ++ recordingPath port ++ " -- sleep " ++
    Text.natural seconds.toNat ++ " >/dev/null 2>&1 && cat " ++ recordingPath port ++
    " && rm -f " ++ recordingPath port

/-- The operation that records. -/
def recorded (root : String) (user ip : String) (port : UInt16) (o : Options) : Operation where
  collector := .remote ⟨user, ip, recordingCommand port o.profileSeconds⟩
  sink := .file (Path.join (directory root .tikv ip port) "perf.data")
  hook := none

/-- The operations that profile an instance; `none` for services that are not profiled. -/
def operations? (root : String) (kind : ServiceKind) (user ip : String) (port : UInt16)
    (o : Options) : Option (List Operation) :=
  match kind with
  | .tidb | .pd => some (ProfileKind.all.map (served root kind ip port o))
  | .tikv => some [recorded root user ip port o]
  | _ => none

end Profile

/-- An instance to be profiled, written `service:ip:port`. -/
structure ProfileTarget where
  kind : ServiceKind
  ip : String
  port : UInt16
  deriving DecidableEq

namespace ProfileTarget

/-- The text of a target. -/
def render (t : ProfileTarget) : String :=
  t.kind.name ++ ":" ++ t.ip ++ ":" ++ Text.natural t.port.toNat

/-- Reads the segments of a target. -/
def read (segments : List String) : Except TargetError ProfileTarget :=
  let invalid fault := Except.error
    (TargetError.invalidOption .profile (String.intercalate ":" segments) fault)
  match segments with
  | [service, ip, port] =>
    match ServiceKind.ofName? service with
    | none => invalid .unknownService
    | some kind =>
      match Text.unsigned? (UInt16.size - 1) port.toList with
      | none => invalid .portNotANumber
      | some port => .ok ⟨kind, ip, UInt16.ofNat port⟩
  | _ => invalid .notAnEndpoint

end ProfileTarget

end Inspection
