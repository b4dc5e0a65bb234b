import Inspection.Operation
import Inspection.Options
import Inspection.Profile
import Inspection.Topology

/-!
# Artifact — what shells give

The state of every host, the configuration files of services, and the logs of the run's window.
The first two come from the hosts; logs are cut by a program here, which writes them itself.

* `configuration?_isSome_iff`: the services that have a configuration file.
-/

namespace Inspection.Artifact

/-- The files on the state of a host, and the command whose output each one holds. -/
def hostCommands : List (String × String) :=
  [("dmesg.txt", "dmesg"), ("netstat.txt", "netstat -s"), ("vmstat.txt", "vmstat 1 5"),
    ("df.txt", "df -h"), ("meminfo.txt", "cat /proc/meminfo")]

/-- The operations on the state of a host. -/
def hostState (root : String) (h : Host) : List Operation :=
  hostCommands.map fun (file, command) => {
    collector := .remote ⟨h.user, h.ip, command⟩
    sink := .file (Path.join (Path.join (Path.join root "basic") h.ip) file)
    hook := none }

/-- A directory without the slashes at its end. -/
def withoutSlashes (directory : String) : String :=
  String.ofList (directory.toList.reverse.dropWhile (· = '/')).reverse

/-- Whether a service has a configuration file. -/
def hasConfiguration : ServiceKind → Bool
  | .tidb | .tikv | .pd => true
  | _ => false

/-- The operation that fetches the configuration file of an instance. -/
def configuration? (root user ip : String) (i : Instance) : Option Operation :=
  if hasConfiguration i.kind then
    let file := i.kind.name ++ ".toml"
    some {
      collector := .remote ⟨user, ip, "cat " ++ withoutSlashes i.deployDir ++ "/conf/" ++ file⟩
      sink := .file (Path.join (Path.join (Path.join root "config") (addressOf ip i.port)) file)
      hook := none }
  else none

/-- The operation that cuts the logs of the window. -/
def logs (root : String) (o : Options) : Except TargetError Operation := do
  let missing (argument : Argument) := TargetError.missingArgument .log argument
  let source ← o.logDir.elim (.error (missing .logDir)) .ok
  let program ← o.logSpliter.elim (.error (missing .logSpliter)) .ok
  let start ← o.windowBegin.elim (.error (missing .windowBegin)) .ok
  let finish ← o.windowEnd.elim (.error (missing .windowEnd)) .ok
  return {
    collector := .program program
      ["--src=" ++ source, "--dst=" ++ Path.join root "log", "--begin=" ++ start.renderOffset,
        "--end=" ++ finish.renderOffset]
    sink := .discard
    hook := none }

theorem configuration?_isSome_iff (root user ip : String) (i : Instance) :
    (configuration? root user ip i).isSome ↔ hasConfiguration i.kind := by
  unfold configuration?
  split <;> simp_all

end Inspection.Artifact
