import Inspection.Options
import Inspection.World

/-!
# Command line

What the arguments of the program and its environment ask for.  Options stand before and behind the
name of a command; a value follows its option, or an equals sign.  A value is checked when the next
option comes, so of several faults the first one that is noticed is told.  Variables of the
environment stand for options that are not given.
-/

namespace Inspection

namespace CommandLine

/-- Why the arguments are not followed; asking for help or the version is one of the reasons. -/
inductive Fault
  | help
  | version
  /-- There are no arguments at all. -/
  | nothingGiven
  | missingCommand
  | missingArgument
  | unknownCommand
  | unknownArgument
  | repeated
  /-- A value for an option that takes none. -/
  | unwantedValue
  /-- A value that is missing, empty or none of the choices. -/
  | invalidValue
  /-- A value that is no number or time. -/
  | malformedValue
  /-- A value that is no text. -/
  | notText
  deriving DecidableEq, Repr

/-- The wording of a fault. -/
def Fault.message : Fault → String
  | help => "help was asked for"
  | version => "the version was asked for"
  | nothingGiven => "no arguments were given"
  | missingCommand => "a command is required"
  | missingArgument => "a required argument was not given"
  | unknownCommand => "no such command"
  | unknownArgument => "an argument was not expected"
  | repeated => "an option cannot be used twice"
  | unwantedValue => "an option takes no value"
  | invalidValue => "the value of an option is missing or not allowed"
  | malformedValue => "the value of an option cannot be read"
  | notText => "a value is no text"

/-- The options of the program and its commands. -/
inductive Name
  | help
  | version
  | verbose
  | logFormat
  | inspectionId
  | dataDir
  | topology
  | collect
  | windowBegin
  | windowEnd
  | logDir
  | logSpliter
  | profileSeconds
  | httpTimeout
  | concurrency
  | archive
  deriving DecidableEq, Repr

namespace Name

/-- The name behind two dashes. -/
def long : Name → String
  | help => "help"
  | version => "version"
  | verbose => "verbose"
  | logFormat => "log-format"
  | inspectionId => "inspection-id"
  | dataDir => "data-dir"
  | topology => "topology"
  | collect => "collect"
  | windowBegin => "begin"
  | windowEnd => "end"
  | logDir => "log-dir"
  | logSpliter => "log-spliter"
  | profileSeconds => "profile-seconds"
  | httpTimeout => "http-timeout"
  | concurrency => "concurrency"
  | archive => "archive"

/-- The letter behind one dash. -/
def short? : Name → Option Char
  | help => some 'h'
  | version => some 'V'
  | verbose => some 'v'
  | topology => some 't'
  | collect => some 'c'
  | _ => none

/-- Whether a value belongs to the option. -/
def takesValue : Name → Bool
  | help | version | verbose | archive => false
  | _ => true

/-- The variable of the environment that stands for the option. -/
def environmentKey? : Name → Option String
  | inspectionId => some "DIAGPILOT_INSPECTION_ID"
  | dataDir => some "DIAGPILOT_DATA_DIR"
  | topology => some "DIAGPILOT_TOPOLOGY"
  | logSpliter => some "DIAGPILOT_LOG_SPLITER"
  | _ => none

end Name

/-- The formats of the log. -/
inductive LogFormat
  | text
  | json
  deriving DecidableEq, Repr

namespace LogFormat

/-- The name of a format. -/
def name : LogFormat → String
  | text => "text"
  | json => "json"

/-- The format of a name. -/
def ofName? (s : String) : Option LogFormat := [text, json].find? (·.name = s)

end LogFormat

/-- Numbers of options stay below 2⁶⁴. -/
def number? (s : String) : Option Nat := Text.unsigned? (UInt64.size - 1) s.toList

/-- A condition on a value. -/
def demand (fault : Fault) (condition : Bool) : Except Fault Unit :=
  if condition then .ok () else .error fault

/-- Checks a value of an option. -/
def check (n : Name) (value : String) : Except Fault Unit :=
  match n with
  | .logFormat => demand .invalidValue (LogFormat.ofName? value).isSome
  | .dataDir | .topology | .logDir | .logSpliter => demand .invalidValue (value ≠ "")
  | .windowBegin | .windowEnd => demand .malformedValue (Instant.read? value).isSome
  | .profileSeconds | .httpTimeout | .concurrency =>
    demand .malformedValue (number? value).isSome
  | _ => .ok ()

/-! ### Going through arguments -/

/-- The options given with their values, flags having empty ones, and the option that was met last:
its value, once there is one, is still to be checked. -/
structure Gathered where
  given : List (Name × String) := []
  waiting : Option (Name × Option String) := none

namespace Gathered

/-- The value given for an option. -/
def value? (g : Gathered) (n : Name) : Option String := (g.given.find? (·.1 = n)).map (·.2)

/-- Whether an option is given. -/
def has (g : Gathered) (n : Name) : Bool := (g.value? n).isSome

/-- Takes an option with its value, which is given once. -/
def take (g : Gathered) (n : Name) (value : String) : Except Fault Gathered :=
  if g.has n then .error .repeated
  else (check n value).map fun _ => { g with given := g.given ++ [(n, value)] }

/-- Takes the option that waits, if one does. -/
def resolve (g : Gathered) : Except Fault Gathered :=
  match g.waiting with
  | none => .ok g
  | some (_, none) => .error .invalidValue
  | some (n, some value) => { g with waiting := none }.take n value

/-- Whether the value of an option comes next. -/
def awaitsValue (g : Gathered) : Bool :=
  match g.waiting with
  | some (_, none) => true
  | _ => false

/-- Takes an option that has no value. -/
def takeFlag (g : Gathered) (n : Name) : Except Fault Gathered := do
  let g ← g.resolve
  match n with
  | .help => .error .help
  | .version => .error .version
  | n => g.take n ""

/-- Takes an option and the value attached to it, or waits for the value. -/
def takeOption (g : Gathered) (n : Name) (attached : Option String) : Except Fault Gathered := do
  let g ← g.resolve
  match attached with
  | some value => g.take n value
  | none => return { g with waiting := some (n, none) }

end Gathered

/-- The options and the names of commands that are known at a place. -/
structure Level where
  options : List Name
  commands : List String

/-- Takes an argument behind two dashes. -/
def takeLong (level : Level) (g : Gathered) (cs : List Char) : Except Fault Gathered :=
  let name := String.ofList (cs.takeWhile (· ≠ '='))
  let attached := match cs.dropWhile (· ≠ '=') with
    | [] => none
    | _ :: value => some (String.ofList value)
  match level.options.find? (·.long = name) with
  | none => .error .unknownArgument
  | some n =>
    if n.takesValue then g.takeOption n attached
    else if attached.isSome then .error .unwantedValue
    else g.takeFlag n

/-- What stands behind the letter of an option: its value, with or without an equals sign. -/
def attachedToLetter : List Char → Option String
  | [] => none
  | '=' :: value => some (String.ofList value)
  | value => some (String.ofList value)

/-- Takes letters behind one dash: flags, and at last maybe an option with its value. -/
def takeShort (level : Level) (g : Gathered) : List Char → Except Fault Gathered
  | [] => .ok g
  | c :: rest =>
    match level.options.find? (·.short? = some c) with
    | none => .error .unknownArgument
    | some n =>
      if n.takesValue then g.takeOption n (attachedToLetter rest)
      else (g.takeFlag n).bind fun g => takeShort level g rest

/-- The fault of an argument that is no option and no value. -/
def Level.stray (level : Level) : Fault :=
  if level.commands.isEmpty then .unknownArgument else .unknownCommand

/-- The fault of an argument behind two lone dashes. -/
def Level.strayBehindDashes (level : Level) (arg : String) : Fault :=
  if level.commands.contains arg then .unknownArgument else level.stray

/-- Goes through arguments up to the name of a command; gives the name and what follows. -/
def scan (level : Level) (g : Gathered) :
    List String → Except Fault (Gathered × Option (String × List String))
  | [] => .ok (g, none)
  | arg :: rest =>
    if !g.awaitsValue && level.commands.contains arg then .ok (g, some (arg, rest))
    else
      match arg.toList with
      | ['-', '-'] =>
        match rest with
        | [] => .ok (g, none)
        | next :: _ => .error (level.strayBehindDashes next)
      | '-' :: '-' :: cs => (takeLong level g cs).bind fun g => scan level g rest
      | '-' :: c :: cs => (takeShort level g (c :: cs)).bind fun g => scan level g rest
      | _ =>
        match g.waiting with
        | some (n, none) => scan level { g with waiting := some (n, some arg) } rest
        | _ => .error level.stray

/-! ### Commands -/

/-- The arguments of a run. -/
structure RunArguments where
  inspectionId : Option String
  dataDir : Option String
  topology : String
  collect : String
  windowBegin : Option Instant
  windowEnd : Option Instant
  logDir : Option String
  logSpliter : Option String
  profileSeconds : UInt64
  httpTimeout : UInt64
  /-- How many operations run at once at most. -/
  concurrency : Option Nat
  archive : Bool
  deriving DecidableEq

/-- What is to be done. -/
inductive Command
  | inspect (arguments : RunArguments)
  | plan (arguments : RunArguments)
  | info
  deriving DecidableEq

/-- The options that stand at every place. -/
def common : List Name := [.verbose, .logFormat, .help]

/-- The options of a run, in the order their variables are looked at. -/
def ofRun : List Name :=
  [.inspectionId, .dataDir, .topology, .collect, .windowBegin, .windowEnd, .logDir, .logSpliter,
    .profileSeconds, .httpTimeout, .concurrency, .archive]

/-- The names of commands. -/
def commandNames : List String := ["inspect", "plan", "info", "help"]

/-- Before the name of a command. -/
def top : Level := ⟨common ++ [.version], commandNames⟩

/-- Behind the name of a command that runs. -/
def runLevel : Level := ⟨common ++ ofRun, []⟩

/-- Behind the name of the command that tells of the program. -/
def infoLevel : Level := ⟨common, []⟩

/-- The text of a variable that stands for an option.  Paths may be any bytes. -/
def environmentText (n : Name) (bytes : List UInt8) : Except Fault String :=
  match n with
  | .inspectionId => (Text.decode? bytes).elim (.error .notText) .ok
  | _ => .ok (Text.decodeLossy bytes)

/-- Takes the variables of options that are not given. -/
def takeEnvironment (w : World) (g : Gathered) : List Name → Except Fault Gathered
  | [] => .ok g
  | n :: rest =>
    match n.environmentKey?.bind w.valueOf?, g.has n with
    | some bytes, false => do
      let g ← g.take n (← environmentText n bytes)
      takeEnvironment w g rest
    | _, _ => takeEnvironment w g rest

/-- What is collected unless stated otherwise. -/
def defaultCollect : String := "basic,config,profile,metric,dbinfo"

/-- The seconds given for an option, or others. -/
def secondsOf (g : Gathered) (n : Name) (others : UInt64) : UInt64 :=
  (((g.value? n).bind number?).map UInt64.ofNat).getD others

/-- The arguments of a run, of which the topology has to be given. -/
def runArguments (g : Gathered) : Except Fault RunArguments := do
  let topology ← (g.value? .topology).elim (.error .missingArgument) .ok
  return {
    inspectionId := g.value? .inspectionId
    dataDir := g.value? .dataDir
    topology
    collect := (g.value? .collect).getD defaultCollect
    windowBegin := (g.value? .windowBegin).bind Instant.read?
    windowEnd := (g.value? .windowEnd).bind Instant.read?
    logDir := g.value? .logDir
    logSpliter := g.value? .logSpliter
    profileSeconds := secondsOf g .profileSeconds Options.defaultProfileSeconds
    httpTimeout := secondsOf g .httpTimeout Options.defaultHttpTimeout
    concurrency := (g.value? .concurrency).bind number?
    archive := g.has .archive }

/-- Reads what follows the name of a command: the options, and the arguments of a run. -/
def readRun (w : World) (args : List String) : Except Fault (Gathered × RunArguments) := do
  let (g, _) ← scan runLevel {} args
  let g ← g.resolve
  let g ← takeEnvironment w g ofRun
  return (g, ← runArguments g)

/-- Reads what follows the name of the command that tells of the program. -/
def readInfo (args : List String) : Except Fault Gathered := do
  let (g, _) ← scan infoLevel {} args
  g.resolve

/-- The fault of asking for help on commands. -/
def helpOn : List String → Fault
  | [] => .help
  | [name] => if commandNames.contains name then .help else .unknownCommand
  | _ => .unknownCommand

/-- Reads a command and what follows it. -/
def readCommand (w : World) (name : String) (args : List String) :
    Except Fault (Gathered × Command) :=
  match name with
  | "inspect" => (readRun w args).map fun (g, a) => (g, .inspect a)
  | "plan" => (readRun w args).map fun (g, a) => (g, .plan a)
  | "info" => (readInfo args).map fun g => (g, .info)
  | _ => .error (helpOn args)

end CommandLine

/-- A command line that is followed. -/
structure CommandLine where
  verbose : Bool
  logFormat : CommandLine.LogFormat
  command : CommandLine.Command

namespace CommandLine

/-- Reads the arguments of the program.  What follows a command is read before the options in front
of it are settled, and wins over them. -/
def read (w : World) (args : List String) : Except Fault CommandLine := do
  let (front, found) ← scan top {} args
  match found with
  | none =>
    let front ← front.resolve
    .error (if front.given.isEmpty then .nothingGiven else .missingCommand)
  | some (name, rest) =>
    let (back, command) ← readCommand w name rest
    let front ← front.resolve
    let format := (back.value? .logFormat).or (front.value? .logFormat)
    return {
      verbose := front.has .verbose || back.has .verbose
      logFormat := (format.bind LogFormat.ofName?).getD .text
      command }

/-- The directory of all runs where none is given. -/
def defaultDataDir (w : World) : String :=
  let home := match w.valueOf? "HOME" with
    | some (b :: bytes) => Text.decodeLossy (b :: bytes)
    | _ => "."
  Path.join (Path.join home ".diagpilot") "inspection"

/-- The options of a run, with a fresh identifier for one that has none. -/
def RunArguments.options (a : RunArguments) (w : World) (fresh : String) : Options where
  inspectionId := a.inspectionId.getD fresh
  dataDir := a.dataDir.getD (defaultDataDir w)
  collect := a.collect
  windowBegin := a.windowBegin
  windowEnd := a.windowEnd
  logDir := a.logDir
  logSpliter := a.logSpliter
  profileSeconds := a.profileSeconds
  httpTimeout := a.httpTimeout

/-- How the program is called. -/
def usage : String :=
  "Usage: diagpilot [OPTIONS] <COMMAND>\n\nCommands: inspect, plan, info, help\n"

/-- The name and version of the program. -/
def versionLine : String := "diagpilot 0.1.0\n"

end CommandLine

end Inspection
