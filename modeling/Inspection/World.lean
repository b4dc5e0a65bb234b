import Inspection.FileTree
import Inspection.Text.Split
import Inspection.Text.Utf8
import Inspection.Time.Instant

/-!
# World

What a run meets: servers that answer requests or do not, programs that can be started, the
variables of its environment, and the time.  A program may change the file tree.
-/

namespace Inspection

/-- What comes of a request. -/
inductive Reply
  /-- No connection; the cause is told by whoever made it. -/
  | refused
  /-- Nothing within the time given. -/
  | silent
  | answer (status : Nat) (body : List UInt8)

/-- What comes of starting a program. -/
inductive Execution
  /-- There is no such program. -/
  | notStarted
  | finished (success : Bool) (output errors : List UInt8)

/-- A name of the environment and its value, as bytes. -/
abbrev Variable := List UInt8 × List UInt8

/-- The variable of an entry of an environment: a name, which is not empty, and the value behind the
equals sign that ends the name. -/
def Variable.ofEntry? (entry : List UInt8) : Option Variable :=
  match entry with
  | [] => none
  | first :: rest =>
    match rest.dropWhile (· ≠ 0x3D) with
    | [] => none
    | _ :: value => some (first :: rest.takeWhile (· ≠ 0x3D), value)

/-- The variables of an environment whose entries each end in a zero byte. -/
def Variable.ofBlock (block : List UInt8) : List Variable :=
  (Text.split 0 block).filterMap Variable.ofEntry?

/-- The surroundings of a run. -/
structure World where
  /-- The reply to a request for a URL, with its limit in seconds. -/
  request : String → Option Nat → Reply
  /-- The execution of a program with arguments, and the tree after it. -/
  execute : FileTree → String → List String → Execution × FileTree
  environment : List Variable
  now : Instant

namespace World

/-- The value of a variable. -/
def valueOf? (w : World) (name : String) : Option (List UInt8) :=
  (w.environment.find? (·.1 = Text.encode name)).map (·.2)

end World

end Inspection
