import Inspection.Category
import Inspection.Text.Blank
import Inspection.Text.Split

/-!
# Target

What a run is asked to collect, written `basic,metric:1h,profile:tidb:10.0.0.1:10080`.  A target
is a category and a qualifier; a specification gives the qualifiers of every category, in the
order written.

* `qualifiers_ofTargets`: a specification depends on the order within a category only.
-/

namespace Inspection

/-- What stands behind the name of a category. -/
inductive Qualifier
  /-- Nothing, as in `basic`. -/
  | flag
  /-- One segment, as in `metric:1h`. -/
  | value (text : String)
  /-- Several segments, as in `profile:tidb:10.0.0.1:10080`. -/
  | parts (segments : List String)
  deriving DecidableEq, Repr

namespace Qualifier

/-- The qualifier made of the segments behind a name. -/
def ofSegments : List String → Qualifier
  | [] => flag
  | [text] => value text
  | segments => parts segments

/-- Whether nothing stands behind the name. -/
def isFlag : Qualifier → Bool
  | flag => true
  | _ => false

/-- The segments behind the name. -/
def segments : Qualifier → List String
  | flag => []
  | value text => [text]
  | parts segments => segments

end Qualifier

/-- The options of a run that a category may depend on. -/
inductive Argument
  | logDir
  | logSpliter
  | windowBegin
  | windowEnd
  deriving DecidableEq, Repr

/-- The name of an option on the command line. -/
def Argument.name : Argument → String
  | logDir => "log-dir"
  | logSpliter => "log-spliter"
  | windowBegin => "begin"
  | windowEnd => "end"

/-- What is wrong with a qualifier. -/
inductive QualifierFault
  | notOneDuration
  | notAnEndpoint
  | unknownService
  | portNotANumber
  | notProfiled (service : String)
  deriving DecidableEq, Repr

/-- The wording of a fault. -/
def QualifierFault.reason : QualifierFault → String
  | notOneDuration => "expected a single duration such as 1h"
  | notAnEndpoint => "expected service:ip:port"
  | unknownService => "unknown service"
  | portNotANumber => "port is not a number"
  | notProfiled service => service ++ " cannot be profiled"

/-- Why a request cannot be met. -/
inductive TargetError
  | unsupported (name : String)
  | missingArgument (category : Category) (argument : Argument)
  | invalidOption (category : Category) (value : String) (fault : QualifierFault)
  deriving DecidableEq, Repr

/-- The wording of an error. -/
def TargetError.message : TargetError → String
  | unsupported name => "unsupported target: " ++ name
  | missingArgument category argument =>
    "target '" ++ category.name ++ "' requires argument --" ++ argument.name
  | invalidOption category value fault =>
    "invalid option '" ++ value ++ "' for target '" ++ category.name ++ "': " ++ fault.reason

/-- A category and what stands behind its name. -/
abbrev Target := Category × Qualifier

namespace Target

/-- Reads one target, such as `metric:1h`. -/
def read (token : String) : Except TargetError Target :=
  match Text.pieces ':' token with
  | [] => .error (.unsupported "")
  | name :: segments =>
    match Category.ofName? name with
    | some category => .ok (category, Qualifier.ofSegments segments)
    | none => .error (.unsupported name)

/-- Writes one target. -/
def render (t : Target) : String :=
  String.intercalate ":" (t.1.name :: t.2.segments)

/-- The targets of a text: its pieces between commas, trimmed, without the empty ones. -/
def tokens (text : String) : List String :=
  ((Text.pieces ',' text).map Text.trim).filter (· ≠ "")

end Target

/-- The qualifiers requested for each category, in the order written. -/
structure TargetSpec where
  qualifiers : Category → List Qualifier

namespace TargetSpec

/-- The specification that some targets make. -/
def ofTargets (targets : List Target) : TargetSpec where
  qualifiers c := targets.filterMap fun t => if t.1 = c then some t.2 else none

/-- Reads a specification.  The first target that names no category is the error. -/
def read (text : String) : Except TargetError TargetSpec :=
  ((Target.tokens text).mapM Target.read).map ofTargets

/-- Whether a category is requested. -/
def contains (spec : TargetSpec) (c : Category) : Bool := !(spec.qualifiers c).isEmpty

/-- The requested categories, in order. -/
def categories (spec : TargetSpec) : List Category := Category.all.filter spec.contains

/-- The first qualifier of a category that says something. -/
def choice? (spec : TargetSpec) (c : Category) : Option Qualifier :=
  (spec.qualifiers c).find? (!·.isFlag)

theorem qualifiers_ofTargets (ts : List Target) (c : Category) :
    (ofTargets ts).qualifiers c = ts.filterMap fun t => if t.1 = c then some t.2 else none := rfl

@[ext] theorem ext {a b : TargetSpec} (h : ∀ c, a.qualifiers c = b.qualifiers c) : a = b := by
  cases a
  cases b
  simp only [mk.injEq]
  exact funext h

end TargetSpec

end Inspection
