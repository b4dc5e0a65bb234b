import Inspection.Json.Draft
import Inspection.Text.Quoted

/-!
# Json — errors

What may be wrong with a document.  Either it is malformed, or a value in it is not what its place
asks for; the wording of the second kind names both.
-/

namespace Inspection

/-- A value met where another was expected. -/
inductive Found
  | null
  | bool (value : Bool)
  | number (value : Number)
  | string (value : String)
  | sequence
  | map
  deriving DecidableEq

/-- The wording of a value met. -/
def Found.describe : Found → String
  | null => "null"
  | bool true => "boolean `true`"
  | bool false => "boolean `false`"
  | number (.integer i) => "integer `" ++ Text.integer i ++ "`"
  | number (.double x) => "floating point `" ++ x.render ++ "`"
  | string s => "string " ++ Text.quoted s
  | sequence => "sequence"
  | map => "map"

/-- Why a document does not denote a value of a type. -/
inductive JsonError
  | invalidType (found : Found) (expected : String)
  | invalidValue (found : Int) (expected : String)
  | missingField (key : String)
  | duplicateField (key : String)
  | unknownVariant (name : String) (known : List String)
  | invalidLength (length : Nat) (record : String) (fields : Nat)
  | invalidTime (text : String)
  /-- It is no document, is too deep, or has a number or string without a value.  What is told of it
  may be unknown. -/
  | malformed (cause : Option String := none)
  deriving DecidableEq

namespace JsonError

/-- The variants that would have been known. -/
def choices : List String → String
  | [] => "there are no variants"
  | [a] => "expected `" ++ a ++ "`"
  | [a, b] => "expected `" ++ a ++ "` or `" ++ b ++ "`"
  | names => "expected one of " ++ String.intercalate ", " (names.map fun n => "`" ++ n ++ "`")

/-- The wording of an error.  How a time is told is left open. -/
def message : JsonError → String
  | invalidType found expected =>
    "invalid type: " ++ found.describe ++ ", expected " ++ expected
  | invalidValue found expected =>
    "invalid value: integer `" ++ Text.integer found ++ "`, expected " ++ expected
  | missingField key => "missing field `" ++ key ++ "`"
  | duplicateField key => "duplicate field `" ++ key ++ "`"
  | unknownVariant name known => "unknown variant `" ++ name ++ "`, " ++ choices known
  | invalidLength length record fields =>
    "invalid length " ++ Text.natural length ++ ", expected struct " ++ record ++ " with " ++
      Text.natural fields ++ (if fields = 1 then " element" else " elements")
  | invalidTime _ => "<json>"
  | malformed cause => cause.getD "<json>"

end JsonError

namespace Json.Draft

/-- The error of a value that stands where another is expected. -/
def mismatch (expected : String) : Draft → JsonError
  | null => .invalidType .null expected
  | bool b => .invalidType (.bool b) expected
  | number (some n) => .invalidType (.number n) expected
  | string (some s) => .invalidType (.string s) expected
  | array .. => .invalidType .sequence expected
  | object .. => .invalidType .map expected
  | number none | string none | broken => .malformed

end Json.Draft

end Inspection
