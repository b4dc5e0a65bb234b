import Inspection.Text.Decimal

/-!
# Duration

Compact durations such as `1h30m`, `90s` or `3600`, read as seconds.  A run of digits is counted
in the unit that follows it, and in seconds at the end of the text; a unit without digits counts
nothing.  Sums of 2⁶⁴ seconds and more are refused.
-/

namespace Inspection

/-- Why a text is not a duration. -/
inductive DurationError
  | unexpected (text : String) (found : Char)
  | tooLarge (text : String)
  deriving DecidableEq, Repr

namespace DurationError

/-- The wording of an error. -/
def message : DurationError → String
  | unexpected text found =>
    "invalid duration format '" ++ text ++ "': unexpected '" ++ String.singleton found ++ "'"
  | tooLarge text => "duration '" ++ text ++ "' is too large"

end DurationError

namespace Duration

/-- The seconds of a unit.  Seconds have the small letter only. -/
def unitSeconds? (c : Char) : Option Nat :=
  if c = 'h' ∨ c = 'H' then some 3600
  else if c = 'm' ∨ c = 'M' then some 60
  else if c = 's' then some 1
  else none

/-- Durations stay below this many seconds. -/
def bound : Nat := UInt64.size

/-- A sum of seconds, as long as it is below the bound. -/
def within (text : String) (seconds : Nat) : Except DurationError Nat :=
  if seconds < bound then .ok seconds else .error (.tooLarge text)

/-- Reads the rest of a duration, `total` seconds being closed by a unit and `run` being the value
of the digits after the last of them. -/
def readFrom (text : String) (total run : Nat) : List Char → Except DurationError Nat
  | [] => within text (total + run)
  | c :: rest =>
    match Text.digit? c with
    | some d => (within text (run * 10 + d)).bind fun run => readFrom text total run rest
    | none =>
      match unitSeconds? c with
      | some unit => (within text (total + run * unit)).bind fun total => readFrom text total 0 rest
      | none => .error (.unexpected text c)

/-- The seconds of a duration. -/
def read (text : String) : Except DurationError Nat := readFrom text 0 0 text.toList

end Duration

end Inspection
