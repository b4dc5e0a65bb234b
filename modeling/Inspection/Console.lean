import Inspection.Plan.Basic
import Inspection.Report
import Inspection.Statistics

/-!
# Console

What is printed: a plan before a run, a summary after it, and what the program is.  Texts are
coloured on terminals that show colours.
-/

namespace Inspection.Console

/-- The ways a text is made to stand out. -/
inductive Ink
  | title
  | heading
  | faint
  | good
  | bad
  | caution
  deriving DecidableEq, Repr

/-- Begins an ink on the terminal. -/
def Ink.start : Ink → String
  | title => "\x1b[1;97m"
  | heading => "\x1b[1;96m"
  | faint => "\x1b[90m"
  | good => "\x1b[92m"
  | bad => "\x1b[91m"
  | caution => "\x1b[93m"

/-- Ends every ink. -/
def finish : String := "\x1b[0m"

/-- A text in which an ink begins again behind every place that ends one. -/
def resumed (ink : Ink) : List Char → List Char
  | [] => []
  | c :: rest =>
    if finish.toList.isPrefixOf (c :: rest) then
      finish.toList ++ ink.start.toList ++ resumed ink (rest.drop (finish.length - 1))
    else c :: resumed ink rest
termination_by cs => cs.length
decreasing_by
  · simp only [List.length_drop, List.length_cons]
    omega
  · simp

/-- Blanks behind a text up to a width. -/
def padded (width : Nat) (text : String) : String :=
  text ++ String.ofList (List.replicate (width - text.length) ' ')

/-- A text in an ink, if there are colours. -/
def paint (colour : Bool) (ink : Ink) (text : String) : String :=
  if colour then ink.start ++ String.ofList (resumed ink text.toList) ++ finish else text

/-- A line across the terminal. -/
def rule (colour : Bool) : String :=
  paint colour .faint (String.ofList (List.replicate 80 '═'))

/-- Lines, each with its end. -/
def lines (ls : List String) : String := String.join (ls.map (· ++ "\n"))

/-! ### Plans -/

/-- A group of a plan: its name and size, and its operations. -/
def group (colour : Bool) (c : Category) (os : List Operation) : List String :=
  let header := c.name ++ " (" ++ Text.natural os.length ++ ")"
  if os.isEmpty then ["", paint colour .faint header]
  else ["", paint colour .heading header] ++ os.map fun o => "  • " ++ o.label

/-- A plan. -/
def plan (colour : Bool) (p : Plan) : String :=
  lines (["", paint colour .title "📋 Inspection plan" ++ " " ++ paint colour .faint p.inspectionId,
      rule colour] ++
    p.groups.flatMap (fun (c, os) => group colour c os) ++
    ["", "Total operations: " ++ Text.natural p.size])

/-! ### Summaries -/

/-- The state of a group. -/
def state (colour : Bool) : GroupState → String
  | .success => paint colour .good (padded 8 "success")
  | .error => paint colour .bad (padded 8 "error")

/-- A failure. -/
def failure (colour : Bool) (f : Failure) : List String :=
  ["    " ++ paint colour .bad "✗" ++ " " ++ f.operation,
    "      " ++ paint colour .caution f.message]

/-- The status of a group. -/
def status (colour : Bool) (name : String) (s : GroupStatus) : List String :=
  ["  " ++ padded 12 name ++ " " ++ state colour s.state ++ " " ++
      Text.natural s.succeeded ++ "/" ++ Text.natural s.total ++ " ok"] ++
    s.failures.flatMap (failure colour)

/-- Whether all went well. -/
def verdict (colour : Bool) (r : Report) : String :=
  if r.isSuccess then "✅ " ++ paint colour .good "All operations succeeded"
  else "⚠️  " ++ paint colour .caution
    (Text.natural r.failed ++ " of " ++ Text.natural r.total ++ " operations failed")

/-- A summary of a run. -/
def summary (colour : Bool) (r : Report) (s : Statistics) : String :=
  lines (["", paint colour .title "📊 Inspection summary", rule colour] ++
    r.groups.entries.flatMap (fun (name, s) => status colour name s) ++
    ["", "  Files written: " ++ Text.natural s.files,
      "  Total size:    " ++ Text.natural s.bytes ++ " bytes",
      "  Duration:      " ++ Text.natural s.seconds.toNat ++ "s", "", verdict colour r])

/-! ### The program -/

/-- What the program is. -/
def info : String :=
  lines ["DiagPilot v0.1.0", "Diagnostic artifact collector for TiDB clusters", "",
    "Authors: SoftwareMill <hello@softwaremill.com>", "License: Apache-2.0", "",
    "For more information, visit: https://github.com/softwaremill/diagpilot"]

end Inspection.Console
