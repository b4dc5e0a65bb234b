import Inspection.Json.Number
import Inspection.Keyed

/-!
# Json — values

Documents as values, and their writing.  A value is written on one line or over several, indented
by two spaces a level; the two differ in blanks only, so there is one writer over a layout.

An object is a list of fields.  A record is written with its fields in their declared order, and a
value that was read has them in the order of their keys (`sorted`).
-/

namespace Inspection

/-- The values of a document. -/
inductive Json
  | null
  | bool (value : Bool)
  | number (value : Number)
  | string (value : String)
  | array (items : List Json)
  | object (fields : List (String × Json))

namespace Json

/-- A whole number as a value. -/
def natural (n : Nat) : Json := .number (.integer n)

/-- A value that may be absent. -/
def optional {α : Type} (write : α → Json) : Option α → Json
  | none => .null
  | some x => write x

mutual

/-- The value with the fields of every object in the order of their keys, the last of each key. -/
def sorted : Json → Json
  | .array items => .array (sortedItems items)
  | .object fields => .object (Entries.sort (sortedFields fields))
  | value => value

/-- The items of an array, sorted each. -/
def sortedItems : List Json → List Json
  | [] => []
  | item :: rest => sorted item :: sortedItems rest

/-- The fields of an object, the value of each being sorted. -/
def sortedFields : List (String × Json) → List (String × Json)
  | [] => []
  | (key, value) :: rest => (key, sorted value) :: sortedFields rest

end

/-- The value of a field. -/
def field? (key : String) : Json → Option Json
  | .object fields => (fields.find? (·.1 = key)).map (·.2)
  | _ => none

/-- Sets a field of an object in its place, or behind the others. -/
def setField (key : String) (value : Json) : List (String × Json) → List (String × Json)
  | [] => [(key, value)]
  | entry :: rest =>
    if entry.1 = key then (key, value) :: rest else entry :: setField key value rest

/-! ### Writing -/

/-- The blanks of a writing: those before an item at a depth, and those between a key and its
value. -/
structure Layout where
  newline : Nat → List Char
  gap : List Char

/-- No blanks at all. -/
def Layout.compact : Layout := ⟨fun _ => [], []⟩

/-- One item a line, indented by two spaces a level. -/
def Layout.pretty : Layout := ⟨fun depth => '\n' :: List.replicate (2 * depth) ' ', [' ']⟩

/-- A hexadecimal digit. -/
def hexDigit (n : Nat) : Char := n.digitChar

/-- A character as it stands in a string. -/
def escape (c : Char) : List Char :=
  if c = '"' then ['\\', '"']
  else if c = '\\' then ['\\', '\\']
  else if c = '\x08' then ['\\', 'b']
  else if c = '\x0c' then ['\\', 'f']
  else if c = '\n' then ['\\', 'n']
  else if c = '\r' then ['\\', 'r']
  else if c = '\t' then ['\\', 't']
  else if c.toNat < 0x20 then
    ['\\', 'u', '0', '0', hexDigit (c.toNat / 16), hexDigit (c.toNat % 16)]
  else [c]

/-- A text between quotes. -/
def writeString (s : String) : List Char := '"' :: s.toList.flatMap escape ++ ['"']

mutual

/-- Writes a value that stands at a depth. -/
def write (layout : Layout) (depth : Nat) : Json → List Char
  | .null => ['n', 'u', 'l', 'l']
  | .bool true => ['t', 'r', 'u', 'e']
  | .bool false => ['f', 'a', 'l', 's', 'e']
  | .number value => value.render.toList
  | .string value => writeString value
  | .array [] => ['[', ']']
  | .array (item :: rest) =>
    '[' :: layout.newline (depth + 1) ++ write layout (depth + 1) item ++
      writeItems layout (depth + 1) rest ++ layout.newline depth ++ [']']
  | .object [] => ['\x7b', '\x7d']
  | .object ((key, value) :: rest) =>
    '\x7b' :: layout.newline (depth + 1) ++ writeString key ++ [':'] ++ layout.gap ++
      write layout (depth + 1) value ++ writeFields layout (depth + 1) rest ++
      layout.newline depth ++ ['\x7d']

/-- Writes the further items of an array. -/
def writeItems (layout : Layout) (depth : Nat) : List Json → List Char
  | [] => []
  | item :: rest =>
    ',' :: layout.newline depth ++ write layout depth item ++ writeItems layout depth rest

/-- Writes the further fields of an object. -/
def writeFields (layout : Layout) (depth : Nat) : List (String × Json) → List Char
  | [] => []
  | (key, value) :: rest =>
    ',' :: layout.newline depth ++ writeString key ++ [':'] ++ layout.gap ++
      write layout depth value ++ writeFields layout depth rest

end

/-- The writing on one line. -/
def compact (value : Json) : String := String.ofList (value.write .compact 0)

/-- The writing over several lines. -/
def pretty (value : Json) : String := String.ofList (value.write .pretty 0)

end Json

end Inspection
