import Inspection.Json.Error
import Inspection.Json.Value

/-!
# Json — decoding

Values of a type out of a draft.  A decoder meets the parts of a draft in the order of the text and
gives the first error.

A record is an object with a value for each of its fields, or an array of these values in their
declared order.  Fields may be left out of an object when they have a value for that case, and
from the end of an array when they are declared so; unknown fields are passed over, and a known
field given twice is an error.
-/

namespace Inspection

/-- The type of decoders. -/
abbrev Decoder (α : Type) := Json.Draft → Except JsonError α

namespace Decoder

open Json (Draft)

variable {α : Type}

/-- A text; `expected` tells what for. -/
def text (expected : String) : Decoder String
  | .string (some s) => .ok s
  | d => .error (d.mismatch expected)

/-- A text. -/
def string : Decoder String := text "a string"

/-- The text of a path. -/
def path : Decoder String := text "path string"

/-- A truth value. -/
def bool : Decoder Bool
  | .bool b => .ok b
  | d => .error (d.mismatch "a boolean")

/-- A whole number up to a bound. -/
def unsigned (bound : Nat) (expected : String) : Decoder Nat
  | .number (some (.integer i)) =>
    if 0 ≤ i ∧ i ≤ bound then .ok i.toNat else .error (.invalidValue i expected)
  | d => .error (d.mismatch expected)

/-- A whole number of 64 bits that counts things. -/
def count : Decoder Nat := unsigned (UInt64.size - 1) "usize"

/-- A whole number of 64 bits. -/
def word64 : Decoder UInt64 := fun d => (unsigned (UInt64.size - 1) "u64" d).map UInt64.ofNat

/-- A whole number of 16 bits. -/
def word16 : Decoder UInt16 := fun d => (unsigned (UInt16.size - 1) "u16" d).map UInt16.ofNat

/-- A value, or null for none. -/
def optional (decode : Decoder α) : Decoder (Option α)
  | .null => .ok none
  | d => (decode d).map some

/-- The items of an array. -/
def list (decode : Decoder α) : Decoder (List α)
  | .array items closed => do
    let values ← items.mapM decode
    if closed then .ok values else .error .malformed
  | d => .error (d.mismatch "a sequence")

/-- The entries of an object. -/
def keyed (decode : Decoder α) : Decoder (Keyed α)
  | .object fields closed _ => do
    let entries ← fields.mapM fun (key, d) =>
      match key with
      | some key => (decode d).map fun value => (key, value)
      | none => .error .malformed
    if closed then .ok (Keyed.ofList entries) else .error .malformed
  | d => .error (d.mismatch "a map")

/-- One of some names: a string, or an object with that one key and the value null. -/
def variant (named : String → Except JsonError α) : Decoder α
  | .string (some s) => named s
  | .object [] _ (some stray) => .error (stray.mismatch "variant identifier")
  | .object ((some key, d) :: rest) closed _ => do
    let value ← named key
    match d with
    | .null => if rest.isEmpty ∧ closed then .ok value else .error .malformed
    | d => .error (d.mismatch "unit")
  | _ => .error .malformed

/-! ### Records -/

/-- A field of a record. -/
structure Field (α : Type) where
  key : String
  decode : Decoder α
  /-- The value where an object leaves the field out. -/
  absent : Option α
  /-- Whether an array may end before the field. -/
  trailing : Bool

/-- A field that is always there. -/
def Field.required (key : String) (decode : Decoder α) : Field α := ⟨key, decode, none, false⟩

/-- A field whose value may be null, and that objects may leave out then. -/
def Field.nullable (key : String) (decode : Decoder α) : Field (Option α) :=
  ⟨key, optional decode, some none, false⟩

/-- A field with a value for where it is left out. -/
def Field.defaulted (key : String) (decode : Decoder α) (value : α) : Field α :=
  ⟨key, decode, some value, true⟩

/-- What a record asks of a field, whatever its type. -/
structure Rule where
  key : String
  check : Draft → Except JsonError Unit
  required : Bool
  trailing : Bool

/-- The rule of a field. -/
def Field.rule (f : Field α) : Rule where
  key := f.key
  check d := (f.decode d).map fun _ => ()
  required := f.absent.isNone
  trailing := f.trailing

/-- The fields of an object that a record knows, the entries being met in their order. -/
def known (rules : List Rule) :
    List (String × Draft) → List (Option String × Draft) → Except JsonError (List (String × Draft))
  | done, [] => .ok done
  | done, (key, d) :: rest =>
    match key with
    | none => .error .malformed
    | some key =>
      match rules.find? (·.key = key) with
      | none => if d.whole then known rules done rest else .error .malformed
      | some rule =>
        if done.any (·.1 = key) then .error (.duplicateField key)
        else (rule.check d).bind fun _ => known rules (done ++ [(key, d)]) rest

/-- The items of an array under the keys of the fields in order. -/
def aligned (record : String) (total : Nat) :
    List Rule → List Draft → Bool → Except JsonError (List (String × Draft))
  | [], [], closed => if closed then .ok [] else .error .malformed
  | [], _ :: _, _ => .error .malformed
  | rule :: rules, [], closed =>
    if !closed then .error .malformed
    else if (rule :: rules).all (·.trailing) then .ok []
    else
      let skipped := ((rule :: rules).takeWhile (·.trailing)).length
      .error (.invalidLength (total - (rule :: rules).length + skipped) record total)
  | rule :: rules, d :: items, closed => do
    rule.check d
    let rest ← aligned record total rules items closed
    return (rule.key, d) :: rest

/-- The values of the fields of a record, each under its key. -/
def fields (record : String) (rules : List Rule) : Draft → Except JsonError (List (String × Draft))
  | .object entries closed _ => do
    let found ← known rules [] entries
    if !closed then .error .malformed
    match rules.find? fun rule => rule.required && !found.any (·.1 = rule.key) with
    | some rule => .error (.missingField rule.key)
    | none => .ok found
  | .array items closed => aligned record rules.length rules items closed
  | d => .error (d.mismatch ("struct " ++ record))

/-- The value of a field among those found. -/
def Field.value (f : Field α) (found : List (String × Draft)) : Except JsonError α :=
  match found.find? (·.1 = f.key), f.absent with
  | some (_, d), _ => f.decode d
  | none, some value => .ok value
  | none, none => .error (.missingField f.key)

/-! ### Whole documents -/

/-- The value of a document that is read up to its end. -/
def finish (decode : Decoder α) (reading : Draft.Reading) : Except JsonError α := do
  let value ← decode reading.draft
  if reading.complete then .ok value else .error .malformed

/-- The value of a text. -/
def ofText (decode : Decoder α) (text : String) : Except JsonError α :=
  finish decode (Draft.ofText text)

/-- The value of bytes. -/
def ofBytes (decode : Decoder α) (bytes : List UInt8) : Except JsonError α :=
  finish decode (Draft.ofBytes bytes)

end Decoder

namespace Json

/-- Documents may have this many containers inside each other. -/
def depthLimit : Nat := 127

mutual

/-- The value of a draft of at most some depth, with the keys of objects in order. -/
def ofDraft? : Nat → Draft → Option Json
  | _, .null => some .null
  | _, .bool b => some (.bool b)
  | _, .number n => n.map .number
  | _, .string s => s.map .string
  | depth + 1, .array items true => (ofItems? depth items).map .array
  | depth + 1, .object fields true _ =>
    (ofFields? depth fields).map fun fields => .object (Entries.sort fields)
  | _, _ => none

/-- The values of items. -/
def ofItems? (depth : Nat) : List Draft → Option (List Json)
  | [] => some []
  | d :: rest => (ofDraft? depth d).bind fun item => (ofItems? depth rest).map (item :: ·)

/-- The values of fields. -/
def ofFields? (depth : Nat) : List (Option String × Draft) → Option (List (String × Json))
  | [] => some []
  | (key, d) :: rest =>
    key.bind fun key => (ofDraft? depth d).bind fun value =>
      (ofFields? depth rest).map ((key, value) :: ·)

end

/-- Any value. -/
def decode : Decoder Json := fun d => (ofDraft? depthLimit d).elim (.error .malformed) .ok

/-- The value of bytes that are a document. -/
def read (bytes : List UInt8) : Except JsonError Json := Decoder.ofBytes decode bytes

end Json

end Inspection
