import Inspection.Json.Decode
import Inspection.Time.Rfc3339

/-!
# Time — instants in records

An instant in a record is its text.
-/

namespace Inspection.Instant

/-- The record of an instant. -/
def toJson (t : Instant) : Json := .string t.render

/-- Reads the record of an instant. -/
def decode : Decoder Instant
  | .string (some s) =>
    match read? s with
    | some t => .ok t
    | none => .error (.invalidTime s)
  | d => .error (d.mismatch "an RFC 3339 formatted date and time string")

end Inspection.Instant
