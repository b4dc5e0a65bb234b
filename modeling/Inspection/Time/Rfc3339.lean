import Inspection.Arithmetic
import Inspection.Text.Blank
import Inspection.Text.Decimal
import Inspection.Time.Instant

/-!
# Time — RFC 3339

The text of an instant.  Written are the date and time in UTC with no, 3, 6 or 9 digits of
fraction, as many as are needed, and years outside 0 to 9999 with a sign.

Reading is more liberal: numbers may lack their zeros, blanks may stand before numbers, dashes and
colons, date and time may be parted by a space, and the offset may be any below a day.
-/

namespace Inspection.Instant

/-! ### Writing -/

/-- A number with zeros before it up to a width. -/
def padded (width n : Nat) : List Char :=
  let digits := Nat.toDigits 10 n
  List.replicate (width - digits.length) '0' ++ digits

/-- A year: four digits, or a sign and at least four digits. -/
def renderYear (year : Int) : List Char :=
  if 0 ≤ year ∧ year ≤ 9999 then padded 4 year.toNat
  else (if year < 0 then '-' else '+') :: padded 4 year.natAbs

/-- The fraction of a second. -/
def renderFraction (nanos : Nat) : List Char :=
  if nanos = 0 then []
  else if nanos % 1000000 = 0 then '.' :: padded 3 (nanos / 1000000)
  else if nanos % 1000 = 0 then '.' :: padded 6 (nanos / 1000)
  else '.' :: padded 9 nanos

/-- Date and time in UTC. -/
def renderLocal (t : Instant) : List Char :=
  let date := t.date
  let time := t.secondOfDay.toNat
  renderYear date.year ++ '-' :: padded 2 date.month ++ '-' :: padded 2 date.day ++
    'T' :: padded 2 (time / 3600) ++ ':' :: padded 2 (time / 60 % 60) ++
    ':' :: padded 2 (time % 60 + t.nanos / billion) ++ renderFraction (t.nanos % billion)

/-- The text of an instant, as records hold it. -/
def render (t : Instant) : String := String.ofList (t.renderLocal ++ ['Z'])

/-- The text of an instant with its offset spelled out. -/
def renderOffset (t : Instant) : String :=
  String.ofList (t.renderLocal ++ ['+', '0', '0', ':', '0', '0'])

/-! ### Reading -/

/-- A text without the blanks it begins with. -/
def skipBlanks (cs : List Char) : List Char := cs.dropWhile Text.isBlank

/-- The value of some digits. -/
def digitsValue (ds : List Char) : Nat := ds.foldl (fun n d => n * 10 + (d.toNat - '0'.toNat)) 0

/-- A number of at least one digit and at most `width`, and the rest. -/
def number? (width : Nat) (cs : List Char) : Option (Nat × List Char) :=
  let ds := (cs.take width).takeWhile Char.isDigit
  if ds.isEmpty then none else some (digitsValue ds, cs.drop ds.length)

/-- A number within bounds, after blanks. -/
def bounded? (width low high : Nat) (cs : List Char) : Option (Nat × List Char) :=
  (number? width (skipBlanks cs)).filter fun found => low ≤ found.1 && found.1 ≤ high

/-- Years have 32 bits. -/
def yearBound : Nat := 2147483648

/-- A year: up to four digits, or any number of them after a sign. -/
def year? (cs : List Char) : Option (Int × List Char) :=
  let found : Option (Int × List Char) := match skipBlanks cs with
    | '-' :: rest => (number? rest.length rest).map fun (n, rest) => (-(n : Int), rest)
    | '+' :: rest => (number? rest.length rest).map fun (n, rest) => ((n : Int), rest)
    | rest => (number? 4 rest).map fun (n, rest) => ((n : Int), rest)
  found.filter fun (y, _) => -(yearBound : Int) ≤ y && y < yearBound

/-- One character, after blanks. -/
def mark? (c : Char) (cs : List Char) : Option (List Char) :=
  match skipBlanks cs with
  | [] => none
  | first :: rest => if first = c then some rest else none

/-- The nanoseconds of a fraction.  Digits after the ninth say nothing. -/
def fraction? : List Char → Option (Nat × List Char)
  | '.' :: rest =>
    let ds := (rest.take 9).takeWhile Char.isDigit
    if ds.isEmpty then none
    else
      some (digitsValue ds * Arithmetic.tenTo (9 - ds.length),
        (rest.drop ds.length).dropWhile Char.isDigit)
  | cs => some (0, cs)

/-- The sign of an offset, set for minus. -/
def sign? : List Char → Option (Bool × List Char)
  | '+' :: rest => some (false, rest)
  | '-' :: rest => some (true, rest)
  | '\u2212' :: rest => some (true, rest)
  | _ => none

/-- Two digits. -/
def pair? : List Char → Option (Nat × List Char)
  | a :: b :: rest => if a.isDigit ∧ b.isDigit then some (digitsValue [a, b], rest) else none
  | _ => none

/-- Whether a text begins with `UTC`, in any case. -/
def utc? (cs : List Char) : Option (List Char) :=
  if (cs.take 3).map Char.toUpper = ['U', 'T', 'C'] then some (cs.drop 3) else none

/-- The seconds of an offset. -/
def offset? (cs : List Char) : Option (Int × List Char) :=
  match utc? cs, cs with
  | some rest, _ => some (0, rest)
  | none, 'Z' :: rest => some (0, rest)
  | none, 'z' :: rest => some (0, rest)
  | none, cs => do
    let (negative, cs) ← sign? cs
    let (hours, cs) ← pair? cs
    let (minutes, cs) ← pair? (cs.dropWhile fun c => c = ':' || Text.isBlank c)
    if minutes ≥ 60 then none
    let seconds : Int := hours * 3600 + minutes * 60
    if seconds ≥ daySeconds then none
    return (if negative then -seconds else seconds, cs)

/-- The instant of a date and time in an offset. -/
def ofLocal? (date : Date) (hour minute second nanos : Nat) (offset : Int) : Option Instant := do
  if !date.isValid ∨ date.year < -262143 ∨ 262142 < date.year then none
  let (second, nanos) := if second = 60 then (59, nanos + billion) else (second, nanos)
  let time : Int := hour * 3600 + minute * 60 + second
  ofParts? (date.toDays * daySeconds + time - offset) nanos

/-- Reads an instant. -/
def read? (text : String) : Option Instant := do
  let (year, cs) ← year? text.toList
  let cs ← mark? '-' cs
  let (month, cs) ← bounded? 2 1 12 cs
  let cs ← mark? '-' cs
  let (day, cs) ← bounded? 2 1 31 cs
  let cs ← match cs with
    | 't' :: cs | 'T' :: cs | ' ' :: cs => some cs
    | _ => none
  let (hour, cs) ← bounded? 2 0 23 cs
  let cs ← mark? ':' cs
  let (minute, cs) ← bounded? 2 0 59 cs
  let cs ← mark? ':' cs
  let (second, cs) ← bounded? 2 0 60 cs
  let (nanos, cs) ← fraction? cs
  let (offset, cs) ← offset? (skipBlanks cs)
  if !(skipBlanks cs).isEmpty then none
  ofLocal? ⟨year, month, day⟩ hour minute second nanos offset

end Inspection.Instant
