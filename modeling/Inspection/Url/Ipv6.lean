import Inspection.Url.Ipv4

/-!
# Url — IPv6 addresses

Eight pieces of sixteen bits in hexadecimal.  One run of zero pieces may be left out between two
colons, and the last two pieces may be written as an IPv4 address.
-/

namespace Inspection.Url.Ipv6

/-- The value of one to four hexadecimal digits. -/
def piece? (cs : List Char) : Option Nat :=
  if cs.isEmpty ∨ cs.length > 4 then none else Ipv4.inBase? 16 cs

/-- A byte in decimal without a leading zero. -/
def byte? (cs : List Char) : Option Nat :=
  match cs with
  | '0' :: _ :: _ => none
  | cs => if cs.all Char.isDigit then (Text.valueOf? cs).filter (· ≤ 255) else none

/-- The two pieces of four bytes parted by points. -/
def dotted? (cs : List Char) : Option (List Nat) :=
  match (Text.split '.' cs).mapM byte? with
  | some [a, b, c, d] => some [a * 256 + b, c * 256 + d]
  | _ => none

/-- The pieces between single colons; the last may be an IPv4 address. -/
def pieces? : List (List Char) → Option (List Nat)
  | [] => some []
  | [last] => ((piece? last).map fun n => [n]).or (dotted? last)
  | cs :: rest => (piece? cs).bind fun n => (pieces? rest).map (n :: ·)

/-- The pieces of a text without double colons; there is none in an empty one. -/
def side? (cs : List Char) : Option (List Nat) :=
  if cs.isEmpty then some [] else pieces? (Text.split ':' cs)

/-- The places of a text where two colons stand, as the texts before and behind each. -/
def doubleColons : List Char → List (List Char × List Char)
  | ':' :: ':' :: rest => ([], rest) :: (doubleColons (':' :: rest)).map fun (a, b) => (':' :: a, b)
  | c :: rest => (doubleColons rest).map fun (a, b) => (c :: a, b)
  | [] => []

/-- The pieces of an address. -/
def read? (cs : List Char) : Option (List Nat) :=
  match doubleColons cs with
  | [] => (side? cs).filter (·.length = 8)
  | [(before, behind)] => do
    -- an IPv4 address ends the text, so it cannot stand before the colons
    if before.contains '.' then none
    let front ← side? before
    let back ← side? behind
    if front.length + back.length > 7 then none
    return front ++ List.replicate (8 - front.length - back.length) 0 ++ back
  | _ => none

/-- The begin and length of the first longest run of zeros. -/
def longestZeros (pieces : List Nat) : Nat × Nat :=
  (List.range pieces.length).foldl (fun best start =>
    let run := ((pieces.drop start).takeWhile (· = 0)).length
    if best.2 < run then (start, run) else best) (0, 0)

/-- The hexadecimal writing of some pieces, parted by colons. -/
def renderPieces (pieces : List Nat) : List Char :=
  Text.join [':'] (pieces.map (Nat.toDigits 16))

/-- The writing of an address: the first longest run of two zeros or more is left out. -/
def render (pieces : List Nat) : List Char :=
  let (start, run) := longestZeros pieces
  if run < 2 then renderPieces pieces
  else renderPieces (pieces.take start) ++ [':', ':'] ++ renderPieces (pieces.drop (start + run))

end Inspection.Url.Ipv6
