import Inspection.Text.Printable
import Inspection.Text.Split
import Inspection.Url.Punycode

/-!
# Url — domain names

Names in the form that is sent to name servers: letters made small, wide forms replaced by plain
ones, labels outside ASCII in Punycode.  Names with a character that has no place in a host, or
with a label that does not denote one, are refused.
-/

namespace Inspection.Url.Domain

/-- The small letter of a capital one of the Latin, Greek, Cyrillic and Armenian alphabets. -/
def small (n : Nat) : Nat :=
  if (0x41 ≤ n ∧ n ≤ 0x5A) ∨ (0xC0 ≤ n ∧ n ≤ 0xDE ∧ n ≠ 0xD7) ∨ (0x391 ≤ n ∧ n ≤ 0x3A9) ∨
    (0x410 ≤ n ∧ n ≤ 0x42F) then n + 32
  else if 0x400 ≤ n ∧ n ≤ 0x40F then n + 80
  else if 0x531 ≤ n ∧ n ≤ 0x556 then n + 48
  else if ((0x100 ≤ n ∧ n ≤ 0x12F) ∨ (0x14A ≤ n ∧ n ≤ 0x177) ∨ (0x460 ≤ n ∧ n ≤ 0x481) ∨
    (0x48A ≤ n ∧ n ≤ 0x4BF) ∨ (0x4D0 ≤ n ∧ n ≤ 0x52F) ∨ (0x1E00 ≤ n ∧ n ≤ 0x1E95) ∨
    (0x1EA0 ≤ n ∧ n ≤ 0x1EFF)) ∧ n % 2 = 0 then n + 1
  else if ((0x139 ≤ n ∧ n ≤ 0x148) ∨ (0x179 ≤ n ∧ n ≤ 0x17E)) ∧ n % 2 = 1 then n + 1
  else n

/-- What a character of a name stands for: a plain point for every kind of full stop, a plain
character for a wide one, nothing for an invisible one, a small letter for a capital one. -/
def mapped (c : Char) : List Char :=
  let n := c.toNat
  if n = 0x3002 ∨ n = 0xFF0E ∨ n = 0xFF61 then ['.']
  else if 0xFF01 ≤ n ∧ n ≤ 0xFF5E then [Char.ofNat (small (n - 0xFEE0))]
  else if n = 0x3000 ∨ n = 0xA0 then [' ']
  else if n = 0xAD ∨ n = 0x200B ∨ n = 0x2060 ∨ n = 0xFEFF ∨ (0xFE00 ≤ n ∧ n ≤ 0xFE0F) then []
  else [Char.ofNat (small n)]

/-- The characters of ASCII that have no place in a host. -/
def isForbidden (c : Char) : Bool :=
  c.toNat ≤ 0x20 || c.toNat == 0x7F ||
    ['%', '#', '/', ':', '<', '>', '?', '@', '[', '\\', ']', '^', '|'].contains c

/-- Whether a character may stand in a label. -/
def isAllowed (c : Char) : Bool :=
  if c.toNat < 0x80 then !isForbidden c
  else c ≠ '\uFFFD' && !Text.inRanges Text.shapeless c.toNat

/-- Whether a label outside ASCII is one: its characters may stand in it, and the first of them
does not extend another. -/
def isLabel (label : List Char) : Bool :=
  label.all isAllowed && label.head?.all fun c => !Text.inRanges Text.extending c.toNat

/-- The form of a label that is sent. -/
def label? (label : List Char) : Option (List Char) :=
  match label with
  | 'x' :: 'n' :: '-' :: '-' :: written =>
    (Punycode.decode? written).bind fun decoded =>
      if decoded.any (0x80 ≤ ·.toNat) ∧ isLabel decoded ∧ Punycode.encode decoded = written then
        some label
      else none
  | label =>
    if label.all (·.toNat < 0x80) then
      if label.any isForbidden then none else some label
    else if isLabel label then some (['x', 'n', '-', '-'] ++ Punycode.encode label)
    else none

/-- The form of a name that is sent. -/
def toAscii? (name : List Char) : Option (List Char) :=
  ((Text.split '.' (name.flatMap mapped)).mapM label?).map (Text.join ['.'])

end Inspection.Url.Domain
