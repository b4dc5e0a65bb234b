/-!
# YAML — characters and places

The characters of a YAML text, and a place in it: what is left of the text, the number of
characters before, the line and the column.

* `length_skip`, `length_skipBreak`: going on leaves less.
-/

namespace Inspection.Yaml

/-- Whether a character may stand in a text at all. -/
def isReadable (c : Char) : Bool :=
  let n := c.toNat
  n = 0x09 || n = 0x0A || n = 0x0D || (0x20 ≤ n && n ≤ 0x7E) || n = 0x85 ||
    (0xA0 ≤ n && n ≤ 0xD7FF) || (0xE000 ≤ n && n ≤ 0xFFFD) || 0x10000 ≤ n

/-- Blanks within a line. -/
def isBlank (c : Char) : Bool := c = ' ' || c = '\t'

/-- Ends of lines. -/
def isBreak (c : Char) : Bool :=
  c = '\r' || c = '\n' || c = '\u0085' || c = '\u2028' || c = '\u2029'

/-- Characters between words. -/
def isGap (c : Char) : Bool := isBlank c || isBreak c

/-- Characters of names. -/
def isNameChar (c : Char) : Bool := c.isAlphanum || c = '_' || c = '-'

/-- Whether a text ends, or goes on with a blank or a break. -/
def endsWord : List Char → Bool
  | [] => true
  | c :: _ => isGap c

/-- Whether a line ends, or the text. -/
def endsLine : List Char → Bool
  | [] => true
  | c :: _ => isBreak c

/-- A break as the content of a scalar. -/
def breakText (c : Char) : List Char := if c = '\u2028' || c = '\u2029' then [c] else ['\n']

/-- A place in a text. -/
structure Cursor where
  rest : List Char
  index : Nat
  line : Nat
  column : Nat

namespace Cursor

/-- The beginning of a text. -/
def start (text : List Char) : Cursor := ⟨text, 0, 0, 0⟩

/-- Goes on within a line. -/
def skip (c : Cursor) (n : Nat) : Cursor :=
  { c with rest := c.rest.drop n, index := c.index + n, column := c.column + n }

/-- Goes on behind a break; a return and the feed behind it are one break. -/
def skipBreak (c : Cursor) : Cursor :=
  match c.rest with
  | '\r' :: '\n' :: rest => ⟨rest, c.index + 2, c.line + 1, 0⟩
  | _ => ⟨c.rest.drop 1, c.index + 1, c.line + 1, 0⟩

/-- Goes on as long as characters have a property; they stand in one line. -/
def skipWhile (c : Cursor) (p : Char → Bool) : Cursor := c.skip (c.rest.takeWhile p).length

/-- Goes on to the end of the line. -/
def skipLine (c : Cursor) : Cursor := c.skipWhile fun x => !isBreak x

/-- Goes on behind a comment, if there is one. -/
def skipComment (c : Cursor) : Cursor :=
  match c.rest with
  | '#' :: _ => c.skipLine
  | _ => c

/-- Whether the mark of a document stands here. -/
def atMark (c : Cursor) (mark : Char) : Bool :=
  c.column = 0 && c.rest.take 3 = [mark, mark, mark] && endsWord (c.rest.drop 3)

/-- Whether a document begins or ends here. -/
def atDocument (c : Cursor) : Bool := c.atMark '-' || c.atMark '.'

theorem length_skip {c : Cursor} {x : Char} {rest : List Char} (h : c.rest = x :: rest) :
    (c.skip 1).rest.length < c.rest.length := by
  simp [skip, h]

theorem length_skipBreak {c : Cursor} {x : Char} {rest : List Char} (h : c.rest = x :: rest) :
    c.skipBreak.rest.length < c.rest.length := by
  unfold skipBreak
  split
  · rename_i eq
    simp only [eq, List.length_cons]
    omega
  · simp [h]

end Cursor

end Inspection.Yaml
