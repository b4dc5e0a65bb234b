import Inspection.Yaml.Cursor

/-!
# YAML — scalars

The texts of scalars in their five styles.  A line that ends within a plain or quoted scalar is a
space, and further lines that end are kept; a block scalar keeps its lines, or folds those that do
not begin with a blank.
-/

namespace Inspection.Yaml

/-- The styles of scalars. -/
inductive Style
  | plain
  | single
  | double
  | literal
  | folded
  deriving DecidableEq, Repr

/-! ### Gaps -/

/-- What stands between two words of a scalar: blanks, or breaks, the first of which may be escaped
and is empty then. -/
structure Gap where
  blanks : List Char := []
  broken : Bool := false
  first : List Char := []
  further : List Char := []

/-- The content that a gap is. -/
def Gap.text (g : Gap) : List Char :=
  if !g.broken then g.blanks
  else if g.first = ['\n'] then if g.further.isEmpty then [' '] else g.further
  else g.first ++ g.further

/-- The gap at a place, and the place behind it.  At the beginning of a line, tabs may not stand in
columns before the one given. -/
def Gap.read (column : Nat) (g : Gap) (c : Cursor) : Option (Gap × Cursor) :=
  match _h : c.rest with
  | [] => some (g, c)
  | x :: _ =>
    if isBlank x then
      if g.broken && c.column < column && x = '\t' then none
      else
        let blanks := if g.broken then g.blanks else g.blanks ++ [x]
        Gap.read column { g with blanks } (c.skip 1)
    else if isBreak x then
      Gap.read column
        (if g.broken then { g with further := g.further ++ breakText x }
          else { g with blanks := [], broken := true, first := breakText x })
        c.skipBreak
    else some (g, c)
termination_by c.rest.length
decreasing_by
  · exact Cursor.length_skip _h
  · exact Cursor.length_skipBreak _h

/-! ### Plain scalars -/

/-- Indicators that end a plain scalar between brackets. -/
def isFlowEnd (c : Char) : Bool := c = ',' || c = '[' || c = ']' || c = '\x7b' || c = '\x7d'

/-- A word of a plain scalar; `none` where a colon between brackets belongs to nothing. -/
def plainWord (flow : Bool) : List Char → Option (List Char)
  | [] => some []
  | x :: rest =>
    if isGap x then some []
    else if flow && x = ':' && rest.head?.any fun y => isFlowEnd y || y = '?' then none
    else if x = ':' && endsWord rest then some []
    else if flow && isFlowEnd x then some []
    else (plainWord flow rest).map (x :: ·)

/-- A plain scalar from some word on, behind a gap: its text, whether a line ended behind it, and
the place.  It goes on in lines that are indented up to a column. -/
def plainFrom (flow : Bool) (column : Nat) :
    Nat → Gap → Cursor → Option (List Char × Bool × Cursor)
  | 0, _, _ => none
  | fuel + 1, g, c =>
    if c.atDocument || c.rest.head? = some '#' then some ([], g.broken, c)
    else do
      let word ← plainWord flow c.rest
      if word.isEmpty then return ([], g.broken, c)
      let done := g.text ++ word
      let c := c.skip word.length
      if !c.rest.head?.any isGap then return (done, false, c)
      let (g, c) ← Gap.read column {} c
      if !flow && c.column < column then return (done, g.broken, c)
      let (more, broken, c) ← plainFrom flow column fuel g c
      return (done ++ more, broken, c)

/-- A plain scalar. -/
def plainScalar (flow : Bool) (column : Nat) (c : Cursor) : Option (List Char × Bool × Cursor) :=
  plainFrom flow column (c.rest.length + 1) {} c

/-! ### Quoted scalars -/

/-- The value of a hexadecimal digit. -/
def hexDigit? (c : Char) : Option Nat :=
  if c.isDigit then some (c.toNat - '0'.toNat)
  else if 'a' ≤ c ∧ c ≤ 'f' then some (c.toNat - 'a'.toNat + 10)
  else if 'A' ≤ c ∧ c ≤ 'F' then some (c.toNat - 'A'.toNat + 10)
  else none

/-- The value of some hexadecimal digits. -/
def hexValue? (digits : List Char) : Option Nat :=
  digits.foldlM (fun n d => (hexDigit? d).map (n * 16 + ·)) 0

/-- The character that one letter behind a backslash stands for. -/
def escaped? (c : Char) : Option Char :=
  ([('0', '\x00'), ('a', '\x07'), ('b', '\x08'), ('t', '\t'), ('\t', '\t'), ('n', '\n'),
    ('v', '\x0b'), ('f', '\x0c'), ('r', '\r'), ('e', '\x1b'), (' ', ' '), ('"', '"'), ('/', '/'),
    ('\\', '\\'), ('N', '\u0085'), ('_', '\u00a0'), ('L', '\u2028'), ('P', '\u2029')].find?
      (·.1 = c)).map (·.2)

/-- How many digits of a code point a letter behind a backslash announces. -/
def codeDigits? (c : Char) : Option Nat :=
  if c = 'x' then some 2 else if c = 'u' then some 4 else if c = 'U' then some 8 else none

/-- The character of a code point. -/
def ofCode? (n : Nat) : Option Char := if n.isValidChar then some (Char.ofNat n) else none

/-- The character that is escaped behind a backslash, and how many characters it takes. -/
def escape? : List Char → Option (Char × Nat)
  | [] => none
  | letter :: rest =>
    match codeDigits? letter with
    | some n =>
      if rest.length < n then none
      else ((hexValue? (rest.take n)).bind ofCode?).map (·, n + 1)
    | none => (escaped? letter).map (·, 1)

/-- A word of a quoted scalar, the place behind it, and whether it ends with an escaped break. -/
def quotedWord (quote : Char) : Nat → Cursor → Option (List Char × Cursor × Bool)
  | 0, _ => none
  | fuel + 1, c =>
    let following (x : Char) (n : Nat) :=
      (quotedWord quote fuel (c.skip n)).map fun (word, rest) => (x :: word, rest)
    match c.rest with
    | [] => some ([], c, false)
    | x :: rest =>
      if isGap x then some ([], c, false)
      else if x = quote then
        if quote = '\'' && rest.head? = some quote then following quote 2 else some ([], c, false)
      else if quote = '"' && x = '\\' then
        if rest.head?.any isBreak then some ([], (c.skip 1).skipBreak, true)
        else (escape? rest).bind fun (y, n) => following y (n + 1)
      else following x 1

/-- A quoted scalar from some word on, and the place behind the quote that ends it. -/
def quotedFrom (quote : Char) : Nat → Cursor → Option (List Char × Cursor)
  | 0, _ => none
  | fuel + 1, c =>
    if c.atDocument || c.rest.isEmpty then none
    else do
      let (word, c, escapedBreak) ← quotedWord quote (c.rest.length + 1) c
      if c.rest.head? = some quote then return (word, c.skip 1)
      let (g, c) ← Gap.read 0 { broken := escapedBreak } c
      let (more, c) ← quotedFrom quote fuel c
      return (word ++ g.text ++ more, c)

/-- A quoted scalar, the place being behind the quote that begins it. -/
def quotedScalar (quote : Char) (c : Cursor) : Option (List Char × Cursor) :=
  quotedFrom quote (c.rest.length + 1) c

/-! ### Block scalars -/

/-- What becomes of the breaks at the end of a block scalar. -/
inductive Chomping
  | strip
  | clip
  | keep
  deriving DecidableEq

/-- The sign that tells of the breaks at the end. -/
def chomping? : List Char → Option (Chomping × List Char)
  | '+' :: rest => some (.keep, rest)
  | '-' :: rest => some (.strip, rest)
  | _ => none

/-- The digit that tells of the indentation. -/
def increment? : List Char → Option (Nat × List Char)
  | c :: rest => if c.isDigit then some (c.toNat - '0'.toNat, rest) else none
  | [] => none

/-- The header of a block scalar: sign and digit, in any order, and how many characters they are;
`none` for an indentation of zero. -/
def blockHeader (cs : List Char) : Option (Chomping × Nat × Nat) :=
  let (chomping, increment, rest) := match chomping? cs with
    | some (chomping, rest) =>
      match increment? rest with
      | some (n, rest) => (chomping, some n, rest)
      | none => (chomping, none, rest)
    | none =>
      match increment? cs with
      | none => (Chomping.clip, none, cs)
      | some (n, rest) =>
        match chomping? rest with
        | some (chomping, rest) => (chomping, some n, rest)
        | none => (.clip, some n, rest)
  if increment = some 0 then none
  else some (chomping, increment.getD 0, cs.length - rest.length)

/-- Empty lines of a block scalar: their breaks, the widest indentation, and the place behind them.
An indentation of zero is one that is not known yet. -/
def emptyLines (indent : Nat) :
    Nat → List Char → Nat → Cursor → Option (List Char × Nat × Cursor)
  | 0, _, _, _ => none
  | fuel + 1, breaks, widest, c =>
    let blanks := (c.rest.takeWhile (· = ' ')).length
    let c := c.skip (if indent = 0 then blanks else min blanks (indent - c.column))
    let widest := max widest c.column
    if (indent = 0 || c.column < indent) && c.rest.head? = some '\t' then none
    else
      match c.rest with
      | [] => some (breaks, widest, c)
      | x :: _ =>
        if isBreak x then emptyLines indent fuel (breaks ++ breakText x) widest c.skipBreak
        else some (breaks, widest, c)

/-- The lines of a block scalar from some line on, `last` being the break before, `empties` the
empty lines behind that and `blank` telling whether the line before began with a blank: text, the
break and the empty lines behind it, and the place. -/
def blockLines (style : Style) (indent : Nat) :
    Nat → List Char → List Char → Bool → Cursor →
      Option (List Char × List Char × List Char × Cursor)
  | 0, _, _, _, _ => none
  | fuel + 1, last, empties, blank, c =>
    if c.column ≠ indent || c.rest.isEmpty then some ([], last, empties, c)
    else do
      let begins := c.rest.head?.any isBlank
      let between :=
        if style = .folded && last = ['\n'] && !blank && !begins then
          if empties.isEmpty then [' '] else empties
        else last ++ empties
      let line := c.rest.takeWhile fun x => !isBreak x
      let c := c.skip line.length
      let last := (c.rest.head?.map breakText).getD []
      let c := if c.rest.isEmpty then c else c.skipBreak
      let (empties, _, c) ← emptyLines indent (c.rest.length + 1) [] 0 c
      let (more, ending) ← blockLines style indent fuel last empties begins c
      return (between ++ line ++ more, ending)

/-- A block scalar within an indentation, the place being behind the sign that begins it. -/
def blockScalar (style : Style) (outer : Option Nat) (c : Cursor) :
    Option (List Char × Cursor) := do
  let (chomping, increment, length) ← blockHeader c.rest
  let c := ((c.skip length).skipWhile isBlank).skipComment
  if !endsLine c.rest then none
  let c := if c.rest.isEmpty then c else c.skipBreak
  let given := if increment = 0 then 0 else outer.getD 0 + increment
  let (empties, widest, c) ← emptyLines given (c.rest.length + 1) [] 0 c
  let indent := if given = 0 then max widest (max 1 (outer.elim 0 (· + 1))) else given
  let (text, last, empties, c) ←
    blockLines style indent (c.rest.length + 1) [] empties false c
  let ending := match chomping with
    | .strip => []
    | .clip => last
    | .keep => last ++ empties
  return (text ++ ending, c)

end Inspection.Yaml
