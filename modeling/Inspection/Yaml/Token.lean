import Inspection.Text.Utf8
import Inspection.Yaml.Scalar

/-!
# YAML — tokens

The tokens of a text: scalars, indicators, properties and directives, and the beginnings and ends
of block collections, which indentation tells.  Whether a scalar or a bracket begins a key of a
mapping is seen only at the colon behind it; the token for the key is then put in where it began.
-/

namespace Inspection.Yaml

/-- The tokens of a text. -/
inductive Token
  | version (major minor : Nat)
  | handle (name : String) (expansion : List UInt8)
  | documentStart
  | documentEnd
  | blockSequence
  | blockMapping
  | blockEnd
  | openSequence
  | closeSequence
  | openMapping
  | closeMapping
  | item
  | comma
  | key
  | value
  | reference (name : String)
  | anchor (name : String)
  | tag (handle : String) (suffix : List UInt8)
  | scalar (style : Style) (text : List Char)
  deriving DecidableEq

/-! ### Tags and directives -/

/-- Characters of tags. -/
def isTagChar (c : Char) : Bool := isNameChar c || ";/?:@&=+$.%!~*'()".toList.contains c

/-- Characters of tags where brackets and commas are no indicators. -/
def isUriChar (c : Char) : Bool := isTagChar c || c = ',' || c = '[' || c = ']'

/-- How many bytes a character has that begins with a byte. -/
def widthOf? (b : UInt8) : Option Nat :=
  if b &&& 0x80 = 0 then some 1
  else if b &&& 0xE0 = 0xC0 then some 2
  else if b &&& 0xF0 = 0xE0 then some 3
  else if b &&& 0xF8 = 0xF0 then some 4
  else none

/-- A byte written in hexadecimal behind a percent sign. -/
def escapedByte? : List Char → Option (UInt8 × List Char)
  | '%' :: a :: b :: rest => (hexValue? [a, b]).map fun n => (UInt8.ofNat n, rest)
  | _ => none

/-- The escaped bytes that go on with a character. -/
def continuation : Nat → List Char → Option (List UInt8 × List Char)
  | 0, cs => some ([], cs)
  | n + 1, cs => do
    let (b, cs) ← escapedByte? cs
    if b &&& 0xC0 ≠ 0x80 then none
    let (more, cs) ← continuation n cs
    return (b :: more, cs)

/-- The escaped bytes of one character. -/
def escapedChar (cs : List Char) : Option (List UInt8 × List Char) := do
  let (b, cs) ← escapedByte? cs
  let width ← widthOf? b
  let (more, cs) ← continuation (width - 1) cs
  return (b :: more, cs)

/-- The bytes of a tag up to the first character that none has, and how many characters it took. -/
def uri (allowed : Char → Bool) : Nat → List Char → Option (List UInt8 × Nat)
  | 0, _ => none
  | fuel + 1, cs =>
    match cs with
    | [] => some ([], 0)
    | c :: rest =>
      if !allowed c then some ([], 0)
      else if c = '%' then do
        let (bytes, rest) ← escapedChar cs
        let (more, length) ← uri allowed fuel rest
        return (bytes ++ more, cs.length - rest.length + length)
      else do
        let (more, length) ← uri allowed fuel rest
        return (String.utf8EncodeChar c ++ more, length + 1)

/-- Texts end at a byte of zero. -/
def untilZero (bytes : List UInt8) : List UInt8 := bytes.takeWhile (· ≠ 0)

/-- The bytes of a tag, and the place behind it. -/
def readUri (allowed : Char → Bool) (c : Cursor) : Option (List UInt8 × Cursor) :=
  (uri allowed (c.rest.length + 1) c.rest).map fun (bytes, length) => (bytes, c.skip length)

/-- The bytes of a tag that is not empty. -/
def readSomeUri (allowed : Char → Bool) (c : Cursor) : Option (List UInt8 × Cursor) :=
  (readUri allowed c).filter fun (_, after) => after.index ≠ c.index

/-- A handle: a mark, letters, and a mark again if there is one. -/
def readHandle (c : Cursor) : Option (List Char × Cursor) :=
  match c.rest with
  | '!' :: rest =>
    let name := rest.takeWhile isNameChar
    let closing := if (rest.drop name.length).head? = some '!' then ['!'] else []
    let handle := '!' :: name ++ closing
    some (handle, c.skip handle.length)
  | _ => none

/-- The suffix of a tag and the place behind it, for each of the three kinds of tags. -/
def readTag (c : Cursor) : Option (String × List UInt8 × Cursor) :=
  match c.rest with
  | '!' :: '<' :: _ => do
    let (suffix, c) ← readSomeUri isUriChar (c.skip 2)
    if c.rest.head? ≠ some '>' then none
    return ("", untilZero suffix, c.skip 1)
  | _ => do
    let (handle, after) ← readHandle c
    if handle.length > 1 && handle.getLast? = some '!' then
      let (suffix, c) ← readSomeUri isTagChar after
      return (String.ofList handle, untilZero suffix, c)
    let (more, c) ← readUri isTagChar after
    let suffix := untilZero (Text.encode (String.ofList (handle.drop 1)) ++ more)
    return if suffix.isEmpty then ("", [0x21], c) else ("!", suffix, c)

/-- The tag at a place, which a blank or a break has to follow, or a comma between brackets. -/
def tagToken (flow : Bool) (c : Cursor) : Option (Token × Cursor) := do
  let (handle, suffix, c) ← readTag c
  if flow && c.rest.head? = some ',' || endsWord c.rest then some (.tag handle suffix, c) else none

/-- The name of an anchor or an alias behind its mark, and what may follow it. -/
def anchorName (c : Cursor) : Option (String × Cursor) :=
  let name := c.rest.takeWhile isNameChar
  let after := c.skip name.length
  if !name.isEmpty && (endsWord after.rest || after.rest.head?.any "?:,]\x7d%@`".toList.contains)
  then some (String.ofList name, after) else none

/-- A number of at most nine digits. -/
def versionNumber (c : Cursor) : Option (Nat × Cursor) :=
  let digits := c.rest.takeWhile Char.isDigit
  if digits.isEmpty || digits.length > 9 then none
  else some (digits.foldl (fun n d => n * 10 + (d.toNat - '0'.toNat)) 0, c.skip digits.length)

/-- The version that a directive names. -/
def versionDirective (c : Cursor) : Option (Token × Cursor) := do
  let (major, c) ← versionNumber (c.skipWhile isBlank)
  if c.rest.head? ≠ some '.' then none
  let (minor, c) ← versionNumber (c.skip 1)
  return (.version major minor, c)

/-- The handle that a directive names and what it stands for. -/
def handleDirective (c : Cursor) : Option (Token × Cursor) := do
  let (handle, c) ← readHandle (c.skipWhile isBlank)
  if handle.length > 1 && handle.getLast? ≠ some '!' then none
  if !c.rest.head?.any isBlank then none
  let (expansion, c) ← readSomeUri isUriChar (c.skipWhile isBlank)
  if !endsWord c.rest then none
  return (.handle (String.ofList handle) (untilZero expansion), c)

/-- A directive, the place being behind its sign.  Nothing but a comment may follow it. -/
def directive (c : Cursor) : Option (Token × Cursor) := do
  let name := c.rest.takeWhile isNameChar
  let c := c.skip name.length
  if !endsWord c.rest then none
  let (token, c) ← match String.ofList name with
    | "YAML" => versionDirective c
    | "TAG" => handleDirective c
    | _ => none
  let c := (c.skipWhile isBlank).skipComment
  if !endsLine c.rest then none
  return (token, if c.rest.isEmpty then c else c.skipBreak)

/-! ### Keys and indentation -/

/-- A place where a key may have begun. -/
structure Candidate where
  /-- Whether nothing else may have. -/
  required : Bool
  /-- The number of tokens before it. -/
  position : Nat
  index : Nat
  line : Nat
  column : Nat

/-- A key takes at most this many characters. -/
def keyLimit : Nat := 1024

/-- Tokens so far and what they leave open. -/
structure Lexer where
  cursor : Cursor
  /-- The tokens, the last first. -/
  done : List Token := []
  /-- The columns of the block collections that are open, the innermost first. -/
  columns : List Nat := []
  /-- Whether a key may begin here. -/
  keyAllowed : Bool := true
  /-- Where a key may have begun, for every bracket that is open and at last outside of them. -/
  candidates : List (Option Candidate) := [none]

namespace Lexer

/-- Whether a bracket is open. -/
def inFlow (s : Lexer) : Bool := s.candidates.length > 1

/-- Puts a token behind the others. -/
def push (s : Lexer) (t : Token) : Lexer := { s with done := t :: s.done }

/-- Puts a token in front of those behind a position. -/
def insertAt (s : Lexer) (position : Nat) (t : Token) : Lexer :=
  let behind := s.done.length - position
  { s with done := s.done.take behind ++ t :: s.done.drop behind }

/-- Goes on by some characters of the line. -/
def skip (s : Lexer) (n : Nat) : Lexer := { s with cursor := s.cursor.skip n }

/-- Whether a column lies within the innermost block collection, deeper than it. -/
def isDeeper (s : Lexer) (column : Nat) : Bool :=
  match s.columns with
  | [] => true
  | innermost :: _ => innermost < column

/-- Opens a block collection at a column that is deeper than the others. -/
def roll (s : Lexer) (column position : Nat) (t : Token) : Lexer :=
  if !s.inFlow && s.isDeeper column then
    { s.insertAt position t with columns := column :: s.columns }
  else s

/-- Closes the block collections that are deeper than a column, or all of them. -/
def unroll (s : Lexer) (column : Option Nat) : Lexer :=
  if s.inFlow then s
  else
    let deeper := s.columns.takeWhile fun c => column.all (· < c)
    { s with
      done := List.replicate deeper.length .blockEnd ++ s.done
      columns := s.columns.drop deeper.length }

/-- Gives up the place where a key may have begun within the innermost bracket; `none` if nothing
else may have. -/
def forget (s : Lexer) : Option Lexer :=
  match s.candidates with
  | [] => some s
  | candidate :: outer =>
    if candidate.any (·.required) then none else some { s with candidates := none :: outer }

/-- Notes that a key may begin here. -/
def remember (s : Lexer) : Option Lexer :=
  if s.keyAllowed then do
    let s ← s.forget
    let c := s.cursor
    let required := !s.inFlow && s.columns.head? = some c.column
    let candidate := some ⟨required, s.done.length, c.index, c.line, c.column⟩
    return { s with candidates := candidate :: s.candidates.drop 1 }
  else some s

/-- Whether a place is too far back for a key that would end here. -/
def isStale (s : Lexer) (c : Candidate) : Bool :=
  c.line < s.cursor.line || c.index + keyLimit < s.cursor.index

/-- Gives up the places that are too far back. -/
def forgetStale (s : Lexer) : Option Lexer :=
  if s.candidates.any fun c => c.any fun c => c.required && s.isStale c then none
  else some { s with candidates := s.candidates.map fun c => c.filter fun c => !s.isStale c }

/-! ### Going on -/

/-- Goes on behind the mark of byte order that may begin a line. -/
def skipByteOrder (c : Cursor) : Cursor :=
  if c.column = 0 && c.rest.head? = some '\uFEFF' then c.skip 1 else c

/-- Goes on behind blanks, comments and breaks.  A tab is a blank between brackets, and where no key
may begin. -/
def toToken : Nat → Lexer → Lexer
  | 0, s => s
  | fuel + 1, s =>
    let isBlank x := x = ' ' || ((s.inFlow || !s.keyAllowed) && x = '\t')
    let c := ((skipByteOrder s.cursor).skipWhile isBlank).skipComment
    let s := { s with cursor := c }
    if c.rest.head?.any isBreak then
      toToken fuel { s with cursor := c.skipBreak, keyAllowed := s.keyAllowed || !s.inFlow }
    else s

/-- Everything is closed where a document begins or ends. -/
def closeAll (s : Lexer) : Option Lexer :=
  ((s.unroll none).forget).map fun s => { s with keyAllowed := false }

/-- Takes a directive. -/
def takeDirective (s : Lexer) : Option Lexer := do
  let s ← s.closeAll
  let (t, cursor) ← directive (s.cursor.skip 1)
  return { s.push t with cursor }

/-- Takes the mark of a document. -/
def takeMark (s : Lexer) (t : Token) : Option Lexer := s.closeAll.map fun s => (s.push t).skip 3

/-- Takes an opening bracket. -/
def takeOpen (s : Lexer) (t : Token) : Option Lexer := do
  let s ← s.remember
  return ({ s with candidates := none :: s.candidates, keyAllowed := true }.push t).skip 1

/-- Takes a closing bracket. -/
def takeClose (s : Lexer) (t : Token) : Option Lexer := do
  let s ← s.forget
  let candidates := if s.inFlow then s.candidates.drop 1 else s.candidates
  return ({ s with candidates, keyAllowed := false }.push t).skip 1

/-- Takes a comma. -/
def takeComma (s : Lexer) : Option Lexer :=
  s.forget.map fun s => ({ s with keyAllowed := true }.push .comma).skip 1

/-- Opens a block collection here, where one may begin. -/
def open? (s : Lexer) (t : Token) : Option Lexer :=
  if s.inFlow then some s
  else if s.keyAllowed then some (s.roll s.cursor.column s.done.length t)
  else none

/-- Takes the dash of an item. -/
def takeItem (s : Lexer) : Option Lexer := do
  let s ← (← s.open? .blockSequence).forget
  return ({ s with keyAllowed := true }.push .item).skip 1

/-- Takes the mark of a key. -/
def takeKey (s : Lexer) : Option Lexer := do
  let s ← (← s.open? .blockMapping).forget
  return ({ s with keyAllowed := !s.inFlow }.push .key).skip 1

/-- Takes the colon before a value, which tells whether a key has begun. -/
def takeValue (s : Lexer) : Option Lexer :=
  match s.candidates with
  | some c :: outer =>
    let s := { s with candidates := none :: outer, keyAllowed := false }.insertAt c.position .key
    some ((s.roll c.column c.position .blockMapping).push .value |>.skip 1)
  | _ => do
    let s ← s.open? .blockMapping
    return ({ s with keyAllowed := !s.inFlow }.push .value).skip 1

/-- Takes something that may begin a key and is read by itself. -/
def takeNode (s : Lexer) (read : Cursor → Option (Token × Cursor)) : Option Lexer := do
  let s ← s.remember
  let (t, cursor) ← read s.cursor
  return { s.push t with cursor, keyAllowed := false }

/-- Takes an anchor or an alias. -/
def takeName (s : Lexer) (t : String → Token) : Option Lexer :=
  s.takeNode fun c => (anchorName (c.skip 1)).map fun (name, c) => (t name, c)

/-- Takes a quoted scalar. -/
def takeQuoted (s : Lexer) (quote : Char) (style : Style) : Option Lexer :=
  s.takeNode fun c => (quotedScalar quote (c.skip 1)).map fun (text, c) => (.scalar style text, c)

/-- Takes a block scalar. -/
def takeBlock (s : Lexer) (style : Style) : Option Lexer := do
  let s ← s.forget
  let (text, cursor) ← blockScalar style s.columns.head? (s.cursor.skip 1)
  return { s.push (.scalar style text) with cursor, keyAllowed := true }

/-- Takes a plain scalar.  A key may begin in the line behind it. -/
def takePlain (s : Lexer) : Option Lexer := do
  let s ← s.remember
  let column := s.columns.head?.elim 0 (· + 1)
  let (text, keyAllowed, cursor) ← plainScalar s.inFlow column s.cursor
  return { s.push (.scalar .plain text) with cursor, keyAllowed }

/-- Whether a plain scalar may begin with a character, and what follows it. -/
def beginsPlain (flow : Bool) (c : Char) (rest : List Char) : Bool :=
  !(isGap c || "-?:,[]\x7b\x7d#&*!|>'\"%@`".toList.contains c) ||
    (c = '-' && !rest.head?.any isBlank) || (!flow && (c = '?' || c = ':') && !endsWord rest)

/-- Takes the token at a character. -/
def take (s : Lexer) (c : Char) (rest : List Char) : Option Lexer :=
  let alone := endsWord rest
  if s.cursor.column = 0 && c = '%' then s.takeDirective
  else if s.cursor.atMark '-' then s.takeMark .documentStart
  else if s.cursor.atMark '.' then s.takeMark .documentEnd
  else if c = '[' then s.takeOpen .openSequence
  else if c = '\x7b' then s.takeOpen .openMapping
  else if c = ']' then s.takeClose .closeSequence
  else if c = '\x7d' then s.takeClose .closeMapping
  else if c = ',' then s.takeComma
  else if c = '-' && alone then s.takeItem
  else if c = '?' && (s.inFlow || alone) then s.takeKey
  else if c = ':' && (s.inFlow || alone) then s.takeValue
  else if c = '*' then s.takeName .reference
  else if c = '&' then s.takeName .anchor
  else if c = '!' then s.takeNode (tagToken s.inFlow)
  else if c = '|' && !s.inFlow then s.takeBlock .literal
  else if c = '>' && !s.inFlow then s.takeBlock .folded
  else if c = '\'' then s.takeQuoted c .single
  else if c = '"' then s.takeQuoted c .double
  else if beginsPlain s.inFlow c rest then s.takePlain
  else none

/-- Takes all tokens. -/
def run : Nat → Lexer → Option (List Token)
  | 0, _ => none
  | fuel + 1, s => do
    let s ← (toToken (fuel + 1) s).forgetStale
    let s := s.unroll (some s.cursor.column)
    match s.cursor.rest with
    | [] => return (← s.closeAll).done.reverse
    | c :: rest => run fuel (← s.take c rest)

end Lexer

/-- The tokens of a text. -/
def tokens (text : String) : Option (List Token) :=
  let cs := text.toList
  if cs.all isReadable then Lexer.run (cs.length + 1) { cursor := .start cs } else none

end Inspection.Yaml
