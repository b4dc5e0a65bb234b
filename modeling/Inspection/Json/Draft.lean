import Inspection.Json.Token

/-!
# Json — drafts

A document as far as it is well formed.  Whoever reads a document from the front meets what is
wrong with it in the order of the text: a value of the wrong kind may come before a missing
bracket.  A draft keeps that order.  It is a tree of the values up to the first malformed place,
`broken` standing for that place, and a container tells whether it was closed.

Drafts are built by a machine that takes one token at a time and keeps the containers begun on a
stack, so no depth is too great for it.
-/

namespace Inspection.Json

/-- The beginning of a document that is well formed. -/
inductive Draft
  | null
  | bool (value : Bool)
  | number (value : Option Number)
  | string (value : Option String)
  | array (items : List Draft) (closed : Bool)
  /-- The fields; where the place of a key holds another value, `stray` is that value. -/
  | object (fields : List (Option String × Draft)) (closed : Bool) (stray : Option Draft)
  | broken

/-- A container begun: what it holds so far, the last first, and for an object the key whose value
comes next. -/
inductive Frame
  | array (done : List Draft)
  | object (done : List (Option String × Draft)) (key : Option String)

namespace Draft

/-- What may come next. -/
inductive Awaiting
  | value
  | itemOrClose
  | itemEnd (done : List Draft)
  | keyOrClose
  | key (done : List (Option String × Draft))
  | colon (done : List (Option String × Draft)) (key : Option String)
  | fieldEnd (done : List (Option String × Draft))
  | finish (document : Draft)

/-- A document read: its draft, and whether blanks alone follow it. -/
structure Reading where
  draft : Draft
  complete : Bool

/-- Closes every container begun around a value that is the last one. -/
def abandon : List Frame → Draft → Draft
  | [], d => d
  | .array done :: frames, d => abandon frames (.array (d :: done).reverse false)
  | .object done key :: frames, d => abandon frames (.object ((key, d) :: done).reverse false none)

/-- What comes after a value in the containers begun. -/
def settle : List Frame → Draft → List Frame × Awaiting
  | [], d => ([], .finish d)
  | .array done :: frames, d => (frames, .itemEnd (d :: done))
  | .object done key :: frames, d => (frames, .fieldEnd ((key, d) :: done))

/-- The value of a token that is a value by itself. -/
def ofToken? : Token → Option Draft
  | .null => some .null
  | .bool b => some (.bool b)
  | .number n => some (.number n)
  | .string s => some (.string s)
  | _ => none

/-- The result where the text ends, or goes on with a token that cannot stand there. -/
def stop (frames : List Frame) : Awaiting → Reading
  | .value => ⟨abandon frames .broken, false⟩
  | .itemOrClose => ⟨abandon frames (.array [.broken] false), false⟩
  | .itemEnd done => ⟨abandon frames (.array done.reverse false), false⟩
  | .keyOrClose => ⟨abandon frames (.object [] false none), false⟩
  | .key done => ⟨abandon frames (.object done.reverse false none), false⟩
  | .colon done key => ⟨abandon frames (.object ((key, .broken) :: done).reverse false none), false⟩
  | .fieldEnd done => ⟨abandon frames (.object done.reverse false none), false⟩
  | .finish document => ⟨document, false⟩

/-- The result where the first key of an object is no string. -/
def stopAtKey (frames : List Frame) (t : Token) : Reading :=
  ⟨abandon frames (.object [] false (some (match t with
    | .openArray => .array [] false
    | .openObject => .object [] false none
    | t => (ofToken? t).getD .broken))), false⟩

/-- Runs the machine. -/
def run (frames : List Frame) (awaiting : Awaiting) : List Token → Reading
  | [] =>
    match awaiting with
    | .finish document => ⟨document, true⟩
    | _ => stop frames awaiting
  | t :: rest =>
    match awaiting, t with
    | .value, .openArray => run frames .itemOrClose rest
    | .value, .openObject => run frames .keyOrClose rest
    | .value, t =>
      match ofToken? t with
      | some d => run (settle frames d).1 (settle frames d).2 rest
      | none => stop frames .value
    | .itemOrClose, .closeArray =>
      run (settle frames (.array [] true)).1 (settle frames (.array [] true)).2 rest
    | .itemOrClose, .openArray => run (.array [] :: frames) .itemOrClose rest
    | .itemOrClose, .openObject => run (.array [] :: frames) .keyOrClose rest
    | .itemOrClose, t =>
      match ofToken? t with
      | some d => run frames (.itemEnd [d]) rest
      | none => stop frames .itemOrClose
    | .itemEnd done, .comma => run (.array done :: frames) .value rest
    | .itemEnd done, .closeArray =>
      let d := .array done.reverse true
      run (settle frames d).1 (settle frames d).2 rest
    | .keyOrClose, .closeObject =>
      let d := .object [] true none
      run (settle frames d).1 (settle frames d).2 rest
    | .keyOrClose, .string key => run frames (.colon [] key) rest
    | .keyOrClose, t => stopAtKey frames t
    | .key done, .string key => run frames (.colon done key) rest
    | .colon done key, .colon => run (.object done key :: frames) .value rest
    | .fieldEnd done, .comma => run frames (.key done) rest
    | .fieldEnd done, .closeObject =>
      let d := .object done.reverse true none
      run (settle frames d).1 (settle frames d).2 rest
    | awaiting, _ => stop frames awaiting

/-- The draft of a document. -/
def ofTokens (ts : List Token) : Reading := run [] .value ts

/-- The draft of a text. -/
def ofText (text : String) : Reading := ofTokens (tokens (text.toList.map some))

/-- The draft of bytes. -/
def ofBytes (bytes : List UInt8) : Reading := ofTokens (tokens (Text.symbols bytes))

mutual

/-- Whether a value is well formed to its end, whatever its strings and numbers denote. -/
def whole : Draft → Bool
  | .array items closed => closed && wholeItems items
  | .object fields closed _ => closed && wholeFields fields
  | .broken => false
  | _ => true

/-- Whether every item is well formed. -/
def wholeItems : List Draft → Bool
  | [] => true
  | item :: rest => whole item && wholeItems rest

/-- Whether the value of every field is well formed. -/
def wholeFields : List (Option String × Draft) → Bool
  | [] => true
  | (_, value) :: rest => whole value && wholeFields rest

end

end Draft

end Inspection.Json
