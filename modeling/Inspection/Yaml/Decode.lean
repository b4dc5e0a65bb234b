import Inspection.Text.Decimal
import Inspection.Yaml.Node

/-!
# YAML — decoding

Values of a type out of a document.  The type that is asked for decides what a plain scalar is: any
scalar is a text, and only where a number is asked for is one read.  Aliases are followed where they
stand, and not too often in all.
-/

namespace Inspection.Yaml

/-- A document to decode: its root, the nodes that have an anchor, and how many aliases may be
followed. -/
structure Document where
  root : Node
  anchored : List (Nat × Node)
  limit : Nat

namespace Document

/-- Aliases may be followed this many times for every event of a document. -/
def repetition : Nat := 100

/-- A root as a document. -/
def ofRoot (root : Node) : Document where
  root
  anchored := root.all.filterMap fun n => n.properties.anchor.map fun a => (a, n)
  limit := repetition * root.size

/-- The node that an alias stands for: the last one with its number. -/
def target? (doc : Document) (anchor : Nat) : Option Node :=
  (doc.anchored.reverse.find? (·.1 = anchor)).map (·.2)

end Document

/-- Steps of decoding, which may fail and count the aliases followed. -/
abbrev Decode := StateT Nat Option

/-- The type of decoders. -/
abbrev Decoder (α : Type) := Document → Node → Decode α

/-- The node that a node stands for. -/
def follow : Decoder Node := fun doc n =>
  match n with
  | .reference anchor => do
    let followed ← get
    if doc.limit ≤ followed then failure
    set (followed + 1)
    (doc.target? anchor).elim failure pure
  | n => pure n

namespace Decoder

variable {α : Type}

/-- Whether a node is left out. -/
def isEmpty : Node → Bool
  | .scalar _ .plain "" => true
  | _ => false

/-- Whether a text is a spelling of null. -/
def isNull (text : String) : Bool := text = "null" || text = "Null" || text = "NULL" || text = "~"

/-- The tag of null. -/
def nullTag : List UInt8 := Text.encode "tag:yaml.org,2002:null"

/-- The tag of whole numbers. -/
def integerTag : List UInt8 := Text.encode "tag:yaml.org,2002:int"

/-- Any scalar, as its text. -/
def text : Decoder String := fun doc n => do
  match ← follow doc n with
  | .scalar _ _ text => return text
  | _ => failure

/-- A value, or a plain null or nothing for none. -/
def optional (decode : Decoder α) : Decoder (Option α) := fun doc n => do
  let n ← follow doc n
  match n with
  | .scalar p .plain text =>
    match p.tag with
    | none => if text = "" ∨ isNull text then return none
    | some tag => if tag = nullTag then if isNull text then return none else failure
  | _ => pure ()
  return some (← decode doc n)

/-- The value of digits to a base. -/
def digitsValue? (base : Nat) (cs : List Char) : Option Nat :=
  if cs.isEmpty then none
  else cs.foldlM (fun n c => ((hexDigit? c).filter (· < base)).map (n * base + ·)) 0

/-- The value of a number in one of four bases; a decimal one does not begin with a zero. -/
def numberValue? (text : List Char) : Option Nat :=
  match Text.afterPlus text with
  | '0' :: 'x' :: digits => digitsValue? 16 digits
  | '0' :: 'o' :: digits => digitsValue? 8 digits
  | '0' :: 'b' :: digits => digitsValue? 2 digits
  | '0' :: _ :: _ => none
  | digits => digitsValue? 10 digits

/-- A whole number of 16 bits: a plain scalar, or a literal one that is tagged as a number. -/
def word16 : Decoder UInt16 := fun doc n => do
  match ← follow doc n with
  | .scalar p style text =>
    if style = .plain ∨ style = .literal ∧ p.tag = some integerTag then
      match (numberValue? text.toList).filter (· < UInt16.size) with
      | some value => return UInt16.ofNat value
      | none => failure
    else failure
  | _ => failure

/-- The items of a sequence. -/
def list (decode : Decoder α) : Decoder (List α) := fun doc n => do
  match ← follow doc n with
  | .sequence _ items => items.mapM (decode doc)
  | n => if isEmpty n then return [] else failure

/-- The name that a tag of the document's own is, without its mark. -/
def ownTag? : Option (List UInt8) → Option String
  | some (0x21 :: rest) => Text.decode? (if rest.isEmpty then [0x21] else rest)
  | _ => none

/-- One of some names: a scalar, or a tag before a null. -/
def variant (named : String → Option α) : Decoder α := fun doc n => do
  match ← follow doc n with
  | .scalar p style text =>
    match ownTag? p.tag with
    | some name =>
      if style = .plain ∧ (text = "" ∨ isNull text) then (named name).elim failure pure else failure
    | none => (named text).elim failure pure
  | _ => failure

/-- The entries of a mapping that a record knows.  Each stands there once. -/
def known (keys : List String) (doc : Document) :
    List (String × Node) → List (Node × Node) → Decode (List (String × Node))
  | done, [] => return done
  | done, (key, value) :: rest => do
    let key ← text doc key
    if !keys.contains key then known keys doc done rest
    else if done.any (·.1 = key) then failure
    else known keys doc ((key, value) :: done) rest

/-- The values of the fields of a record, each under its key. -/
def fields (keys : List String) : Decoder (List (String × Node)) := fun doc n => do
  match ← follow doc n with
  | .mapping _ entries => known keys doc [] entries
  | n => if isEmpty n then return [] else failure

/-- The value of a field that has to be there. -/
def required (key : String) (decode : Decoder α) (found : List (String × Node)) (doc : Document) :
    Decode α :=
  match found.find? (·.1 = key) with
  | some (_, value) => decode doc value
  | none => failure

/-- The value of a field, or another one. -/
def defaulted (key : String) (decode : Decoder α) (other : α) (found : List (String × Node))
    (doc : Document) : Decode α :=
  match found.find? (·.1 = key) with
  | some (_, value) => decode doc value
  | none => return other

/-- The value of a text. -/
def ofText? (decode : Decoder α) (text : String) : Option α :=
  (Node.read text).bind fun root =>
    let doc := Document.ofRoot root
    (decode doc root 0).map (·.1)

end Decoder

end Inspection.Yaml
