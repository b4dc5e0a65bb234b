import Inspection.Yaml.Token

/-!
# YAML — nodes

The tree of a document: scalars, sequences, mappings, and aliases of nodes that have an anchor.  A
stream of tokens is read as one document; a second one is an error, as is anything malformed
wherever it stands.

Anchors are numbered in their order, by how many names there are already; an alias stands for the
last node with the number of its name.
-/

namespace Inspection.Yaml

/-- What may stand before a node: the number of its anchor, and its tag. -/
structure Properties where
  anchor : Option Nat := none
  tag : Option (List UInt8) := none

/-- The nodes of a document. -/
inductive Node
  | scalar (properties : Properties) (style : Style) (text : String)
  | sequence (properties : Properties) (items : List Node)
  | mapping (properties : Properties) (entries : List (Node × Node))
  | reference (anchor : Nat)

namespace Node

/-- A plain scalar without characters, which stands where a node is left out. -/
def empty : Node := .scalar {} .plain ""

/-- What stands before a node. -/
def properties : Node → Properties
  | scalar p _ _ | sequence p _ | mapping p _ => p
  | reference _ => {}

mutual

/-- The events that tell of a node: one of a scalar or an alias, two of a collection beside those of
what it holds. -/
def size : Node → Nat
  | scalar .. | reference _ => 1
  | sequence _ items => 2 + sizeOfItems items
  | mapping _ entries => 2 + sizeOfEntries entries

/-- The events that tell of items. -/
def sizeOfItems : List Node → Nat
  | [] => 0
  | item :: rest => size item + sizeOfItems rest

/-- The events that tell of entries. -/
def sizeOfEntries : List (Node × Node) → Nat
  | [] => 0
  | (key, value) :: rest => size key + size value + sizeOfEntries rest

end

mutual

/-- A node and those in it, in their order. -/
def all (n : Node) : List Node :=
  n :: match n with
    | scalar .. | reference _ => []
    | sequence _ items => allOfItems items
    | mapping _ entries => allOfEntries entries

/-- The nodes in items. -/
def allOfItems : List Node → List Node
  | [] => []
  | item :: rest => all item ++ allOfItems rest

/-- The nodes in entries. -/
def allOfEntries : List (Node × Node) → List Node
  | [] => []
  | (key, value) :: rest => all key ++ all value ++ allOfEntries rest

end

end Node

/-! ### Reading -/

/-- Tokens that are left, the names of anchors with their numbers, and what handles stand for. -/
structure Parser where
  tokens : List Token
  anchors : List (String × Nat) := []
  handles : List (String × List UInt8) := []

/-- Steps of reading, which may fail. -/
abbrev Parse := StateT Parser Option

namespace Parse

/-- The next token; there is none at the end. -/
def peek : Parse (Option Token) := do return (← get).tokens.head?

/-- Goes on behind the next token. -/
def skip : Parse Unit := modify fun p => { p with tokens := p.tokens.drop 1 }

/-- Goes on behind a token that has to be there. -/
def expect (t : Token) : Parse Unit := do
  if (← peek) = some t then skip else failure

/-- Whether one of some tokens is next. -/
def isNext (ts : List Token) : Parse Bool := do return (← peek).any ts.contains

/-- The number of an anchor's name from here on. -/
def number (name : String) : Parse Nat := do
  let p ← get
  let n := p.anchors.length
  set { p with anchors := (name, n) :: p.anchors.filter (·.1 ≠ name) }
  return n

/-- The tag that a handle and a suffix make. -/
def expand (handle : String) (suffix : List UInt8) : Parse (List UInt8) := do
  if handle = "" then return suffix
  match (← get).handles.find? (·.1 = handle) with
  | some (_, expansion) => return expansion ++ suffix
  | none => failure

/-- The anchor before a node. -/
def anchor? : Parse (Option Nat) := do
  match ← peek with
  | some (.anchor name) =>
    skip
    return some (← number name)
  | _ => return none

/-- The tag before a node. -/
def tag? : Parse (Option (List UInt8)) := do
  match ← peek with
  | some (.tag handle suffix) =>
    skip
    return some (← expand handle suffix)
  | _ => return none

/-- What stands before a node: an anchor and a tag, in any order. -/
def properties : Parse Properties := do
  let anchor ← anchor?
  let tag ← tag?
  let anchor ← if anchor.isSome then pure anchor else anchor?
  return { anchor, tag }

/-- The tag of a scalar; a lone mark is none. -/
def scalarTag (tag : Option (List UInt8)) : Option (List UInt8) := tag.filter (· ≠ [0x21])

/-- Where brackets, braces, blocks and lone items are read: the state that items are in. -/
inductive Place
  | node (block items : Bool)
  | sequence
  | items
  | mapping
  | flowSequence (first : Bool)
  | flowMapping (first : Bool)

/-- What a place gives: a node, items or entries. -/
abbrev Place.Result : Place → Type
  | node .. => Node
  | sequence | items | flowSequence _ => List Node
  | mapping | flowMapping _ => List (Node × Node)

/-- A node, unless one of some tokens shows that it is left out. -/
def orEmpty (ts : List Token) (read : Parse Node) : Parse Node := do
  if ← isNext ts then return .empty else read

/-- The value behind a colon, if there is one. -/
def valueOf (ts : List Token) (read : Parse Node) : Parse Node := do
  if (← peek) = some .value then
    skip
    orEmpty ts read
  else return .empty

/-- Reads what stands at a place. -/
def read (fuel : Nat) (place : Place) (parser : Parser) : Option (place.Result × Parser) :=
  match fuel with
  | 0 => none
  | fuel + 1 =>
    let block : Parse Node := Parse.read fuel (.node true false)
    let nested : Parse Node := Parse.read fuel (.node true true)
    let flow : Parse Node := Parse.read fuel (.node false false)
    let step : Parse place.Result := match place with
      | .node inBlock mayHaveItems => do
        match ← peek with
        | some (.reference name) =>
          skip
          match (← get).anchors.find? (·.1 = name) with
          | some (_, n) => return .reference n
          | none => failure
        | _ =>
          let p ← properties
          match ← peek with
          | some (.scalar style text) =>
            skip
            return .scalar { p with tag := scalarTag p.tag } style (String.ofList text)
          | some .openSequence =>
            skip
            return .sequence p (← Parse.read fuel (.flowSequence true))
          | some .openMapping =>
            skip
            return .mapping p (← Parse.read fuel (.flowMapping true))
          | next =>
            if next = some .item ∧ mayHaveItems then
              return .sequence p (← Parse.read fuel .items)
            else if next = some .blockSequence ∧ inBlock then
              skip
              return .sequence p (← Parse.read fuel .sequence)
            else if next = some .blockMapping ∧ inBlock then
              skip
              return .mapping p (← Parse.read fuel .mapping)
            else if p.anchor.isSome ∨ p.tag.isSome then return .scalar p .plain ""
            else failure
      | .sequence => do
        match ← peek with
        | some .item =>
          skip
          let item ← orEmpty [.item, .blockEnd] block
          return item :: (← Parse.read fuel .sequence)
        | some .blockEnd =>
          skip
          return []
        | _ => failure
      | .items => do
        match ← peek with
        | some .item =>
          skip
          let item ← orEmpty [.item, .key, .value, .blockEnd] block
          return item :: (← Parse.read fuel .items)
        | _ => return []
      | .mapping => do
        match ← peek with
        | some .key =>
          skip
          let ends := [.key, .value, .blockEnd]
          let key ← orEmpty ends nested
          let value ← valueOf ends nested
          return (key, value) :: (← Parse.read fuel .mapping)
        | some .blockEnd =>
          skip
          return []
        | _ => failure
      | .flowSequence first => do
        if (← peek) = some .closeSequence then
          skip
          return []
        if !first then expect .comma
        match ← peek with
        | some .closeSequence =>
          skip
          return []
        | some .key =>
          skip
          let key ←
            if ← isNext [.value, .comma, .closeSequence] then
              skip
              pure .empty
            else flow
          let value ← valueOf [.comma, .closeSequence] flow
          return .mapping {} [(key, value)] :: (← Parse.read fuel (.flowSequence false))
        | _ => return (← flow) :: (← Parse.read fuel (.flowSequence false))
      | .flowMapping first => do
        if (← peek) = some .closeMapping then
          skip
          return []
        if !first then expect .comma
        match ← peek with
        | some .closeMapping =>
          skip
          return []
        | some .key =>
          skip
          let key ← orEmpty [.value, .comma, .closeMapping] flow
          let value ← valueOf [.comma, .closeMapping] flow
          return (key, value) :: (← Parse.read fuel (.flowMapping false))
        | _ => return (← flow, .empty) :: (← Parse.read fuel (.flowMapping false))
    step parser

/-- Steps that are enough for some tokens: no two in a row take none. -/
def enough (ts : List Token) : Nat := 4 * ts.length + 8

/-- A node of a document. -/
def root : Parse Node := do Parse.read (enough (← get).tokens) (.node true false)

/-- The handles that are there without a directive. -/
def defaultHandles : List (String × List UInt8) :=
  [("!", Text.encode "!"), ("!!", Text.encode "tag:yaml.org,2002:")]

/-- Takes directives: at most one version, which is known, and every handle once. -/
def directives : Nat → Bool → Parse Unit
  | 0, _ => failure
  | fuel + 1, versioned => do
    match ← peek with
    | some (.version major minor) =>
      if versioned ∨ major ≠ 1 ∨ (minor ≠ 1 ∧ minor ≠ 2) then failure
      skip
      directives fuel true
    | some (.handle name expansion) =>
      if (← get).handles.any (·.1 = name) then failure
      skip
      modify fun p => { p with handles := p.handles ++ [(name, expansion)] }
      directives fuel versioned
    | _ => modify fun p => { p with handles := p.handles ++ defaultHandles }

/-- Goes on behind the marks that end documents. -/
def skipEnds : Parse Unit :=
  modify fun p => { p with tokens := p.tokens.dropWhile (· = .documentEnd) }

/-- Whether a document ends where its content would begin. -/
def endsDocument : Option Token → Bool
  | none | some .documentStart | some .documentEnd => true
  | some (.version ..) | some (.handle ..) => true
  | _ => false

/-- The document that a stream is. -/
def document : Parse Node := do
  let node ← match ← peek with
    | none => failure
    | some .documentStart | some (.version ..) | some (.handle ..) =>
      directives ((← get).tokens.length + 1) false
      expect .documentStart
      if endsDocument (← peek) then pure .empty else root
    | _ =>
      directives 1 false
      root
  skipEnds
  if (← peek).isSome then failure
  return node

end Parse

/-- The document of a text. -/
def Node.read (text : String) : Option Node :=
  (tokens text).bind fun tokens => (Parse.document { tokens }).map (·.1)

end Inspection.Yaml
