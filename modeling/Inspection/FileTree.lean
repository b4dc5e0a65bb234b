import Inspection.Path

/-!
# File tree

Directories, files and symbolic links below one root, with a working directory, and what programs
do to them: look up, make directories, write and read files, list what is below a directory.

A node stands at a location, the names from the root on.  A path is walked component by component
from the working directory; links are followed, up to a number of them.  Making directories is done
with whatever is missing on the way, and what was made stays when a later step fails.  A file that
is written is emptied first and then filled, and where its device gives out it keeps what it got.

* `node?_set_self`, `node?_set_of_ne`: what putting a node changes.
* `kept_of_room`: a device with enough room keeps all.
-/

namespace Inspection

/-- A place below the root: the names on the way to it. -/
abbrev Location := List String

/-- What stands at a location. -/
inductive Node
  | file (content : List UInt8)
  | directory
  | link (target : String)
  deriving DecidableEq

/-- A file tree. -/
structure FileTree where
  nodes : List (Location × Node)
  working : Location
  /-- How many bytes the device takes for the file at a location, if it does not take any number. -/
  room : Location → Option Nat := fun _ => none

namespace FileTree

/-- The node at a location.  The root is a directory. -/
def node? (tree : FileTree) (loc : Location) : Option Node :=
  if loc = [] then some .directory else (tree.nodes.find? (·.1 = loc)).map (·.2)

/-- Puts a node over what stands at a location. -/
def setNode (loc : Location) (node : Node) : List (Location × Node) → List (Location × Node)
  | [] => [(loc, node)]
  | entry :: rest => if entry.1 = loc then (loc, node) :: rest else entry :: setNode loc node rest

/-- Puts a node at a location. -/
def set (tree : FileTree) (loc : Location) (node : Node) : FileTree :=
  { tree with nodes := setNode loc node tree.nodes }

/-! ### Walking -/

/-- Names have at most this many bytes. -/
def nameLimit : Nat := 255

/-- Paths have fewer bytes. -/
def pathLimit : Nat := 4096

/-- At most this many links are followed. -/
def linkLimit : Nat := 40

/-- Whether a name may stand in a directory. -/
def isName (name : String) : Bool := name.utf8ByteSize ≤ nameLimit && !name.toList.contains '\x00'

/-- Where a path leads. -/
inductive Place
  /-- To a node. -/
  | present (loc : Location)
  /-- To nothing, in a directory. -/
  | absent (loc : Location)
  /-- Through nothing. -/
  | missing
  /-- Through something that is no directory, or is no name. -/
  | refused
  deriving DecidableEq

/-- The components of the target of a link.  One that ends in a slash leads to a directory only. -/
def targetOf (target : String) : List Component :=
  Path.components target ++ if Path.endsInName target then [] else [.here]

/-- Walks the components that are left, following at most some links. -/
def walk (tree : FileTree) (links : Nat) (loc : Location) (path : List Component) : Place :=
  match path with
  | [] => .present loc
  | .root :: rest => walk tree links [] rest
  | .here :: rest => walk tree links loc rest
  | .up :: rest => walk tree links loc.dropLast rest
  | .normal name :: rest =>
    if !isName name then .refused
    else
      match tree.node? (loc ++ [name]) with
      | none => if rest.isEmpty then .absent (loc ++ [name]) else .missing
      | some .directory => walk tree links (loc ++ [name]) rest
      | some (.file _) => if rest.isEmpty then .present (loc ++ [name]) else .refused
      | some (.link target) =>
        match links with
        | 0 => .refused
        | links + 1 => walk tree links loc (targetOf target ++ rest)
termination_by (links, path.length)

/-- Where a path leads from the working directory. -/
def find (tree : FileTree) (path : List Component) : Place :=
  walk tree linkLimit tree.working path

/-- Whether a path leads to a directory. -/
def isDirectory (tree : FileTree) (path : List Component) : Bool :=
  match tree.find path with
  | .present loc => tree.node? loc = some .directory
  | _ => false

/-- Whether the text of a path leads to a directory. -/
def hasDirectory (tree : FileTree) (path : String) : Bool :=
  path ≠ "" && path.utf8ByteSize < pathLimit && tree.isDirectory (Path.components path)

/-! ### Making directories -/

/-- The attempt to make one directory. -/
inductive Attempt
  | made (tree : FileTree)
  /-- The directory it belongs in is missing. -/
  | missing
  | refused

/-- Makes the directory `last` behind a path. -/
def makeDirectory (tree : FileTree) (before : List Component) (last : Component) : Attempt :=
  match tree.find before with
  | .present loc =>
    match last with
    | .normal name =>
      if tree.node? loc = some .directory ∧ isName name ∧ tree.node? (loc ++ [name]) = none then
        .made (tree.set (loc ++ [name]) .directory)
      else .refused
    | _ => .refused
  | .absent _ | .missing => .missing
  | .refused => .refused

/-- Makes a directory and those before it that are missing, the components being given the last
one first; false if one cannot be made. -/
def makeDirectoriesBack (tree : FileTree) : List Component → FileTree × Bool
  | [] => (tree, true)
  | last :: before =>
    match tree.makeDirectory before.reverse last with
    | .made tree => (tree, true)
    | .refused => (tree, tree.isDirectory (before.reverse ++ [last]))
    | .missing =>
      match makeDirectoriesBack tree before with
      | (tree, false) => (tree, false)
      | (tree, true) =>
        match tree.makeDirectory before.reverse last with
        | .made tree => (tree, true)
        | _ => (tree, tree.isDirectory (before.reverse ++ [last]))

/-- Makes a directory and those before it that are missing. -/
def makeDirectories (tree : FileTree) (path : List Component) : FileTree × Bool :=
  makeDirectoriesBack tree path.reverse

/-- A tree of nothing but a working directory and those before it, the path being absolute. -/
def workingIn (path : List Component) : FileTree :=
  let bare : FileTree := { nodes := [], working := [] }
  let names := path.filterMap fun c =>
    match c with
    | .normal name => some name
    | _ => none
  { (bare.makeDirectories path).1 with working := names }

/-! ### Files -/

/-- Whether a path may be that of a file. -/
def isFilePath (path : String) : Bool := Path.endsInName path && path.utf8ByteSize < pathLimit

/-- What of a content the file at a location keeps that is filled with it: all, or as much of its
front as the device takes. -/
def kept (tree : FileTree) (loc : Location) (content : List UInt8) : List UInt8 :=
  match tree.room loc with
  | none => content
  | some most => content.take most

/-- Empties the file at a location, which may have to be made, and fills it; false if the device
gives out before the end. -/
def fill (tree : FileTree) (loc : Location) (content : List UInt8) : FileTree × Bool :=
  let kept := tree.kept loc content
  (tree.set loc (.file kept), kept = content)

/-- Writes a file whose directory is there. -/
def writeFile (tree : FileTree) (path : String) (content : List UInt8) : FileTree × Bool :=
  if !isFilePath path then (tree, false)
  else
    match tree.find (Path.components path) with
    | .absent loc => tree.fill loc content
    | .present loc =>
      match tree.node? loc with
      | some (.file _) => tree.fill loc content
      | _ => (tree, false)
    | _ => (tree, false)

/-- The components of the directory that a path stands in. -/
def directoryOf (path : String) : List Component := (Path.components path).dropLast

/-- Whether a text may be that of a path. -/
def isPathText (path : String) : Bool :=
  path.utf8ByteSize < pathLimit && !path.toList.contains '\x00'

/-- Writes a file, making its directory first if need be.  No directory is made where the text of
the last one may not be that of a path. -/
def write (tree : FileTree) (path : String) (content : List UInt8) : FileTree × Bool :=
  if !isPathText ((Path.parent? path).getD "") then (tree, false)
  else
    match tree.makeDirectories (directoryOf path) with
    | (tree, false) => (tree, false)
    | (tree, true) => tree.writeFile path content

/-- The content of a file. -/
def read? (tree : FileTree) (path : String) : Option (List UInt8) :=
  if !isFilePath path then none
  else
    match tree.find (Path.components path) with
    | .present loc =>
      match tree.node? loc with
      | some (.file content) => some content
      | _ => none
    | _ => none

/-- Makes a symbolic link whose directory is there. -/
def makeLink (tree : FileTree) (path target : String) : FileTree × Bool :=
  match Path.fileName? path, tree.find (directoryOf path) with
  | some name, .present loc =>
    if tree.node? loc = some .directory ∧ tree.node? (loc ++ [name]) = none then
      (tree.set (loc ++ [name]) (.link target), true)
    else (tree, false)
  | _, _ => (tree, false)

/-! ### Listing -/

/-- The nodes below a location, under the names from there on. -/
def below (tree : FileTree) (loc : Location) : List (Location × Node) :=
  tree.nodes.filterMap fun (place, node) =>
    if loc.isPrefixOf place ∧ place ≠ loc then some (place.drop loc.length, node) else none

/-- Whether a path ends in the name of what stands at a location, and not in a link to it. -/
def namesDirectly (tree : FileTree) (path : String) (loc : Location) : Bool :=
  isFilePath path && tree.find (directoryOf path) = .present loc.dropLast &&
    Path.fileName? path = loc.getLast?

/-- The contents of the regular files that a path leads to: those below a directory, links not
being followed, or the file itself. -/
def contents (tree : FileTree) (path : String) : List (List UInt8) :=
  if path = "" then []
  else
    match tree.find (Path.components path) with
    | .present loc =>
      match tree.node? loc with
      | some (.file content) => if tree.namesDirectly path loc then [content] else []
      | some .directory => (tree.below loc).filterMap fun (_, node) =>
        match node with
        | .file content => some content
        | _ => none
      | _ => []
    | _ => []

theorem find?_setNode_self (loc : Location) (node : Node) (nodes : List (Location × Node)) :
    (setNode loc node nodes).find? (·.1 = loc) = some (loc, node) := by
  induction nodes with
  | nil => simp [setNode]
  | cons entry rest ih =>
    simp only [setNode]
    split
    · simp
    · rename_i ne
      simp [ne, ih]

theorem find?_setNode_of_ne {loc other : Location} (ne : other ≠ loc) (node : Node)
    (nodes : List (Location × Node)) :
    (setNode loc node nodes).find? (·.1 = other) = nodes.find? (·.1 = other) := by
  induction nodes with
  | nil => simp [setNode, Ne.symm ne]
  | cons entry rest ih =>
    simp only [setNode]
    split
    · rename_i eq
      simp [eq, Ne.symm ne]
    · by_cases eq : entry.1 = other
      · simp [eq]
      · simp [eq, ih]

theorem node?_set_self {loc : Location} (inside : loc ≠ []) (tree : FileTree) (node : Node) :
    (tree.set loc node).node? loc = some node := by
  simp [node?, set, inside, find?_setNode_self]

theorem node?_set_of_ne {loc other : Location} (ne : other ≠ loc) (tree : FileTree)
    (node : Node) : (tree.set loc node).node? other = tree.node? other := by
  unfold node?
  split
  · rfl
  · rw [set, find?_setNode_of_ne ne]

theorem kept_of_room {tree : FileTree} {loc : Location} {content : List UInt8}
    (h : ∀ most, tree.room loc = some most → content.length ≤ most) :
    tree.kept loc content = content := by
  unfold kept
  split
  · rfl
  next most hroom => exact List.take_of_length_le (h most hroom)

end FileTree

end Inspection
