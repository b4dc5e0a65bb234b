import Inspection.Text.Split

/-!
# Path

The text of paths, without looking at any file.  A path is a list of pieces between slashes, of
which the empty ones and the single dots after the first place say nothing; the others are its
components.

* `join_absolute`: an absolute path replaces what it is joined to.
-/

namespace Inspection

/-- A component of a path. -/
inductive Component
  | root
  | here
  | up
  | normal (name : String)
  deriving DecidableEq, Repr

namespace Path

/-- Whether a path begins at the root. -/
def isAbsolute (path : String) : Bool := path.toList.head? = some '/'

/-- One path after another.  An absolute one replaces the first, and an empty one leaves a slash at
its end. -/
def join (path further : String) : String :=
  if isAbsolute further then further
  else if path.toList.isEmpty ∨ path.toList.getLast? = some '/' then path ++ further
  else path ++ "/" ++ further

/-- The pieces of a path between slashes, each with whether it is a component. -/
def pieces (path : String) : List (Bool × List Char) :=
  match Text.split '/' path.toList with
  | [] => []
  | first :: rest =>
    (!first.isEmpty, first) :: rest.map fun piece => (!piece.isEmpty && piece != ['.'], piece)

/-- The component that a piece is. -/
def component (piece : List Char) : Component :=
  if piece = ['.'] then .here else if piece = ['.', '.'] then .up else .normal (String.ofList piece)

/-- The components of a path. -/
def components (path : String) : List Component :=
  (if isAbsolute path then [.root] else []) ++
    ((pieces path).filter (·.1)).map fun piece => component piece.2

/-- The pieces up to the last component, the last first. -/
def backward (path : String) : List (Bool × List Char) := (pieces path).reverse.dropWhile (!·.1)

/-- The path without its last component.  The root and the empty path have none. -/
def parent? (path : String) : Option String :=
  match backward path with
  | [] => none
  | _ :: before =>
    match before.dropWhile (!·.1) with
    | [] => some (if isAbsolute path then "/" else "")
    | kept => some (String.ofList (Text.join ['/'] (kept.reverse.map (·.2))))

/-- The name at the end of a path, if its last component is one. -/
def fileName? (path : String) : Option String :=
  match backward path with
  | [] => none
  | (_, piece) :: _ =>
    match component piece with
    | .normal name => some name
    | _ => none

/-- What follows the last point of the name at the end of a path.  A point at the beginning of the
name does not count. -/
def extension? (path : String) : Option String :=
  (fileName? path).bind fun name =>
    let parts := Text.split '.' name.toList
    match parts.reverse with
    | last :: first :: more =>
      if first.isEmpty ∧ more.isEmpty then none else some (String.ofList last)
    | _ => none

/-- The path with another name at its end. -/
def withFileName (path name : String) : String :=
  match fileName? path with
  | none => join path name
  | some _ => join ((parent? path).getD path) name

/-- Whether the last piece of a path is a name, so that the path may be that of a file. -/
def endsInName (path : String) : Bool :=
  match (Text.split '/' path.toList).getLast? with
  | some piece => !piece.isEmpty && piece != ['.'] && piece != ['.', '.']
  | none => false

theorem join_absolute {path further : String} (h : isAbsolute further = true) :
    join path further = further := by
  simp [join, h]

end Path

end Inspection
