import Inspection.Archive.Gzip
import Inspection.Archive.Tar
import Inspection.FileTree

/-!
# Archive

A directory packed into one file beside it.  The members are the directory and all that is below
it, each under the name of the directory and the way from there; links are packed as what they lead
to, and one that leads nowhere makes the packing fail.  What the file of an archive has in it is a
matter of its format.

* `create_missing`: where there is no directory, nothing changes.
-/

namespace Inspection

/-- Why there is no archive. -/
inductive ArchiveError
  | missingDirectory (directory : String)
  | io
  deriving DecidableEq

/-- The wording of an error.  What the operating system says is left open. -/
def ArchiveError.message : ArchiveError → String
  | missingDirectory directory => "Inspection directory " ++ directory ++ " does not exist"
  | io => "IO error: <io>"

namespace Archive

/-- A format of archives: how members are written into a file, and how a file is read. -/
structure Format where
  encode : List Member → List UInt8
  decode? : List UInt8 → Option (List Member)

/-- A tape archive, compressed. -/
def Format.tarGz : Format where
  encode members := Gzip.encode (Tar.encode members)
  decode? file := (Gzip.decode? file).bind Tar.decode?

/-- The end of the names of archives. -/
def suffix : String := ".tar.gz"

/-- The file of the archive of a directory. -/
def pathOf (directory : String) : String :=
  Path.withFileName directory ((Path.fileName? directory).getD "" ++ suffix)

/-- The members below a location that a path leads to, under a name; `none` if a link leads nowhere.
A path may go through at most some links. -/
def membersBelow? (tree : FileTree) :
    Nat → List Component → Location → List String → Option (List Member)
  | 0, _, _, _ => none
  | links + 1, path, loc, name => do
    let parts ← (tree.below loc).mapM fun (rest, node) =>
      match node with
      | .file content => some [⟨name ++ rest, some content⟩]
      | .directory => some [⟨name ++ rest, none⟩]
      | .link _ =>
        let path := path ++ rest.map .normal
        match tree.find path with
        | .present target =>
          match tree.node? target with
          | some (.file content) => some [⟨name ++ rest, some content⟩]
          | some .directory =>
            (membersBelow? tree links path target (name ++ rest)).map
              (⟨name ++ rest, none⟩ :: ·)
          | _ => none
        | _ => none
    return parts.flatten

/-- The members of the archive of a directory. -/
def membersOf? (tree : FileTree) (directory : String) : Option (List Member) :=
  let path := Path.components directory
  let name := (Path.fileName? directory).toList
  match tree.find path with
  | .present loc =>
    (membersBelow? tree (FileTree.linkLimit + 1) path loc name).map
      (name.map (fun n => ⟨[n], none⟩) ++ ·)
  | _ => none

/-- Packs a directory into a file, which is told.  The file is made before anything is read. -/
def create (format : Format) (tree : FileTree) (directory : String) :
    Except ArchiveError String × FileTree :=
  if !tree.hasDirectory directory then (.error (.missingDirectory directory), tree)
  else
    let path := pathOf directory
    match tree.writeFile path [] with
    | (tree, false) => (.error .io, tree)
    | (tree, true) =>
      match membersOf? tree directory with
      | none => (.error .io, tree)
      | some members =>
        match tree.writeFile path (format.encode members) with
        | (tree, true) => (.ok path, tree)
        | (tree, false) => (.error .io, tree)

theorem create_missing {format : Format} {tree : FileTree} {directory : String}
    (h : tree.hasDirectory directory = false) :
    create format tree directory = (.error (.missingDirectory directory), tree) := by
  simp [create, h]

end Archive

end Inspection
