import Inspection.Arithmetic
import Inspection.FileTree
import Inspection.Json.Decode

/-!
# Statistics

What a run left behind: the number of files, their bytes, and the seconds it took.  Regular files
are counted; links are not, and are not followed either.
-/

namespace Inspection

/-- What a run left behind. -/
structure Statistics where
  files : Nat
  bytes : Nat
  seconds : UInt64
  deriving DecidableEq, Repr

namespace Statistics

/-- The record of statistics. -/
def toJson (s : Statistics) : Json :=
  .object [("total_files", .natural s.files), ("total_size_bytes", .natural s.bytes),
    ("duration_secs", .natural s.seconds.toNat)]

/-- The number of files. -/
def filesField : Decoder.Field Nat := .required "total_files" Decoder.count

/-- The number of bytes. -/
def bytesField : Decoder.Field Nat :=
  .required "total_size_bytes" (Decoder.unsigned (UInt64.size - 1) "u64")

/-- The seconds. -/
def secondsField : Decoder.Field UInt64 := .required "duration_secs" Decoder.word64

/-- Reads the record of statistics. -/
def decode : Decoder Statistics := fun d => do
  let found ← Decoder.fields "CollectionStats"
    [filesField.rule, bytesField.rule, secondsField.rule] d
  return {
    files := ← filesField.value found
    bytes := ← bytesField.value found
    seconds := ← secondsField.value found }

/-- The statistics of some contents. -/
def ofContents (contents : List (List UInt8)) (seconds : UInt64) : Statistics :=
  ⟨contents.length, Arithmetic.sum (contents.map List.length), seconds⟩

/-- Counts the files that a path leads to. -/
def gather (tree : FileTree) (path : String) (seconds : UInt64) : Statistics :=
  ofContents (tree.contents path) seconds

end Statistics

end Inspection
