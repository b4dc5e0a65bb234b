import Inspection.Proofs.FileTree.Again
import Inspection.Proofs.Json.Accepted
import Inspection.Proofs.Json.Same
import Inspection.Sink

/-!
# Sink — documents in their normal form

A sink for JSON takes exactly the bytes that denote a value, and writes the normal form of that
value.  If its numbers can be written, the normal form denotes the same value again, is its own
normal form, and is the same for all bytes that denote the same value.

* `tidy_of_denotes`, `tidy_of_not_denotes`: what is taken, and what is not.
* `denotes_normal`, `normal_congr`: the normal form denotes the value and nothing but the value.
* `put_normalizes`: what comes of it in the file tree.
-/

namespace Inspection

open Json (Denotes Same)

/-- Some file of at least a size can be written at a path. -/
def FileTree.CanWrite (tree : FileTree) (path : String) (size : Nat) : Prop :=
  ∃ content, size ≤ content.length ∧ (tree.write path content).2 = true

namespace Sink

variable {tree : FileTree} {path : String} {bytes : List UInt8} {v w : Json}

/-- The normal form of a value. -/
def normal (v : Json) : List UInt8 := Text.encode v.sorted.pretty

theorem tidy_of_denotes (h : Denotes bytes v) : tidy bytes = .ok (normal v) := by
  rw [tidy, Json.read_eq_ok.mpr ⟨v, h, rfl⟩]
  rfl

theorem tidy_of_not_denotes (h : ¬∃ v, Denotes bytes v) : ∃ reason, tidy bytes = .error reason := by
  cases hread : Json.read bytes with
  | ok w =>
    obtain ⟨v, hv, -⟩ := Json.read_eq_ok.mp hread
    exact absurd ⟨v, hv⟩ h
  | error reason => exact ⟨reason, by rw [tidy, hread]; rfl⟩

/-- **The normal form denotes the value** in order. -/
theorem denotes_normal (h : Denotes bytes v) (hw : v.InWords) : Denotes (normal v) v.sorted := by
  obtain ⟨_, -, -, hwithin⟩ := h
  exact ⟨_, rfl, Json.spelled_pretty (Json.inWords_sorted hw), Json.within_sorted hwithin⟩

/-- The normal form of the value in order is the same. -/
theorem normal_sorted (v : Json) : normal v.sorted = normal v := by
  rw [normal, Json.sorted_sorted, normal]

/-- Values that are the same have the same normal form. -/
theorem normal_congr (h : Same v w) : normal v = normal w := by
  rw [normal, h.sorted_eq, normal]

theorem written_of_canWrite {content : List UInt8} (h : tree.CanWrite path content.length) :
    (tree.write path content).2 = true :=
  h.elim fun _ ⟨hle, hwritten⟩ => FileTree.write_of_length_le hwritten hle

/-- A document is put where a file as long as its normal form can be written. -/
theorem put_of_denotes (h : Denotes bytes v) (hwrite : tree.CanWrite path (normal v).length) :
    put tree bytes (.json path) = (.ok (), (tree.write path (normal v)).1) := by
  have hwritten := written_of_canWrite hwrite
  rw [put, tidy_of_denotes h]
  simp only [writeFile]
  split
  next hw => rw [hw]
  next hw =>
    rw [hw] at hwritten
    cases hwritten

theorem put_of_not_denotes (h : ¬∃ v, Denotes bytes v) (tree : FileTree) (path : String) :
    ∃ reason, put tree bytes (.json path) = (.error (.invalidJson path reason), tree) := by
  obtain ⟨reason, htidy⟩ := tidy_of_not_denotes h
  exact ⟨reason, by rw [put, htidy]⟩

/-- Whoever is told of a document that is none has put none. -/
theorem not_denotes_of_put {reason : JsonError}
    (h : (put tree bytes (.json path)).1 = .error (.invalidJson path reason)) :
    ¬∃ v, Denotes bytes v := by
  rintro ⟨v, hv⟩
  rw [put, tidy_of_denotes hv] at h
  simp only [writeFile] at h
  split at h <;> cases h

/-- What comes of putting a document of a value: something is written and a tree is left. -/
structure Normalizes (tree : FileTree) (path : String) (bytes : List UInt8) (v : Json)
    (written : List UInt8) (later : FileTree) : Prop where
  puts : put tree bytes (.json path) = (.ok (), later)
  file : later.read? path = some written
  /-- The file denotes the same value, and is read as the same. -/
  denotes : ∃ w, Denotes written w ∧ Same v w
  read : Json.read written = Json.read bytes
  /-- Put again in its place, it changes nothing. -/
  again : put later written (.json path) = (.ok (), later)
  /-- Put anywhere else, it is written as it is. -/
  anywhere : ∀ other : FileTree, ∀ place, other.CanWrite place written.length →
    put other written (.json place) = (.ok (), (other.write place written).1)
  /-- Whatever else denotes the same value comes to the same. -/
  alike : ∀ bytes' w, Denotes bytes' w → Same v w → put tree bytes' (.json path) = (.ok (), later)

/-- **A sink for JSON** takes what denotes a value and nothing else, and writes its normal form. -/
theorem put_normalizes (tree : FileTree) (path : String) (bytes : List UInt8) :
    ((∃ reason, (put tree bytes (.json path)).1 = .error (.invalidJson path reason)) ↔
      ¬∃ v, Denotes bytes v) ∧
    ((¬∃ v, Denotes bytes v) → (put tree bytes (.json path)).2 = tree) ∧
    ∀ v, Denotes bytes v → tree.CanWrite path (normal v).length →
      (put tree bytes (.json path)).1 = .ok () ∧
      (v.InWords → ∃ written later, Normalizes tree path bytes v written later) := by
  refine ⟨⟨fun ⟨reason, h⟩ => not_denotes_of_put h, fun h => ?_⟩, fun h => ?_,
    fun v hv hwrite => ⟨?_, fun hw => ?_⟩⟩
  · obtain ⟨reason, hput⟩ := put_of_not_denotes h tree path
    exact ⟨reason, by rw [hput]⟩
  · obtain ⟨reason, hput⟩ := put_of_not_denotes h tree path
    rw [hput]
  · rw [put_of_denotes hv hwrite]
  · have hnormal := denotes_normal hv hw
    have hwritten := written_of_canWrite hwrite
    have hagain := FileTree.write_write hwritten (normal v)
    have hcan : (tree.write path (normal v)).1.CanWrite path (normal v.sorted).length :=
      ⟨normal v, by rw [normal_sorted], by rw [hagain, hwritten]⟩
    exact ⟨normal v, (tree.write path (normal v)).1,
      { puts := put_of_denotes hv hwrite
        file := FileTree.read?_of_write hwritten
        denotes := ⟨v.sorted, hnormal, Json.same_sorted v⟩
        read := by
          rw [Json.read_eq_ok.mpr ⟨v, hv, rfl⟩,
            Json.read_eq_ok.mpr ⟨v.sorted, hnormal, Json.sorted_sorted v⟩]
        again := by rw [put_of_denotes hnormal hcan, normal_sorted, hagain]
        anywhere := fun other place hother => by
          rw [put_of_denotes hnormal (by rwa [normal_sorted]), normal_sorted]
        alike := fun bytes' w hw' hsame => by
          rw [put_of_denotes hw' (normal_congr hsame ▸ hwrite), normal_congr hsame] }⟩

/-- A value with an overwritten field. -/
def repeated : Json :=
  .object [("b", .natural 1), ("a", .array [.null, .number (.integer (-2))]), ("b", .string "\n")]

/-- The same value without it, in another order. -/
def unrepeated : Json :=
  .object [("b", .string "\n"), ("a", .array [.null, .number (.integer (-2))])]

theorem same_repeated : Same repeated unrepeated := by
  have hdrop := (@Json.Rewording.overwritten ("b", .natural 1) []
    [("a", .array [.null, .number (.integer (-2))]), ("b", .string "\n")] (by decide)).same
  have hswap := (@Json.Rewording.swap ("a", .array [.null, .number (.integer (-2))])
    ("b", .string "\n") [] [] (by decide)).same
  exact hdrop.trans hswap

theorem put_normalizes_repeated :
    let tree : FileTree := { nodes := [], working := [] }
    let bytes := Text.encode repeated.compact
    let other := Text.encode unrepeated.pretty
    tree.CanWrite "x.json" (normal repeated).length ∧ Denotes bytes repeated ∧ repeated.InWords ∧
      Denotes other unrepeated ∧ Same repeated unrepeated ∧
      ∃ written later, put tree bytes (.json "x.json") = (.ok (), later) ∧
        later.read? "x.json" = some written ∧ put later written (.json "x.json") = (.ok (), later) ∧
        put tree other (.json "x.json") = (.ok (), later) := by
  intro tree bytes other
  have hcan : tree.CanWrite "x.json" (normal repeated).length := by
    have hdirectory : FileTree.directoryOf "x.json" = [] := by decide
    have hpath : Path.components "x.json" = [.normal "x.json"] := by decide
    refine ⟨normal repeated, Nat.le_refl _, ?_⟩
    rw [FileTree.write, if_neg (by decide), hdirectory]
    change (tree.writeFile "x.json" (normal repeated)).2 = true
    rw [FileTree.writeFile, if_neg (by decide), FileTree.find, hpath, FileTree.walk,
      if_neg (by decide)]
    exact FileTree.fill_succeeds_iff.mpr rfl
  have hwords : repeated.InWords := by
    simp [repeated, Json.InWords, Json.InWordsFields, Json.InWordsItems, Json.natural, Json.IsWord]
  have hwords' : unrepeated.InWords := by
    simp [unrepeated, Json.InWords, Json.InWordsFields, Json.InWordsItems, Json.IsWord]
  have hbytes : Denotes bytes repeated := by
    refine ⟨_, rfl, Json.spelled_compact hwords, ?_⟩
    simp [repeated, Json.Within, Json.WithinFields, Json.WithinItems, Json.depthLimit, Json.natural]
  have hother : Denotes other unrepeated := by
    refine ⟨_, rfl, Json.spelled_pretty hwords', ?_⟩
    simp [unrepeated, Json.Within, Json.WithinFields, Json.WithinItems, Json.depthLimit]
  obtain ⟨-, -, htaken⟩ := put_normalizes tree "x.json" bytes
  obtain ⟨-, hnormal⟩ := htaken repeated hbytes hcan
  obtain ⟨written, later, h⟩ := hnormal hwords
  exact ⟨hcan, hbytes, hwords, hother, same_repeated, written, later, h.puts, h.file, h.again,
    h.alike other unrepeated hother same_repeated⟩

end Sink

end Inspection
