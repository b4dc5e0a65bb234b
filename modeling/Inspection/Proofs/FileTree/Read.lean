import Inspection.FileTree

/-!
# File tree — what is written is read

A file takes the place of a file, or of nothing.  A path to it passes neither on its way, only
directories and links, so it leads there as before, whatever links there are.

* `walk_set`: where a file is put, the path that led there leads to that file.
* `write_cases_any`: whatever would be written, a file is opened behind directories or it is not.
* `read?_of_write`: what has been written is read.
-/

namespace Inspection.FileTree

variable {tree : FileTree} {l : Location}

theorem set_set (tree : FileTree) (l : Location) (old node : Node) :
    (tree.set l old).set l node = tree.set l node := by
  have hset : ∀ nodes : List (Location × Node),
      setNode l node (setNode l old nodes) = setNode l node nodes := by
    intro nodes
    induction nodes with
    | nil => simp [setNode]
    | cons entry rest ih =>
      rw [setNode, setNode]
      split
      next => rw [setNode, if_pos rfl]
      next he => rw [setNode, if_neg he, ih]
  rw [set, set, set, hset]

/-- Where a path leads to nothing, there is nothing. -/
theorem node?_of_walk_absent {links : Nat} {loc : Location} {path : List Component}
    (h : walk tree links loc path = .absent l) : tree.node? l = none := by
  fun_induction walk tree links loc path with
  | case2 _ _ _ ih | case3 _ _ _ ih | case4 _ _ _ ih => exact ih h
  | case6 _ _ _ _ _ hnone =>
    cases h
    exact hnone
  | case8 _ _ _ _ _ _ ih | case12 _ _ _ _ _ _ _ ih => exact ih h
  | case1 | case5 | case7 | case9 | case10 | case11 => cases h

/-- What a file may take the place of. -/
def IsFree (tree : FileTree) (l : Location) : Prop :=
  ∀ node, tree.node? l = some node → ∃ content, node = .file content

theorem IsFree.ne_nil (h : IsFree tree l) : l ≠ [] := by
  rintro rfl
  obtain ⟨_, ⟨⟩⟩ := h .directory rfl

/-- Directories and links stay, for no file takes their place. -/
theorem IsFree.node?_set (h : IsFree tree l) (content : List UInt8) {m : Location} {node : Node}
    (hm : tree.node? m = some node) (hnode : ∀ content, node ≠ .file content) :
    (tree.set l (.file content)).node? m = some node := by
  have hne : m ≠ l := by
    rintro rfl
    obtain ⟨c, rfl⟩ := h _ hm
    exact hnode c rfl
  rw [node?_set_of_ne hne, hm]

/-- **Where a file is put, the path that led there leads to that file.** -/
theorem walk_set (hfree : IsFree tree l) (content : List UInt8) {links : Nat} {loc : Location}
    {path : List Component}
    (h : walk tree links loc path = .absent l ∨ walk tree links loc path = .present l) :
    walk (tree.set l (.file content)) links loc path = .present l := by
  have hself := node?_set_self hfree.ne_nil tree (.file content)
  fun_induction walk tree links loc path with
  | case1 =>
    obtain ⟨⟨⟩⟩ | ⟨⟨⟩⟩ := h
    rw [walk]
  | case2 _ _ _ ih | case3 _ _ _ ih | case4 _ _ _ ih =>
    rw [walk]
    exact ih h
  | case6 _ _ _ _ hname _ hrest | case9 _ _ _ _ hname _ _ hrest =>
    obtain ⟨⟨⟩⟩ | ⟨⟨⟩⟩ := h
    rw [walk, if_neg hname, hself]
    exact if_pos hrest
  | case8 _ _ _ _ hname hnode ih =>
    rw [walk, if_neg hname, hfree.node?_set content hnode nofun]
    exact ih h
  | case12 _ _ _ hname _ hnode _ ih =>
    rw [walk, if_neg hname, hfree.node?_set content hnode nofun]
    exact ih h
  | case5 | case7 | case10 | case11 => obtain ⟨⟨⟩⟩ | ⟨⟨⟩⟩ := h

/-! ### Writing -/

/-- A file can be opened for writing where a path leads. -/
structure Opens (tree : FileTree) (path : String) (l : Location) : Prop where
  filePath : isFilePath path = true
  leads : tree.find (Path.components path) = .absent l ∨
    tree.find (Path.components path) = .present l
  free : IsFree tree l

/-- All of a content is written exactly where all of it is kept. -/
theorem fill_succeeds_iff {content : List UInt8} :
    (tree.fill l content).2 = true ↔ tree.kept l content = content := by
  simp [fill]

theorem read?_of_find {path : String} {content : List UInt8} (hpath : isFilePath path = true)
    (hfind : tree.find (Path.components path) = .present l)
    (hfile : tree.node? l = some (.file content)) : tree.read? path = some content := by
  unfold read?
  rw [hpath, hfind]
  simp [hfile]

/-- What the file holds once it is filled. -/
theorem Opens.read?_fill {path : String} (h : Opens tree path l) (content : List UInt8) :
    (tree.fill l content).1.read? path = some (tree.kept l content) :=
  read?_of_find h.filePath (walk_set h.free (tree.kept l content) h.leads)
    (node?_set_self h.free.ne_nil ..)

/-- Whatever would be written, a file is opened, or nothing happens. -/
theorem writeFile_cases (tree : FileTree) (path : String) :
    (∀ content, tree.writeFile path content = (tree, false)) ∨
      ∃ l, Opens tree path l ∧ ∀ content, tree.writeFile path content = tree.fill l content := by
  unfold writeFile
  by_cases hpath : isFilePath path = true
  case neg => exact .inl fun content => if_pos (by simpa using hpath)
  simp only [hpath, Bool.not_true, Bool.false_eq_true, if_false]
  cases hfind : tree.find (Path.components path) with
  | missing | refused => exact .inl fun _ => rfl
  | absent l =>
    have hnone := node?_of_walk_absent hfind
    exact .inr ⟨l, ⟨hpath, .inl hfind, fun _ hnode => nomatch hnone.symm.trans hnode⟩, fun _ => rfl⟩
  | present l =>
    by_cases hfile : ∃ old, tree.node? l = some (.file old)
    · obtain ⟨old, hold⟩ := hfile
      refine .inr ⟨l, ⟨hpath, .inr hfind, fun node hnode => ⟨old, ?_⟩⟩, fun content => by simp [hold]⟩
      exact Option.some.inj (hnode.symm.trans hold)
    · refine .inl fun content => ?_
      simp only
      split
      next old hold => exact absurd ⟨old, hold⟩ hfile
      next => rfl

/-- **Whatever would be written**, directories are made, and then a file is opened, or it is not. -/
theorem write_cases_any (tree : FileTree) (path : String) :
    ∃ way made, made = (tree.makeDirectories way).1 ∧
      ((∀ content, tree.write path content = (made, false)) ∨
        ∃ l, Opens made path l ∧ ∀ content, tree.write path content = made.fill l content) := by
  unfold write
  split
  · exact ⟨[], tree, rfl, .inl fun _ => rfl⟩
  · refine ⟨directoryOf path, _, rfl, ?_⟩
    obtain ⟨made, ok⟩ := tree.makeDirectories (directoryOf path)
    cases ok with
    | false => exact .inl fun _ => rfl
    | true => exact writeFile_cases made path

/-- **What has been written is read.** -/
theorem read?_of_write {path : String} {content : List UInt8}
    (h : (tree.write path content).2 = true) :
    (tree.write path content).1.read? path = some content := by
  obtain ⟨way, made, rfl, hno | ⟨l, hopens, hfill⟩⟩ := write_cases_any tree path
  · rw [hno] at h
    cases h
  · rw [hfill] at h ⊢
    rw [hopens.read?_fill, fill_succeeds_iff.mp h]

end Inspection.FileTree
