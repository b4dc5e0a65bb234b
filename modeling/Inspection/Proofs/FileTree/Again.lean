import Inspection.Proofs.FileTree.Below

/-!
# File tree — writing again

A file that could be written can be filled again: the directories on the way are there then, and
the second content takes the place of the first.  Whether a content can be written has nothing to do
with its bytes, but for their number.

* `walk_append`, `walk_append_missing`: a path and what is appended to it.
* `makeDirectories_of_isDirectory`: where there is a directory, none is made.
* `isDirectory_of_makeDirectories`: where directories were made, there is one.
* `write_write`: of two files written at the same path the second is left.
-/

namespace Inspection.FileTree

variable {tree later made : FileTree} {l m loc : Location} {links : Nat}

/-! ### Longer paths -/

/-- **Behind a path to a directory** one goes on from there. -/
theorem walk_append {front : List Component} (h : walk tree links loc front = .present m)
    (hm : tree.node? m = some .directory) :
    ∃ links', ∀ rest, walk tree links loc (front ++ rest) = walk tree links' m rest := by
  fun_induction walk tree links loc front with
  | case1 =>
    cases h
    exact ⟨_, fun _ => rfl⟩
  | case2 _ _ _ ih | case3 _ _ _ ih | case4 _ _ _ ih =>
    obtain ⟨links', hrest⟩ := ih h
    refine ⟨links', fun rest => ?_⟩
    rw [List.cons_append, walk, hrest]
  | case8 _ _ _ _ hname hnode ih =>
    obtain ⟨links', hrest⟩ := ih h
    refine ⟨links', fun rest => ?_⟩
    rw [List.cons_append, walk, if_neg hname, hnode]
    exact hrest rest
  | case12 _ _ _ hname _ hnode _ ih =>
    obtain ⟨links', hrest⟩ := ih h
    refine ⟨links', fun rest => ?_⟩
    rw [List.cons_append, walk, if_neg hname, hnode, ← hrest, List.append_assoc]
  | case9 _ _ _ _ _ _ hnode =>
    cases h
    rw [hnode] at hm
    cases hm
  | case5 | case6 | case7 | case10 | case11 => cases h

/-- Behind a path to nothing there is nothing. -/
theorem walk_append_missing {front : List Component}
    (h : walk tree links loc front = .absent l ∨ walk tree links loc front = .missing)
    (c : Component) (rest : List Component) :
    walk tree links loc (front ++ c :: rest) = .missing := by
  fun_induction walk tree links loc front with
  | case2 _ _ _ ih | case3 _ _ _ ih | case4 _ _ _ ih =>
    rw [List.cons_append, walk]
    exact ih h
  | case6 _ _ _ _ hname hnode | case7 _ _ _ _ hname hnode =>
    rw [List.cons_append, walk, if_neg hname, hnode]
    simp
  | case8 _ _ _ _ hname hnode ih =>
    rw [List.cons_append, walk, if_neg hname, hnode]
    exact ih h
  | case12 _ _ _ hname _ hnode _ ih =>
    rw [List.cons_append, walk, if_neg hname, hnode]
    simp only [← List.append_assoc]
    exact ih h
  | case1 | case5 | case9 | case10 | case11 => obtain ⟨⟨⟩⟩ | ⟨⟨⟩⟩ := h

/-! ### Directories that are there -/

/-- **Where there is a directory, none is made.** -/
theorem makeDirectories_of_isDirectory {path : List Component} (h : tree.isDirectory path = true) :
    tree.makeDirectories path = (tree, true) := by
  rcases List.eq_nil_or_concat path with rfl | ⟨before, last, rfl⟩
  · rfl
  rw [List.concat_eq_append] at h ⊢
  obtain ⟨l, hfind, hnode⟩ := isDirectory_eq_true.mp h
  have hrefused : tree.makeDirectory before last = .refused := by
    unfold makeDirectory
    split
    next loc hbefore =>
      split
      next name =>
        split
        next hcond =>
          -- Then there would be nothing where the whole path leads.
          obtain ⟨hloc, hname, hnone⟩ := hcond
          obtain ⟨links', hrest⟩ := walk_append hbefore hloc
          rw [find, hrest, walk, if_neg (by simp [hname]), hnone] at hfind
          cases hfind
        next => rfl
      next => rfl
    next l hbefore =>
      rw [find, walk_append_missing (.inl hbefore)] at hfind
      cases hfind
    next hbefore =>
      rw [find, walk_append_missing (l := []) (.inr hbefore)] at hfind
      cases hfind
    next => rfl
  rw [makeDirectories, List.reverse_append, List.reverse_singleton, List.singleton_append,
    makeDirectoriesBack, List.reverse_reverse, hrefused]
  exact congrArg _ h

theorem isDirectory_of_made {before : List Component} {last : Component}
    (h : tree.makeDirectory before last = .made later) :
    later.isDirectory (before ++ [last]) = true := by
  unfold makeDirectory at h
  split at h
  next loc hfind =>
    split at h
    next name =>
      split at h
      next hcond =>
        obtain ⟨hloc, hname, hnone⟩ := hcond
        cases h
        have hkeep : ∀ {m : Location} {node : Node}, tree.node? m = some node →
            (tree.set (loc ++ [name]) .directory).node? m = some node := by
          intro m node hm
          rw [node?_set_of_ne, hm]
          rintro rfl
          cases hnone.symm.trans hm
        have hbefore := walk_of_keeps (fun hm _ => hkeep hm) hfind hloc
        obtain ⟨links', hrest⟩ := walk_append hbefore (hkeep hloc)
        have hthere := node?_set_self (List.append_ne_nil_of_right_ne_nil loc
          (List.cons_ne_nil name [])) tree .directory
        refine isDirectory_eq_true.mpr ⟨loc ++ [name], ?_, hthere⟩
        have hlast := hrest [.normal name]
        rw [walk, if_neg (by simp [hname]), hthere] at hlast
        exact hlast.trans (by rw [walk])
      next => cases h
    next => cases h
  all_goals cases h

/-- **Where directories were made, there is one.** -/
theorem isDirectory_of_makeDirectories {path : List Component} (hne : path ≠ [])
    (h : tree.makeDirectories path = (made, true)) : made.isDirectory path = true := by
  rcases List.eq_nil_or_concat path with rfl | ⟨before, last, rfl⟩
  · exact absurd rfl hne
  rw [List.concat_eq_append] at h ⊢
  rw [makeDirectories, List.reverse_append, List.reverse_singleton, List.singleton_append,
    makeDirectoriesBack, List.reverse_reverse] at h
  split at h
  next hmade =>
    cases h
    exact isDirectory_of_made hmade
  next =>
    obtain ⟨rfl, hdir⟩ := Prod.mk.inj h
    exact hdir
  next =>
    split at h
    next => cases h
    next =>
      split at h
      next hmade =>
        cases h
        exact isDirectory_of_made hmade
      next =>
        obtain ⟨rfl, hdir⟩ := Prod.mk.inj h
        exact hdir

/-! ### Writing again -/

/-- Where a file could be written, it is filled with anything, and can be filled again. -/
theorem exists_of_written {path : String} {content : List UInt8}
    (h : (tree.write path content).2 = true) : ∃ (made : FileTree) (l : Location),
      (∀ other, tree.write path other = made.fill l other) ∧
      ∀ old other, (made.set l (.file old)).write path other =
        (made.set l (.file old)).fill l other := by
  unfold write at h
  split at h
  next => cases h
  next hparent =>
    split at h
    next => cases h
    next made hmade =>
      rcases writeFile_cases made path with hno | ⟨l, hopens, hfill⟩
      · rw [hno] at h
        cases h
      refine ⟨made, l, fun other => ?_, fun old other => ?_⟩
      · rw [write, if_neg hparent, hmade]
        exact hfill other
      · -- The directories are there, and the file takes the place of the old one.
        have hdirs : (made.set l (.file old)).makeDirectories (directoryOf path) =
            (made.set l (.file old), true) := by
          by_cases hnil : directoryOf path = []
          · rw [hnil]
            rfl
          · obtain ⟨m, hfind, hm⟩ :=
              isDirectory_eq_true.mp (isDirectory_of_makeDirectories hnil hmade)
            have hkeep := hopens.free.node?_set old hm (by simp)
            exact makeDirectories_of_isDirectory (isDirectory_eq_true.mpr
              ⟨m, walk_set_directory hopens.free old hfind hm, hkeep⟩)
        have hfind : (made.set l (.file old)).find (Path.components path) = .present l :=
          walk_set hopens.free old hopens.leads
        have hnode := node?_set_self hopens.free.ne_nil made (.file old)
        rw [write, if_neg hparent, hdirs]
        simp only
        rw [writeFile, if_neg (by simp [hopens.filePath]), hfind]
        simp only [hnode]

/-- **Whether a file can be written** depends on nothing of its content but the length. -/
theorem write_of_length_le {path : String} {content other : List UInt8}
    (h : (tree.write path content).2 = true) (hle : other.length ≤ content.length) :
    (tree.write path other).2 = true := by
  obtain ⟨made, l, hfill, -⟩ := exists_of_written h
  rw [hfill, fill_succeeds_iff] at h ⊢
  refine kept_of_room fun most hroom => hle.trans ?_
  rw [kept, hroom] at h
  exact h ▸ List.length_take_le ..

/-- **Of two files written at the same path** the second is left. -/
theorem write_write {path : String} {content : List UInt8}
    (h : (tree.write path content).2 = true) (other : List UInt8) :
    (tree.write path content).1.write path other = tree.write path other := by
  obtain ⟨made, l, hfill, hagain⟩ := exists_of_written h
  rw [hfill, hfill, fill, hagain, fill, fill, set_set]
  rfl

end Inspection.FileTree
