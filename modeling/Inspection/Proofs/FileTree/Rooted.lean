import Inspection.Proofs.FileTree.Read
import Inspection.Proofs.FileTree.Write

/-!
# File tree — writing along any path

What writing a file changes at whatever path, with links, dots and files on its way.  A tree is
*rooted* when all that stands in it stands in directories, and its working directory is one.

* `Rooted.hollow_of_grows`: in a rooted tree, directories that appear hold no file.
* `makeDirectories_keeps`: making directories keeps what every single directory keeps.
* `write_of_failed`: where a file is not written, directories appear, and nothing else changes
  unless the device gives out.
* `Rooted.walk_way`, `Rooted.write`: where a path leads, there are directories on the way, and so
  writing keeps a tree rooted.
-/

namespace Inspection.FileTree

variable {tree later : FileTree} {l m loc : Location}

/-! ### Rooted trees -/

/-- All stands in directories, and so does the work. -/
structure Rooted (tree : FileTree) : Prop where
  working : tree.node? tree.working = some .directory
  stands : ∀ entry ∈ tree.nodes, ∀ front ∈ entry.1.inits, front ≠ entry.1 →
    tree.node? front = some .directory

instance (tree : FileTree) : Decidable tree.Rooted :=
  decidable_of_iff (_ ∧ _) ⟨fun h => ⟨h.1, h.2⟩, fun h => ⟨h.working, h.stands⟩⟩

/-- No file stands at a location or below it, but for own ones. -/
def Hollow (tree : FileTree) (Own : Location → Prop) (l : Location) : Prop :=
  ∀ m, l <+: m → ¬Own m → ∀ content, tree.node? m ≠ some (.file content)

theorem mem_of_node? {node : Node} (hm : m ≠ []) (h : tree.node? m = some node) :
    (m, node) ∈ tree.nodes := by
  rw [node?, if_neg hm] at h
  obtain ⟨entry, hfind, rfl⟩ := Option.map_eq_some_iff.mp h
  have hplace : entry.1 = m := by simpa using List.find?_some hfind
  rw [← hplace]
  exact List.mem_of_find?_eq_some hfind

theorem Rooted.directory (h : tree.Rooted) {node : Node} (hm : tree.node? m = some node)
    (hl : Before m l) : tree.node? l = some .directory := by
  have hne : m ≠ [] := by
    rintro rfl
    exact hl.2 (List.prefix_nil.mp hl.1)
  exact h.stands _ (mem_of_node? hne hm) l ((List.mem_inits _ _).mpr hl.1) hl.2

/-- **In a rooted tree, directories that appear hold no file** but own ones. -/
theorem Rooted.hollow_of_grows {Own New : Location → Prop} (h : tree.Rooted)
    (hg : Grows Own New tree later) (hl : tree.node? l = none) : later.Hollow Own l := by
  intro m hm hown content hfile
  have hold := hg.was hown (by rintro ⟨⟩) hfile
  by_cases he : l = m
  · rw [he, hold] at hl
    cases hl
  · rw [h.directory hold ⟨hm, he⟩] at hl
    cases hl

/-- Directories have appeared, which hold no file but own ones, and nothing else has changed but
these. -/
abbrev GrowsHollow (Own : Location → Prop) (tree later : FileTree) : Prop :=
  Grows Own (fun l => tree.Rooted → later.Hollow Own l) tree later

theorem Grows.hollow {Own New : Location → Prop} (h : Grows Own New tree later) :
    GrowsHollow Own tree later where
  working := h.working
  room := h.room
  node l hl := (h.node l hl).imp_right fun ⟨hnone, hdir, _⟩ =>
    ⟨hnone, hdir, fun rooted => rooted.hollow_of_grows h hnone⟩

/-! ### Making directories -/

/-- A directory is made in a directory, where nothing was. -/
theorem makeDirectory_made {before : List Component} {last : Component}
    (h : tree.makeDirectory before last = .made later) : ∃ loc name,
      tree.node? loc = some .directory ∧ tree.node? (loc ++ [name]) = none ∧
      later = tree.set (loc ++ [name]) .directory := by
  unfold makeDirectory at h
  split at h
  next loc hfind =>
    split at h
    next name =>
      split at h
      next hcond =>
        cases h
        exact ⟨loc, name, hcond.1, hcond.2.2, rfl⟩
      · cases h
    · cases h
  all_goals cases h

/-- **Making directories** keeps what every single directory keeps that is made in another, where
nothing was. -/
theorem makeDirectories_keeps {P : FileTree → Prop}
    (hstep : ∀ tree loc name, P tree → tree.node? loc = some .directory →
      tree.node? (loc ++ [name]) = none → P (tree.set (loc ++ [name]) .directory))
    (h : P tree) (path : List Component) : P (tree.makeDirectories path).1 := by
  have hmade : ∀ {tree later : FileTree} {before : List Component} {last : Component}, P tree →
      tree.makeDirectory before last = .made later → P later := by
    intro tree later before last h hm
    obtain ⟨loc, name, hdir, hnone, rfl⟩ := makeDirectory_made hm
    exact hstep _ _ _ h hdir hnone
  unfold makeDirectories
  generalize path.reverse = back
  induction back with
  | nil => exact h
  | cons last before ih =>
    rw [makeDirectoriesBack]
    split
    next hm => exact hmade h hm
    next => exact h
    next =>
      split
      next hb => rwa [hb] at ih
      next hb =>
        rw [hb] at ih
        split
        next hm => exact hmade ih hm
        next => exact ih

/-- Making directories makes directories, whether or not it comes to its end. -/
theorem makeDirectories_grows_any (tree : FileTree) (path : List Component) :
    Grows (fun _ => False) (fun _ => True) tree (tree.makeDirectories path).1 := by
  refine makeDirectories_keeps (P := Grows _ _ tree)
    (fun now loc name h _ hnone => ?_) (.refl ..) path
  exact h.trans ((grows_set hnone).mono (fun _ => id) fun _ _ _ => trivial)

/-! ### Writing -/

/-- What the writing of a file leaves that breaks off: where the path leads, a file with as much as
its device has taken, and directories on the way. -/
structure BrokenOff (tree : FileTree) (path : String) (content : List UInt8) (later : FileTree)
    (l : Location) : Prop where
  leads : later.find (Path.components path) = .present l
  file : later.node? l = some (.file (tree.kept l content))
  short : tree.kept l content ≠ content
  /-- It was a file before, or nothing. -/
  free : IsFree tree l
  grows : GrowsHollow (· = l) tree later

/-- **Where a file is not written**, directories appear and nothing else changes, or the writing has
broken off. -/
theorem write_of_failed {path : String} {content : List UInt8}
    (h : (tree.write path content).2 = false) :
    GrowsHollow (fun _ => False) tree (tree.write path content).1 ∨
      ∃ l, BrokenOff tree path content (tree.write path content).1 l := by
  obtain ⟨way, made, rfl, hno | ⟨l, hopens, hfill⟩⟩ := write_cases_any tree path
  · rw [hno]
    exact .inl (makeDirectories_grows_any tree way).hollow
  · have hgrows := makeDirectories_grows_any tree way
    rw [hfill] at h ⊢
    have hshort : ¬tree.kept l content = content := by
      rw [← hgrows.kept_eq, ← fill_succeeds_iff, h]
      exact Bool.false_ne_true
    have hleft : Grows (· = l) (fun _ => True) tree
        ((tree.makeDirectories way).1.fill l content).1 := by
      refine ⟨hgrows.working, hgrows.room, fun m hm => ?_⟩
      rw [fill, node?_set_of_ne hm]
      exact hgrows.node m id
    refine .inr ⟨l,
      { leads := walk_set hopens.free _ hopens.leads
        file := ?_
        short := hshort
        free := fun node hnode => hopens.free node (hgrows.stays id hnode)
        grows := hleft.hollow }⟩
    rw [← hgrows.kept_eq]
    exact node?_set_self hopens.free.ne_nil ..

/-! ### Rooted trees stay rooted -/

theorem Rooted.directory_in (h : tree.Rooted) (hloc : tree.node? loc = some .directory)
    {name : String} (hl : Before (loc ++ [name]) l) : tree.node? l = some .directory := by
  by_cases he : l = loc
  · rw [he, hloc]
  · exact h.directory hloc ⟨before_concat_iff.mp hl, he⟩

/-- **Where a path leads**, there are directories on the way. -/
theorem Rooted.walk_way (h : tree.Rooted) {links : Nat} {path : List Component}
    (hloc : tree.node? loc = some .directory)
    (hw : walk tree links loc path = .absent l ∨ walk tree links loc path = .present l) :
    ∀ front, Before l front → tree.node? front = some .directory := by
  fun_induction walk tree links loc path with
  | case1 =>
    obtain ⟨⟨⟩⟩ | ⟨⟨⟩⟩ := hw
    exact fun front => h.directory hloc
  | case2 _ _ _ ih => exact ih rfl hw
  | case3 _ _ _ ih => exact ih hloc hw
  | case4 _ loc _ ih =>
    refine ih ?_ hw
    rcases List.eq_nil_or_concat loc with rfl | ⟨init, last, rfl⟩
    · rfl
    · rw [List.concat_eq_append] at hloc ⊢
      rw [List.dropLast_concat]
      exact h.directory hloc (before_concat_iff.mpr (List.prefix_refl _))
  | case6 | case9 =>
    obtain ⟨⟨⟩⟩ | ⟨⟨⟩⟩ := hw
    exact fun front => h.directory_in hloc
  | case8 _ _ _ _ _ hdir ih => exact ih hdir hw
  | case12 _ _ _ _ _ _ _ ih => exact ih hloc hw
  | case5 | case7 | case10 | case11 => obtain ⟨⟨⟩⟩ | ⟨⟨⟩⟩ := hw

theorem mem_setNode {node : Node} {nodes : List (Location × Node)} {entry : Location × Node}
    (h : entry ∈ setNode l node nodes) : entry.1 = l ∨ entry ∈ nodes := by
  induction nodes with
  | nil => exact .inl (congrArg (·.1) (List.mem_singleton.mp h))
  | cons first rest ih =>
    rw [setNode] at h
    split at h
    · rcases List.mem_cons.mp h with rfl | h
      · exact .inl rfl
      · exact .inr (List.mem_cons_of_mem _ h)
    · rcases List.mem_cons.mp h with rfl | h
      · exact .inr List.mem_cons_self
      · exact (ih h).imp_right (List.mem_cons_of_mem _)

/-- What is put into directories, in the place of a file or of nothing, keeps a tree rooted. -/
theorem Rooted.set (h : tree.Rooted) (hfree : IsFree tree l)
    (hway : ∀ front, Before l front → tree.node? front = some .directory) (node : Node) :
    (tree.set l node).Rooted := by
  have hkeeps : ∀ {front : Location}, tree.node? front = some .directory →
      (tree.set l node).node? front = some .directory := by
    intro front hdir
    have hne : front ≠ l := by
      rintro rfl
      obtain ⟨_, ⟨⟩⟩ := hfree _ hdir
    rw [node?_set_of_ne hne, hdir]
  refine ⟨hkeeps h.working, fun entry hm front hf hne => hkeeps ?_⟩
  rcases mem_setNode hm with he | hm
  · rw [he] at hf hne
    exact hway front ⟨(List.mem_inits _ _).mp hf, hne⟩
  · exact h.stands entry hm front hf hne

theorem Rooted.makeDirectories (h : tree.Rooted) (path : List Component) :
    (tree.makeDirectories path).1.Rooted := by
  refine makeDirectories_keeps (fun tree loc name h hdir hnone => ?_) h path
  exact h.set (fun _ hnode => nomatch hnone.symm.trans hnode) (fun _ => h.directory_in hdir) _

/-- **Writing keeps a tree rooted**, whether or not the file is written. -/
theorem Rooted.write (h : tree.Rooted) (path : String) (content : List UInt8) :
    (tree.write path content).1.Rooted := by
  obtain ⟨way, made, rfl, hno | ⟨l, hopens, hfill⟩⟩ := write_cases_any tree path
  · rw [hno]
    exact h.makeDirectories way
  · have hmade := h.makeDirectories way
    rw [hfill]
    exact hmade.set hopens.free (hmade.walk_way hmade.working hopens.leads) _

end Inspection.FileTree
