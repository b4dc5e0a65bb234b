import Inspection.Proofs.FileTree.Read
import Inspection.Proofs.FileTree.Walk
import Inspection.Proofs.Text.Pieces

/-!
# File tree — writing a file

What writing a file does, at a path of nothing but names, behind the root or the working directory,
on whose way no links are.

* `write_succeeds_iff`: when it succeeds.
* `write_grows`: what it changes, whether or not it succeeds.
* `holds_write`, `Holds.read?_eq`: what the file has kept is read.
* `Holds.of_grows`: and goes on to be, as long as nothing changes at it.
-/

namespace Inspection

/-! ### Paths of names -/

/-- The name that a component is, if it is one. -/
def Component.name? : Component → Option String
  | .normal name => some name
  | _ => none

theorem Component.map_normal_filterMap_name? {cs : List Component}
    (h : ∀ c ∈ cs, c ≠ .root ∧ c ≠ .here ∧ c ≠ .up) : (cs.filterMap name?).map .normal = cs := by
  induction cs with
  | nil => rfl
  | cons c cs ih =>
    obtain ⟨hc, hcs⟩ := List.forall_mem_cons.mp h
    cases c with
    | normal name => simp [name?, ih hcs]
    | root => exact absurd rfl hc.1
    | here => exact absurd rfl hc.2.1
    | up => exact absurd rfl hc.2.2

namespace Path

/-- No component of a path is a dot or two. -/
def IsDirect (path : String) : Prop := .here ∉ components path ∧ .up ∉ components path

instance (path : String) : Decidable (IsDirect path) := inferInstanceAs (Decidable (_ ∧ _))

/-- What stands before the names of a path. -/
def start (path : String) : List Component := if isAbsolute path then [.root] else []

/-- The names of a path. -/
def names (path : String) : List String := (components path).filterMap Component.name?

theorem component_ne_root (piece : List Char) : component piece ≠ .root := by
  unfold component
  split
  · rintro ⟨⟩
  · split <;> rintro ⟨⟩

theorem components_of_isDirect {path : String} (h : IsDirect path) :
    components path = start path ++ (names path).map .normal := by
  -- The root stands at the begin only, and gives no name.
  have hsplit : components path = start path ++
      ((pieces path).filter (·.1)).map fun piece => component piece.2 := rfl
  have hstart : (start path).filterMap Component.name? = [] := by
    unfold start
    split <;> rfl
  rw [names, hsplit, List.filterMap_append, hstart, List.nil_append,
    Component.map_normal_filterMap_name?]
  intro c hc
  have hm : c ∈ components path := List.mem_append_right _ hc
  obtain ⟨piece, -, rfl⟩ := List.mem_map.mp hc
  refine ⟨component_ne_root _, fun e => h.1 ?_, fun e => h.2 ?_⟩
  · rwa [e] at hm
  · rwa [e] at hm

theorem map_snd_pieces (path : String) : (pieces path).map (·.2) = Text.split '/' path.toList := by
  unfold pieces
  split
  next h => exact h.symm
  next h => simp [h, Function.comp_def]

/-- A path begins with the path without its last component. -/
theorem prefix_parent? (path : String) : ((parent? path).getD "").toList <+: path.toList := by
  unfold parent? backward
  split
  · exact List.nil_prefix
  next before hback =>
    split
    next =>
      by_cases habsolute : isAbsolute path = true
      · rw [if_pos habsolute]
        rw [isAbsolute, decide_eq_true_eq] at habsolute
        obtain ⟨rest, hrest⟩ := List.head?_eq_some_iff.mp habsolute
        exact ⟨rest, hrest.symm⟩
      · rw [if_neg habsolute]
        exact List.nil_prefix
    next kept hkept =>
      have hsuffix : before.dropWhile (!·.1) <:+ (pieces path).reverse :=
        (List.dropWhile_suffix _).trans ((List.suffix_cons _ _).trans
          (hback ▸ List.dropWhile_suffix _))
      have hprefix := List.reverse_prefix.mpr hsuffix
      rw [List.reverse_reverse] at hprefix
      have hmap := hprefix.map (·.2)
      rw [map_snd_pieces] at hmap
      have := Text.prefix_join '/' hmap
      rw [Text.join_split] at this
      simpa using this

/-- The component that a piece is, the character it has being none of a dot. -/
theorem normal_mem_components {path : String} {c : Char} (hc : c ∈ path.toList) (hslash : c ≠ '/')
    (hdot : c ≠ '.') : ∃ name, .normal name ∈ components path ∧ c ∈ name.toList := by
  obtain ⟨piece, hp, hm⟩ := Text.exists_mem_split hc hslash
  have hempty : piece ≠ [] := List.ne_nil_of_mem hm
  have hhere : piece ≠ ['.'] := by
    rintro rfl
    exact hdot (List.mem_singleton.mp hm)
  have hup : piece ≠ ['.', '.'] := by
    rintro rfl
    simp [hdot] at hm
  have hmarked : (true, piece) ∈ pieces path := by
    unfold pieces
    split
    next hs => simp [hs] at hp
    next first rest hs =>
      rw [hs] at hp
      rcases List.mem_cons.mp hp with rfl | hp
      · simp [hempty]
      · refine List.mem_cons_of_mem _ (List.mem_map.mpr ⟨piece, hp, ?_⟩)
        simp [hempty, hhere]
  refine ⟨String.ofList piece, List.mem_append_right _ (List.mem_map.mpr ⟨(true, piece),
    List.mem_filter.mpr ⟨hmarked, rfl⟩, ?_⟩), by simpa using hm⟩
  rw [component, if_neg hhere, if_neg hup]

/-- Where the names of a path begin. -/
def base (working : Location) (path : String) : Location := if isAbsolute path then [] else working

/-- Where a path leads, if there is nothing but names in it and no links are met. -/
def locate (working : Location) (path : String) : Location := base working path ++ names path

end Path

/-- What stands before a list: its prefixes but itself. -/
def Before (names front : List String) : Prop := front <+: names ∧ front ≠ names

theorem before_concat_iff {init front : List String} {last : String} :
    Before (init ++ [last]) front ↔ front <+: init := by
  constructor
  · rintro ⟨hf, hne⟩
    exact (List.prefix_concat_iff.mp hf).resolve_left hne
  · intro hf
    refine ⟨hf.trans (List.prefix_append _ _), fun he => ?_⟩
    have := hf.length_le
    rw [he, List.length_append, List.length_singleton] at this
    omega

namespace FileTree

open Inspection.Path

theorem begins_of_path (tree : FileTree) (path : String) :
    Begins tree (start path) (base tree.working path) := by
  unfold start base
  split
  · exact .root
  · exact .working

/-- A path by which a file can be opened. -/
structure Fits (tree : FileTree) (path : String) : Prop where
  direct : IsDirect path
  plain : Plain tree (base tree.working path) (names path)

/-- A file can be opened for writing at a path: it may be that of a file, no file stands on the way,
and no directory at its end. -/
structure Writable (tree : FileTree) (path : String) : Prop where
  filePath : isFilePath path = true
  named : ∀ n ∈ names path, isName n = true
  free : ∀ front, Before (names path) front → ∀ content,
    tree.node? (base tree.working path ++ front) ≠ some (.file content)
  target : tree.node? (locate tree.working path) ≠ some .directory

/-- A file stands at a path, and directories on the way. -/
structure Holds (tree : FileTree) (path : String) (content : List UInt8) : Prop where
  filePath : isFilePath path = true
  named : ∀ n ∈ names path, isName n = true
  directory : ∀ front, Before (names path) front →
    tree.node? (base tree.working path ++ front) = some .directory
  file : tree.node? (locate tree.working path) = some (.file content)

theorem isPathText_of_isPrefix {a b : String} (h : a.toList <+: b.toList) (hb : isPathText b = true) :
    isPathText a = true := by
  obtain ⟨rest, hrest⟩ := h
  have he : b = a ++ String.ofList rest := by
    apply String.toList_injective
    simp [hrest]
  simp only [isPathText, he, Bool.and_eq_true, decide_eq_true_eq, Bool.not_eq_true',
    String.utf8ByteSize_append, String.toList_append] at hb ⊢
  obtain ⟨hsize, hfree⟩ := hb
  refine ⟨by omega, ?_⟩
  simp at hfree ⊢
  exact hfree.1
section

variable {tree : FileTree} {path : String} {init : List String} {last : String}

/-- The directory of a file that can be opened may be that of a path. -/
theorem Writable.isPathText_parent (hw : Writable tree path) :
    isPathText ((parent? path).getD "") = true := by
  refine isPathText_of_isPrefix (prefix_parent? path) ?_
  have hsize : path.utf8ByteSize < pathLimit := by
    have hfile := hw.filePath
    simp only [isFilePath, Bool.and_eq_true, decide_eq_true_eq] at hfile
    exact hfile.2
  have hzero : '\x00' ∉ path.toList := by
    intro hzero
    obtain ⟨name, hname, hm⟩ := normal_mem_components hzero (by decide) (by decide)
    have hn := hw.named name (List.mem_filterMap.mpr ⟨_, hname, rfl⟩)
    simp [isName, hm] at hn
  simp [isPathText, hsize, hzero]

/-- Where the way is open, a file is filled unless a directory is there. -/
theorem writeFile_of_open (hd : IsDirect path) (hn : names path = init ++ [last])
    (hopen : Open tree (base tree.working path) init)
    (hlink : ∀ target, tree.node? (locate tree.working path) ≠ some (.link target))
    (content : List UInt8) :
    tree.writeFile path content =
      if isFilePath path = true ∧ isName last = true ∧
          tree.node? (locate tree.working path) ≠ some .directory then
        tree.fill (locate tree.working path) content
      else (tree, false) := by
  have hl : locate tree.working path = base tree.working path ++ init ++ [last] := by
    rw [locate, hn, List.append_assoc]
  have hw : tree.find (components path) =
      walk tree linkLimit (base tree.working path ++ init) [.normal last] := by
    rw [components_of_isDirect hd, (begins_of_path tree path).find_eq, hn, List.map_append,
      walk_open hopen]
    rfl
  rw [hl] at hlink ⊢
  unfold writeFile
  rw [hw, walk]
  generalize base tree.working path ++ init ++ [last] = l at hlink ⊢
  cases isFilePath path with
  | false => simp
  | true =>
    cases isName last with
    | false => simp
    | true =>
      cases hnode : tree.node? l with
      | none => simp
      | some node =>
        cases node with
        | file content => simp [hnode]
        | directory => simp [walk, hnode]
        | link target => exact absurd hnode (hlink target)

/-- Without names, a path is that of a directory. -/
theorem write_of_names_eq_nil (h : Fits tree path) (hn : names path = []) (content : List UInt8) :
    tree.write path content = (tree, false) := by
  have hcomponents : components path = start path := by
    rw [components_of_isDirect h.direct, hn, List.map_nil, List.append_nil]
  have hmade : tree.makeDirectories (directoryOf path) = (tree, true) := by
    rw [directoryOf, hcomponents, start]
    split <;> rfl
  have hfind : tree.find (components path) = .present (base tree.working path) := by
    have := (begins_of_path tree path).find_eq []
    rwa [List.append_nil, walk, ← hcomponents] at this
  rw [write, hmade]
  simp [writeFile, hfind, h.plain.begins]

/-- Behind its directory, made first if need be, a file is written. -/
theorem write_eq (h : Fits tree path) (hn : names path = init ++ [last])
    (hpath : isPathText ((parent? path).getD "") = true) (content : List UInt8) :
    tree.write path content =
      let made := tree.makeDirectories (start path ++ init.map .normal)
      if made.2 then made.1.writeFile path content else (made.1, false) := by
  have hdirectory : directoryOf path = start path ++ init.map .normal := by
    rw [directoryOf, components_of_isDirect h.direct, hn, List.map_append, ← List.append_assoc]
    exact List.dropLast_concat
  rw [write, hpath, hdirectory]
  cases tree.makeDirectories (start path ++ init.map .normal) with
  | mk later ok => cases ok <;> rfl

theorem grows_directories (h : Fits tree path) (hn : names path = init ++ [last]) :
    Grows (fun _ => False) (Before (locate tree.working path)) tree
      (tree.makeDirectories (start path ++ init.map .normal)).1 := by
  have hplain := h.plain
  rw [hn] at hplain
  refine (makeDirectories_grows (begins_of_path tree path) hplain.of_append).mono (fun _ => id) ?_
  intro l _ hl
  rw [locate, hn, ← List.append_assoc]
  exact before_concat_iff.mpr hl

/-- What writing a file comes to: directories are made, and where a file can be opened it is filled
at last. -/
theorem write_cases (h : Fits tree path) (content : List UInt8) :
    ∃ later, Grows (fun _ => False) (Before (locate tree.working path)) tree later ∧
      (¬Writable tree path ∧ tree.write path content = (later, false) ∨
        Writable tree path ∧
          tree.write path content = later.fill (locate tree.working path) content ∧
          ∀ front, Before (names path) front →
            later.node? (base tree.working path ++ front) = some .directory) := by
  rcases List.eq_nil_or_concat (names path) with hn | ⟨init, last, hn⟩
  · refine ⟨tree, .refl _ _ _, .inl ⟨fun hw => hw.target ?_, write_of_names_eq_nil h hn content⟩⟩
    rw [locate, hn, List.append_nil, h.plain.begins]
  · by_cases hpath : isPathText ((parent? path).getD "") = true
    case neg =>
      refine ⟨tree, .refl _ _ _, .inl ⟨fun hw => hpath hw.isPathText_parent, ?_⟩⟩
      rw [write, if_pos (by simpa using hpath)]
    rw [List.concat_eq_append] at hn
    have hb := begins_of_path tree path
    have hplain := h.plain
    rw [hn] at hplain
    have hgrows := grows_directories h hn
    have hbefore : ∀ front, Before (names path) front ↔ front <+: init := by
      intro front
      rw [hn]
      exact before_concat_iff
    refine ⟨_, hgrows, ?_⟩
    rw [write_eq h hn hpath]
    by_cases hmade : (tree.makeDirectories (start path ++ init.map .normal)).2 = true
    · have hopen := makeDirectories_open hb hplain.of_append hmade
      simp only [hmade, if_true]
      generalize (tree.makeDirectories (start path ++ init.map .normal)).1 = later at hgrows hopen ⊢
      have hend : later.node? (locate tree.working path) = tree.node? (locate tree.working path) :=
        (hgrows.node _ id).resolve_right fun hnew => hnew.2.2.2 rfl
      have hwrite := writeFile_of_open h.direct hn (hgrows.working ▸ hopen) (fun target => ?_) content
      · rw [hgrows.working, hend] at hwrite
        rw [hwrite]
        split
        next hcond =>
          obtain ⟨hpath, hlast, htarget⟩ := hcond
          refine .inr ⟨⟨hpath, fun n hm => ?_, fun front hf c hc => ?_, htarget⟩, rfl, fun front hf => ?_⟩
          · rw [hn] at hm
            rcases List.mem_append.mp hm with hm | hm
            · exact hopen.named n hm
            · rw [List.mem_singleton.mp hm, hlast]
          · have hdir := hopen.directory front ((hbefore front).mp hf)
            rw [hgrows.stays id hc] at hdir
            cases hdir
          · exact hopen.directory front ((hbefore front).mp hf)
        next hcond =>
          refine .inl ⟨fun hw => hcond ⟨hw.filePath, hw.named last ?_, hw.target⟩, rfl⟩
          rw [hn]
          exact List.mem_append_right _ List.mem_cons_self
      · rw [hgrows.working, hend]
        exact h.plain.unlinked _ (List.prefix_refl _) target
    · refine .inl ⟨fun hw => hmade ?_, by simp [hmade]⟩
      refine makeDirectories_succeeds hb hplain.of_append (fun n hm => hw.named n ?_) fun front hf => ?_
      · rw [hn]
        exact List.mem_append_left _ hm
      · exact hw.free front ((hbefore front).mpr hf)

/-- A file is written exactly where one can be opened that keeps all. -/
theorem write_succeeds_iff (h : Fits tree path) (content : List UInt8) :
    (tree.write path content).2 = true ↔
      Writable tree path ∧ tree.kept (locate tree.working path) content = content := by
  obtain ⟨later, hgrows, ⟨hno, hw⟩ | ⟨hyes, hw, -⟩⟩ := write_cases h content
  · simp [hw, hno]
  · rw [hw, ← hgrows.kept_eq]
    simp [fill, hyes]

/-- Writing a file changes nothing but that file, if it can be opened, and makes directories on the
way. -/
theorem write_grows (h : Fits tree path) (content : List UInt8) :
    Grows (fun l => Writable tree path ∧ l = locate tree.working path)
      (Before (locate tree.working path)) tree (tree.write path content).1 := by
  obtain ⟨later, hgrows, ⟨-, hw⟩ | ⟨hyes, hw, -⟩⟩ := write_cases h content
  · rw [hw]
    exact hgrows.mono (fun l hl => hl.elim) fun l _ => id
  · rw [hw]
    refine ⟨hgrows.working, hgrows.room, fun l hl => ?_⟩
    have hne : l ≠ locate tree.working path := fun he => hl ⟨hyes, he⟩
    rw [fill, node?_set_of_ne hne]
    exact hgrows.node l id

/-- What the file has kept is there. -/
theorem holds_write (h : Fits tree path) (hw : Writable tree path) (content : List UInt8) :
    Holds (tree.write path content).1 path (tree.kept (locate tree.working path) content) := by
  obtain ⟨later, hgrows, ⟨hno, -⟩ | ⟨-, he, hdirectory⟩⟩ := write_cases h content
  · exact absurd hw hno
  · have hroot : locate tree.working path ≠ [] := by
      intro hnil
      have := hw.target
      rw [hnil] at this
      exact this rfl
    have hworking : (later.fill (locate tree.working path) content).1.working = tree.working :=
      hgrows.working
    rw [he, ← hgrows.kept_eq]
    refine ⟨hw.filePath, hw.named, fun front hf => ?_, ?_⟩
    · have hne : base tree.working path ++ front ≠ locate tree.working path := fun he =>
        hf.2 (List.append_cancel_left he)
      rw [hworking, fill, node?_set_of_ne hne, hdirectory front hf]
    · rw [hworking, fill, node?_set_self hroot]

/-- What is there is read. -/
theorem Holds.read?_eq {content : List UInt8} (h : Holds tree path content) (hd : IsDirect path) :
    tree.read? path = some content := by
  have hfind : tree.find (components path) = .present (locate tree.working path) := by
    rw [components_of_isDirect hd, (begins_of_path tree path).find_eq, locate]
    rcases List.eq_nil_or_concat (names path) with hn | ⟨init, last, hn⟩
    · rw [hn, List.append_nil]
      exact walk.eq_1 ..
    · rw [List.concat_eq_append] at hn
      have hopen : Open tree (base tree.working path) init := by
        refine ⟨fun n hm => h.named n ?_, fun front hf => h.directory front ?_⟩
        · rw [hn]
          exact List.mem_append_left _ hm
        · rw [hn]
          exact before_concat_iff.mpr hf
      have hfile := h.file
      rw [locate, hn, ← List.append_assoc] at hfile
      have hlast : isName last = true := h.named last (by simp [hn])
      rw [hn, List.map_append, walk_open hopen, List.map_singleton, walk, hlast, hfile,
        ← List.append_assoc]
      rfl
  exact read?_of_find h.filePath hfind h.file

section

variable {Own New : Location → Prop} {later : FileTree} (hg : Grows Own New tree later)
  (hown : ∀ l, l <+: locate tree.working path → ¬Own l)
include hg hown

theorem Fits.of_grows (h : Fits tree path) : Fits later path where
  direct := h.direct
  plain := by
    rw [hg.working]
    exact hg.plain (fun front hf => hown _ (List.prefix_append_right_inj _ |>.mpr hf)) h.plain

/-- What is there stays there. -/
theorem Holds.of_grows {content : List UInt8} (h : Holds tree path content) :
    Holds later path content where
  filePath := h.filePath
  named := h.named
  directory front hf := by
    rw [hg.working]
    exact hg.stays (hown _ (List.prefix_append_right_inj _ |>.mpr hf.1)) (h.directory front hf)
  file := by
    rw [hg.working]
    exact hg.stays (hown _ (List.prefix_refl _)) h.file

/-- Where a file can be opened stays so, unless something appears there. -/
theorem writable_iff_of_grows (hnew : ¬New (locate tree.working path)) :
    Writable later path ↔ Writable tree path := by
  have hend : later.node? (locate tree.working path) = tree.node? (locate tree.working path) :=
    (hg.node _ (hown _ (List.prefix_refl _))).resolve_right fun h => hnew h.2.2
  have hfile : ∀ front, Before (names path) front → ∀ content,
      later.node? (base tree.working path ++ front) = some (.file content) ↔
        tree.node? (base tree.working path ++ front) = some (.file content) := by
    intro front hf content
    have hno := hown _ (List.prefix_append_right_inj (base tree.working path) |>.mpr hf.1)
    exact ⟨hg.was hno (by rintro ⟨⟩), hg.stays hno⟩
  constructor
  · rintro ⟨hpath, hnamed, hfree, htarget⟩
    rw [hg.working] at hfree htarget
    refine ⟨hpath, hnamed, fun front hf content hc => ?_, hend ▸ htarget⟩
    exact hfree front hf content ((hfile front hf content).mpr hc)
  · rintro ⟨hpath, hnamed, hfree, htarget⟩
    refine ⟨hpath, hnamed, fun front hf content hc => ?_, ?_⟩
    · rw [hg.working] at hc
      exact hfree front hf content ((hfile front hf content).mp hc)
    · rw [hg.working, hend]
      exact htarget

end

end

end FileTree

end Inspection
