import Inspection.FileTree
import Mathlib.Data.List.Infix
import Mathlib.Data.List.Induction

/-!
# File tree — ways and directories

What walking along names comes to where no links are met, and what making directories on such a way
does: a tree *grows* when only some locations change, apart from directories that appear where
nothing was.

* `walk_open`: through directories, a walk goes on behind them.
* `walk_present`: a walk that leads to a node has come through directories.
* `walk_ne_refused`: a walk is refused only by a file, or by a text that is no name.
* `makeDirectories_grows`: making directories changes nothing that is there.
* `makeDirectories_open`: once made, they are there.
* `makeDirectories_succeeds`: they can be made unless a file is in the way.
-/

namespace Inspection.FileTree

/-! ### Growing -/

/-- From one tree to another, nothing changes but at locations of their own, and that directories
appear where nothing was. -/
structure Grows (Own New : Location → Prop) (tree later : FileTree) : Prop where
  working : later.working = tree.working
  room : later.room = tree.room
  node : ∀ l, ¬Own l → later.node? l = tree.node? l ∨
    tree.node? l = none ∧ later.node? l = some .directory ∧ New l

namespace Grows

variable {Own Own' New New' : Location → Prop} {tree later last : FileTree}

theorem refl (Own New : Location → Prop) (tree : FileTree) : Grows Own New tree tree :=
  ⟨rfl, rfl, fun _ _ => .inl rfl⟩

theorem mono (h : Grows Own New tree later) (hown : ∀ l, Own l → Own' l)
    (hnew : ∀ l, ¬Own' l → New l → New' l) : Grows Own' New' tree later := by
  refine ⟨h.working, h.room, fun l hl => ?_⟩
  rcases h.node l (fun ho => hl (hown l ho)) with hsame | ⟨hnone, hdir, hn⟩
  · exact .inl hsame
  · exact .inr ⟨hnone, hdir, hnew l hl hn⟩

theorem trans (h : Grows Own New tree later) (h' : Grows Own New later last) :
    Grows Own New tree last := by
  refine ⟨h'.working.trans h.working, h'.room.trans h.room, fun l hl => ?_⟩
  rcases h.node l hl with hsame | ⟨hnone, hdir, hn⟩
  · rw [← hsame]
    exact h'.node l hl
  · rcases h'.node l hl with hsame' | ⟨hnone', -, -⟩
    · exact .inr ⟨hnone, hsame'.trans hdir, hn⟩
    · rw [hdir] at hnone'
      cases hnone'

theorem kept_eq (h : Grows Own New tree later) (l : Location) (content : List UInt8) :
    later.kept l content = tree.kept l content := by
  rw [kept, kept, h.room]

/-- What is there stays, outside of the locations that change. -/
theorem stays (h : Grows Own New tree later) {l : Location} {node : Node} (hl : ¬Own l)
    (hnode : tree.node? l = some node) : later.node? l = some node := by
  rcases h.node l hl with hsame | ⟨hnone, -, -⟩
  · rw [hsame, hnode]
  · rw [hnode] at hnone
    cases hnone

/-- What is there and no directory was there, outside of the locations that change. -/
theorem was (h : Grows Own New tree later) {l : Location} {node : Node} (hl : ¬Own l)
    (hdir : node ≠ .directory) (hnode : later.node? l = some node) : tree.node? l = some node := by
  rcases h.node l hl with hsame | ⟨-, hnew, -⟩
  · rw [← hsame, hnode]
  · rw [hnode] at hnew
    exact absurd (Option.some.inj hnew) hdir

end Grows

/-- A directory that is put where nothing was. -/
theorem grows_set {tree : FileTree} {l : Location} (h : tree.node? l = none) :
    Grows (fun _ => False) (· = l) tree (tree.set l .directory) := by
  have hne : l ≠ [] := by
    rintro rfl
    simp [node?] at h
  refine ⟨rfl, rfl, fun m _ => ?_⟩
  by_cases e : m = l
  · subst e
    exact .inr ⟨h, node?_set_self hne .., rfl⟩
  · exact .inl (node?_set_of_ne e ..)

/-! ### Ways -/

/-- A way along names begins in a directory and meets no links. -/
structure Plain (tree : FileTree) (loc : Location) (names : List String) : Prop where
  begins : tree.node? loc = some .directory
  unlinked : ∀ front, front <+: names → ∀ target, tree.node? (loc ++ front) ≠ some (.link target)

/-- A way along names goes through directories only. -/
structure Open (tree : FileTree) (loc : Location) (names : List String) : Prop where
  named : ∀ name ∈ names, isName name = true
  directory : ∀ front, front <+: names → tree.node? (loc ++ front) = some .directory

/-- No file stands on a way along names. -/
def Free (tree : FileTree) (loc : Location) (names : List String) : Prop :=
  ∀ front, front <+: names → ∀ content, tree.node? (loc ++ front) ≠ some (.file content)

section

variable {tree : FileTree} {loc : Location} {name : String} {names : List String}

theorem Plain.cons (h : Plain tree loc (name :: names))
    (hdir : tree.node? (loc ++ [name]) = some .directory) : Plain tree (loc ++ [name]) names where
  begins := hdir
  unlinked front hf := by
    rw [List.append_assoc]
    exact h.unlinked _ (List.prefix_cons_inj name |>.mpr hf)

/-- A tree that grows meets no more files or links on a way, unless they are among what changes. -/
theorem Grows.plain {Own New : Location → Prop} {later : FileTree} (h : Grows Own New tree later)
    (hown : ∀ front, front <+: names → ¬Own (loc ++ front)) (hp : Plain tree loc names) :
    Plain later loc names where
  begins := h.stays (by simpa using hown [] List.nil_prefix) hp.begins
  unlinked front hf target hl :=
    hp.unlinked front hf target (h.was (hown front hf) (by rintro ⟨⟩) hl)

theorem Grows.free_iff {Own New : Location → Prop} {later : FileTree} (h : Grows Own New tree later)
    (hown : ∀ front, front <+: names → ¬Own (loc ++ front)) :
    Free later loc names ↔ Free tree loc names := by
  constructor
  · intro hfree front hf content hc
    exact hfree front hf content (h.stays (hown front hf) hc)
  · intro hfree front hf content hc
    exact hfree front hf content (h.was (hown front hf) (by rintro ⟨⟩) hc)

theorem Plain.of_append {more : List String} (h : Plain tree loc (names ++ more)) :
    Plain tree loc names where
  begins := h.begins
  unlinked front hf := h.unlinked front (hf.trans (List.prefix_append _ _))

theorem Open.cons (h : Open tree loc (name :: names)) : Open tree (loc ++ [name]) names where
  named n hn := h.named n (List.mem_cons_of_mem _ hn)
  directory front hf := by
    rw [List.append_assoc]
    exact h.directory _ (List.prefix_cons_inj name |>.mpr hf)

theorem Open.of_append {more : List String} (h : Open tree loc (names ++ more)) :
    Open tree loc names where
  named name hn := h.named name (List.mem_append_left _ hn)
  directory front hf := h.directory front (hf.trans (List.prefix_append _ _))

theorem open_append_singleton : Open tree loc (names ++ [name]) ↔
    Open tree loc names ∧ isName name = true ∧
      tree.node? (loc ++ (names ++ [name])) = some .directory := by
  constructor
  · intro h
    exact ⟨h.of_append, h.named name (by simp), h.directory _ (List.prefix_refl _)⟩
  · rintro ⟨h, hname, hdir⟩
    refine ⟨fun n hn => ?_, fun front hf => ?_⟩
    · rcases List.mem_append.mp hn with hn | hn
      · exact h.named n hn
      · rw [List.mem_singleton.mp hn, hname]
    · rcases List.prefix_concat_iff.mp hf with rfl | hf
      · exact hdir
      · exact h.directory front hf

theorem Free.cons (h : Free tree loc (name :: names)) : Free tree (loc ++ [name]) names := by
  intro front hf
  rw [List.append_assoc]
  exact h _ (List.prefix_cons_inj name |>.mpr hf)

/-- Through directories, a walk goes on behind them. -/
theorem walk_open (h : Open tree loc names) (links : Nat) (rest : List Component) :
    walk tree links loc (names.map .normal ++ rest) = walk tree links (loc ++ names) rest := by
  induction names generalizing loc with
  | nil => rw [List.map_nil, List.nil_append, List.append_nil]
  | cons name names ih =>
    have hdir : tree.node? (loc ++ [name]) = some .directory :=
      h.directory [name] (List.prefix_append [name] names)
    rw [List.map_cons, List.cons_append, walk, h.named name List.mem_cons_self, hdir]
    simpa using ih h.cons

/-- A walk that leads to a node has come through directories. -/
theorem walk_present (h : Plain tree loc names) {links : Nat} {l : Location}
    (hw : walk tree links loc (names.map .normal) = .present l) :
    l = loc ++ names ∧ (∀ n ∈ names, isName n = true) ∧ tree.node? l ≠ none ∧
      ∀ front, front <+: names → front ≠ names → tree.node? (loc ++ front) = some .directory := by
  induction names generalizing loc with
  | nil =>
    rw [List.map_nil, walk] at hw
    cases hw
    refine ⟨(List.append_nil _).symm, by simp, by simp [h.begins], fun front hf hne => ?_⟩
    exact absurd (List.prefix_nil.mp hf) hne
  | cons name names ih =>
    rw [List.map_cons, walk] at hw
    split at hw
    · cases hw
    next hname =>
      have hname : isName name = true := by simpa using hname
      have hprefix : [name] <+: name :: names := List.prefix_append [name] names
      split at hw
      next hnone => split at hw <;> cases hw
      next hdir =>
        obtain ⟨rfl, hnamed, hnode, hstrict⟩ := ih (h.cons hdir) hw
        refine ⟨by simp, List.forall_mem_cons.mpr ⟨hname, hnamed⟩, hnode, fun front hf hne => ?_⟩
        rcases List.prefix_cons_iff.mp hf with rfl | ⟨front, rfl, hfront⟩
        · simpa using h.begins
        · simpa using hstrict front hfront fun e => hne (by rw [e])
      next hfile =>
        split at hw
        next hnil =>
          obtain rfl : names = [] := by simpa using hnil
          cases hw
          refine ⟨rfl, by simp [hname], by simp [hfile], fun front hf hne => ?_⟩
          rcases List.prefix_cons_iff.mp hf with rfl | ⟨front, rfl, hfront⟩
          · simpa using h.begins
          · exact absurd (by rw [List.prefix_nil.mp hfront]) hne
        · cases hw
      next target hlink => exact absurd hlink (h.unlinked [name] hprefix target)

/-- A walk is refused only by a file, or by a text that is no name. -/
theorem walk_ne_refused (h : Plain tree loc names) (hnamed : ∀ n ∈ names, isName n = true)
    (hfree : Free tree loc names) (links : Nat) :
    walk tree links loc (names.map .normal) ≠ .refused := by
  induction names generalizing loc with
  | nil =>
    rw [List.map_nil, walk]
    rintro ⟨⟩
  | cons name names ih =>
    have hprefix : [name] <+: name :: names := List.prefix_append [name] names
    rw [List.map_cons, walk, hnamed name List.mem_cons_self]
    rw [Bool.not_true, if_neg Bool.false_ne_true]
    split
    next hnone => split <;> rintro ⟨⟩
    next hdir => exact ih (h.cons hdir) (fun n hn => hnamed n (List.mem_cons_of_mem _ hn)) hfree.cons
    next content hfile => exact absurd hfile (hfree [name] hprefix content)
    next target hlink => exact absurd hlink (h.unlinked [name] hprefix target)

/-- A way to a node that is no file goes through directories. -/
theorem open_of_walk_present (h : Plain tree loc names) {links : Nat} {l : Location}
    (hw : walk tree links loc (names.map .normal) = .present l)
    (hdir : tree.node? l = some .directory) : l = loc ++ names ∧ Open tree loc names := by
  obtain ⟨rfl, hnamed, -, hstrict⟩ := walk_present h hw
  refine ⟨rfl, hnamed, fun front hf => ?_⟩
  by_cases he : front = names
  · rw [he, hdir]
  · exact hstrict front hf he

end

/-! ### Making directories -/

/-- Components that stand before the names of a path: the root, or nothing. -/
inductive Begins (tree : FileTree) : List Component → Location → Prop
  | working : Begins tree [] tree.working
  | root : Begins tree [.root] []

section

variable {tree : FileTree} {start : List Component} {loc : Location} {names : List String}

theorem Begins.of_working {later : FileTree} (h : Begins tree start loc)
    (hw : later.working = tree.working) : Begins later start loc := by
  cases h with
  | working => exact hw ▸ .working
  | root => exact .root

theorem Begins.find_eq (h : Begins tree start loc) (path : List Component) :
    tree.find (start ++ path) = walk tree linkLimit loc path := by
  cases h with
  | working => rfl
  | root => rw [find, List.singleton_append, walk]

/-- One attempt to make a directory, good also if it is there. -/
def tryDirectory (tree : FileTree) (path : List Component) (c : Component) : FileTree × Bool :=
  match tree.makeDirectory path c with
  | .made later => (later, true)
  | _ => (tree, tree.isDirectory (path ++ [c]))

/-- Unless what comes before is missing, one attempt is made; else one more, once it is there. -/
theorem makeDirectories_concat (tree : FileTree) (start : List Component) (names : List String)
    (name : String) :
    tree.makeDirectories (start ++ (names ++ [name]).map .normal) =
      match tree.makeDirectory (start ++ names.map .normal) (.normal name) with
      | .missing =>
        match tree.makeDirectories (start ++ names.map .normal) with
        | (later, false) => (later, false)
        | (later, true) => later.tryDirectory (start ++ names.map .normal) (.normal name)
      | _ => tree.tryDirectory (start ++ names.map .normal) (.normal name) := by
  rw [List.map_append, List.map_singleton, ← List.append_assoc]
  generalize start ++ names.map .normal = path
  simp only [makeDirectories, List.reverse_append, List.reverse_singleton, List.singleton_append,
    makeDirectoriesBack, List.reverse_reverse, tryDirectory]
  cases tree.makeDirectory path (.normal name) <;> rfl

theorem makeDirectories_nil (hb : Begins tree start loc) :
    tree.makeDirectories (start ++ ([] : List String).map .normal) = (tree, true) := by
  cases hb with
  | working => rfl
  | root => simp [makeDirectories, makeDirectoriesBack, makeDirectory, isDirectory, find, walk, node?]

/-- A directory is made in one that is there, where nothing was. -/
theorem makeDirectory_eq_made (hb : Begins tree start loc) (h : Plain tree loc names)
    {name : String} {later : FileTree}
    (hm : tree.makeDirectory (start ++ names.map .normal) (.normal name) = .made later) :
    Open tree loc names ∧ isName name = true ∧ tree.node? (loc ++ (names ++ [name])) = none ∧
      later = tree.set (loc ++ (names ++ [name])) .directory := by
  rw [makeDirectory, hb.find_eq] at hm
  split at hm
  next l hw =>
    simp only at hm
    split at hm
    next hcond =>
      obtain ⟨hdir, hname, hnone⟩ := hcond
      obtain ⟨rfl, hopen⟩ := open_of_walk_present h hw hdir
      rw [List.append_assoc] at hnone hm
      cases hm
      exact ⟨hopen, hname, hnone, rfl⟩
    · cases hm
  all_goals cases hm

theorem isDirectory_iff (hb : Begins tree start loc) (h : Plain tree loc names) :
    tree.isDirectory (start ++ names.map .normal) = true ↔ Open tree loc names := by
  unfold isDirectory
  rw [hb.find_eq]
  constructor
  · intro hd
    split at hd
    next l hw => exact (open_of_walk_present h hw (by simpa using hd)).2
    · cases hd
  · intro hopen
    have hw := walk_open hopen linkLimit []
    rw [List.append_nil, walk] at hw
    rw [hw]
    simpa using hopen.directory names (List.prefix_refl names)

/-- Where the way to it is open, a directory is made or is there, unless a file is. -/
theorem makeDirectory_of_open (hb : Begins tree start loc) (h : Open tree loc names) (name : String) :
    tree.makeDirectory (start ++ names.map .normal) (.normal name) =
      if isName name ∧ tree.node? (loc ++ (names ++ [name])) = none then
        .made (tree.set (loc ++ (names ++ [name])) .directory)
      else .refused := by
  have hw := walk_open h linkLimit []
  rw [List.append_nil, walk] at hw
  rw [makeDirectory, hb.find_eq, hw]
  simp [h.directory names (List.prefix_refl names)]

/-- Where nothing is missing and no file is in the way, the way is open. -/
theorem open_of_not_missing (hb : Begins tree start loc) (h : Plain tree loc names)
    (hnamed : ∀ n ∈ names, isName n = true) (hfree : Free tree loc names) {c : Component}
    (hno : tree.makeDirectory (start ++ names.map .normal) c ≠ .missing) : Open tree loc names := by
  rw [makeDirectory, hb.find_eq] at hno
  split at hno
  next l hw =>
    obtain ⟨rfl, -, hsome, hstrict⟩ := walk_present h hw
    refine ⟨hnamed, fun front hf => ?_⟩
    by_cases he : front = names
    · subst he
      cases hnode : tree.node? (loc ++ front) with
      | none => exact absurd hnode hsome
      | some node =>
        cases node with
        | directory => rfl
        | file content => exact absurd hnode (hfree front hf content)
        | link target => exact absurd hnode (h.unlinked front hf target)
    · exact hstrict front hf he
  · exact absurd rfl hno
  · exact absurd rfl hno
  next hw => exact absurd hw (walk_ne_refused h hnamed hfree _)

variable {name : String}

theorem tryDirectory_grows (hb : Begins tree start loc) (h : Plain tree loc (names ++ [name])) :
    Grows (fun _ => False) (· <+: loc ++ (names ++ [name])) tree
      (tree.tryDirectory (start ++ names.map .normal) (.normal name)).1 := by
  unfold tryDirectory
  split
  next later hm =>
    obtain ⟨-, -, hnone, rfl⟩ := makeDirectory_eq_made hb h.of_append hm
    exact (grows_set hnone).mono (fun _ => id) fun l _ hl => hl ▸ List.prefix_refl _
  · exact .refl _ _ _

theorem tryDirectory_open (hb : Begins tree start loc) (h : Plain tree loc (names ++ [name]))
    (hr : (tree.tryDirectory (start ++ names.map .normal) (.normal name)).2 = true) :
    Open (tree.tryDirectory (start ++ names.map .normal) (.normal name)).1 loc (names ++ [name]) := by
  unfold tryDirectory at hr ⊢
  split
  next later hm =>
    obtain ⟨hopen, hname, hnone, rfl⟩ := makeDirectory_eq_made hb h.of_append hm
    have hgrows := grows_set hnone
    refine open_append_singleton.mpr ⟨⟨hopen.named, fun front hf => ?_⟩, hname, ?_⟩
    · exact hgrows.stays id (hopen.directory front hf)
    · exact node?_set_self (by simp) ..
  next hno =>
    split at hr
    next later hm => exact absurd hm (hno later)
    · refine (isDirectory_iff hb h).mp ?_
      simpa using hr

theorem tryDirectory_succeeds (hb : Begins tree start loc) (h : Plain tree loc (names ++ [name]))
    (hopen : Open tree loc names) (hname : isName name = true)
    (hfree : ∀ content, tree.node? (loc ++ (names ++ [name])) ≠ some (.file content)) :
    (tree.tryDirectory (start ++ names.map .normal) (.normal name)).2 = true := by
  unfold tryDirectory
  rw [makeDirectory_of_open hb hopen]
  cases hnode : tree.node? (loc ++ (names ++ [name])) with
  | none => rw [if_pos ⟨hname, rfl⟩]
  | some node =>
    rw [if_neg (by simp)]
    have hdir : node = .directory := by
      cases node with
      | directory => rfl
      | file content => exact absurd hnode (hfree content)
      | link target => exact absurd hnode (h.unlinked _ (List.prefix_refl _) target)
    have hall := open_append_singleton.mpr ⟨hopen, hname, hdir ▸ hnode⟩
    simpa using (isDirectory_iff hb h).mpr hall

/-- Making directories changes nothing that is there. -/
theorem makeDirectories_grows (hb : Begins tree start loc) (h : Plain tree loc names) :
    Grows (fun _ => False) (· <+: loc ++ names) tree
      (tree.makeDirectories (start ++ names.map .normal)).1 := by
  induction names using List.reverseRecOn with
  | nil =>
    rw [makeDirectories_nil hb]
    exact .refl _ _ _
  | append_singleton names name ih =>
    have hbefore : ∀ l, ¬False → l <+: loc ++ names → l <+: loc ++ (names ++ [name]) := by
      intro l _ hl
      rw [← List.append_assoc]
      exact hl.trans (List.prefix_append _ _)
    have hgrows := (ih h.of_append).mono (fun _ => id) hbefore
    rw [makeDirectories_concat]
    split
    next hmissing =>
      split
      next later hm =>
        rw [hm] at hgrows
        exact hgrows
      next later hm =>
        rw [hm] at hgrows
        exact hgrows.trans (tryDirectory_grows (hb.of_working hgrows.working)
          (hgrows.plain (fun _ _ => id) h))
    · exact tryDirectory_grows hb h

/-- Once made, they are there. -/
theorem makeDirectories_open (hb : Begins tree start loc) (h : Plain tree loc names)
    (hr : (tree.makeDirectories (start ++ names.map .normal)).2 = true) :
    Open (tree.makeDirectories (start ++ names.map .normal)).1 loc names := by
  cases names using List.reverseRecOn with
  | nil =>
    rw [makeDirectories_nil hb]
    refine ⟨by simp, fun front hf => ?_⟩
    rw [List.prefix_nil.mp hf, List.append_nil, h.begins]
  | append_singleton names name =>
    have hgrows := makeDirectories_grows hb h.of_append
    rw [makeDirectories_concat] at hr ⊢
    split
    next hmissing =>
      rw [hmissing] at hr
      simp only at hr
      split
      next later hm =>
        rw [hm] at hr
        cases hr
      next later hm =>
        rw [hm] at hr hgrows
        exact tryDirectory_open (hb.of_working hgrows.working) (hgrows.plain (fun _ _ => id) h) hr
    next hno =>
      split at hr
      · contradiction
      · exact tryDirectory_open hb h hr

/-- They can be made unless a file is in the way. -/
theorem makeDirectories_succeeds (hb : Begins tree start loc) (h : Plain tree loc names)
    (hnamed : ∀ n ∈ names, isName n = true) (hfree : Free tree loc names) :
    (tree.makeDirectories (start ++ names.map .normal)).2 = true := by
  induction names using List.reverseRecOn with
  | nil => rw [makeDirectories_nil hb]
  | append_singleton names name ih =>
    have hbefore : Free tree loc names := fun front hf => hfree front (hf.trans (List.prefix_append _ _))
    have hnamed' : ∀ n ∈ names, isName n = true := fun n hn => hnamed n (List.mem_append_left _ hn)
    have hname : isName name = true := hnamed name (by simp)
    have hmade := ih h.of_append hnamed' hbefore
    have hopen := makeDirectories_open hb h.of_append hmade
    have hgrows := makeDirectories_grows hb h.of_append
    rw [makeDirectories_concat]
    split
    next hmissing =>
      split
      next later hm =>
        rw [hm] at hmade
        cases hmade
      next later hm =>
        rw [hm] at hopen hgrows
        refine tryDirectory_succeeds (hb.of_working hgrows.working) (hgrows.plain (fun _ _ => id) h)
          hopen hname ?_
        exact (hgrows.free_iff (fun _ _ => id)).mpr hfree _ (List.prefix_refl _)
    next hno =>
      exact tryDirectory_succeeds hb h (open_of_not_missing hb h.of_append hnamed' hbefore hno) hname
        (hfree _ (List.prefix_refl _))

end

end Inspection.FileTree
