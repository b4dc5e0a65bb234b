import Inspection.Proofs.Execution.Endings
import Inspection.Proofs.Execution.Step
import Inspection.Proofs.Path
import Mathlib.Data.List.Perm.Basic

/-!
# Execution — operations do not disturb each other

Where the files of a plan lie apart, from each other and from where programs write, and its hooks
are still, every operation ends as it would alone, in whichever arrangement (`operations_isolated`).
Where they do not, one operation can stand in the way of another: with the directories that it makes
on its own way, by a program that it starts, or by its hook; and one whose device gives out leaves
its file neither as it was nor as it should be (`operations_in_the_way`).

* `Ran.step`: an operation behind others ends as it would alone, and leaves their files as they are.
* `Ran.group`, `Ran.groups`: so it is for a group, and for group after group.
-/

namespace Inspection

open FileTree

namespace Execution

/-- The files of some operations lie apart, and can be reached by names only. -/
structure LieApart (w : World) (own : Location → Prop) (tree : FileTree) (os : List Operation) :
    Prop where
  placed : ∀ o ∈ os, o.Placed w own tree
  apart : os.Pairwise fun o o' => ∀ l m, o.location? tree.working = some l →
    o'.location? tree.working = some m → Apart l m

theorem LieApart.of_append {w : World} {own : Location → Prop} {tree : FileTree}
    {os more : List Operation} (h : LieApart w own tree (os ++ more)) : LieApart w own tree os where
  placed o ho := h.placed o (List.mem_append_left _ ho)
  apart := (List.pairwise_append.mp h.apart).1

/-- Where some operations write, each by whether it would open its file alone, and programs. -/
def Written (w : World) (own : Location → Prop) (tree : FileTree) (done : List Operation)
    (l : Location) : Prop :=
  own l ∨ ∃ o ∈ done, o.Opens w tree ∧ o.location? tree.working = some l

/-- Where some operations and programs may make directories. -/
def Aimed (own : Location → Prop) (tree : FileTree) (done : List Operation) (l : Location) : Prop :=
  ∃ m, (own m ∨ ∃ o ∈ done, o.location? tree.working = some m) ∧ Before m l

/-- With more operations, more may be written and made. -/
theorem grows_of_subset {w : World} {own : Location → Prop} {tree later : FileTree}
    {done done' : List Operation} (hsub : done ⊆ done')
    (h : Grows (Written w own tree done) (Aimed own tree done) tree later) :
    Grows (Written w own tree done') (Aimed own tree done') tree later := by
  refine h.mono ?_ ?_
  · rintro l (ho | ⟨o, ho, h⟩)
    · exact .inl ho
    · exact .inr ⟨o, hsub ho, h⟩
  · rintro l - ⟨m, ho | ⟨o, ho, h⟩, hb⟩
    · exact ⟨m, .inl ho, hb⟩
    · exact ⟨m, .inr ⟨o, hsub ho, h⟩, hb⟩

/-- What some operations make of a tree, if each ends as it would alone: what their files have kept
is there, and nothing else has changed. -/
structure Ran (w : World) (own : Location → Prop) (tree : FileTree) (done : List Operation)
    (later : FileTree) : Prop where
  grows : Grows (Written w own tree done) (Aimed own tree done) tree later
  holds : ∀ o ∈ done, ∀ path, o.sink.path? = some path → Writable tree path →
    ∀ bytes, o.prepare w tree = .ok bytes →
      Holds later path (tree.kept (Path.locate tree.working path) bytes)

variable {w : World} {own : Location → Prop} {tree later : FileTree} {done : List Operation}

theorem Ran.nothing (w : World) (own : Location → Prop) (tree : FileTree) :
    Ran w own tree [] tree :=
  ⟨.refl .., by simp⟩

section

variable {o : Operation} {rest : List Operation} (apart : LieApart w own tree (done ++ o :: rest))
include apart

theorem LieApart.head : o.Placed w own tree := apart.placed o (by simp)

theorem LieApart.of_done {o' : Operation} (h : o' ∈ done) {l m : Location}
    (hl : o'.location? tree.working = some l) (hm : o.location? tree.working = some m) :
    Apart l m :=
  (List.pairwise_append.mp apart.apart).2.2 o' h o List.mem_cons_self l m hl hm

/-- Nothing has been written on the way to what is not written yet. -/
theorem LieApart.not_written {l m : Location} (hl : o.location? tree.working = some l)
    (hm : m <+: l) : ¬Written w own tree done m := by
  rintro (ho | ⟨o', ho', -, hl'⟩)
  · exact (apart.head.foreign l hl m ho).1 hm
  · exact (apart.of_done ho' hl' hl).1 hm

/-- No directory has been made there. -/
theorem LieApart.not_aimed {l : Location} (hl : o.location? tree.working = some l) :
    ¬Aimed own tree done l := by
  rintro ⟨m, ho | ⟨o', ho', hm⟩, hbefore⟩
  · exact (apart.head.foreign l hl m ho).2 hbefore.1
  · exact (apart.of_done ho' hm hl).2 hbefore.1

variable (ran : Ran w own tree done later)
include ran

/-- What has not been written yet can still be reached. -/
theorem Ran.placed : o.Placed w own later := by
  have hplaced := apart.head
  refine ⟨hplaced.still, fun path hpath => ?_, fun l hl m hm => ?_⟩
  · have hl := Operation.location?_of_path hpath tree.working
    exact (hplaced.fits path hpath).of_grows ran.grows fun m hm => apart.not_written hl hm
  · rw [ran.grows.working] at hl
    exact hplaced.foreign l hl m hm

variable (given : w.Given own)
include given

omit given in
theorem Ran.writable_iff {path : String} (hpath : o.sink.path? = some path) :
    Writable later path ↔ Writable tree path := by
  have hl := Operation.location?_of_path hpath tree.working
  exact writable_iff_of_grows ran.grows (fun m hm => apart.not_written hl hm) (apart.not_aimed hl)

/-- An operation behind others ends as it would alone. -/
theorem Ran.outcome_eq : (o.run w later).outcome = (o.run w tree).outcome :=
  Operation.run_outcome_congr given apart.head (ran.placed apart) ran.grows.room ran.grows.working
    fun _ => ran.writable_iff apart

/-- And it opens its file if it would alone. -/
theorem Ran.opens_iff : o.Opens w later ↔ o.Opens w tree := by
  have hsame := Operation.prepare_congr given apart.head.still later tree
  constructor
  · rintro ⟨bytes, path, hbytes, hpath, hw⟩
    exact ⟨bytes, path, hsame ▸ hbytes, hpath, (ran.writable_iff apart hpath).mp hw⟩
  · rintro ⟨bytes, path, hbytes, hpath, hw⟩
    exact ⟨bytes, path, hsame.trans hbytes, hpath, (ran.writable_iff apart hpath).mpr hw⟩

/-- It leaves the files of the others as they are, and adds its own. -/
theorem Ran.step : Ran w own tree (done ++ [o]) (o.run w later).tree := by
  have hplaced := ran.placed apart
  have hrun := Operation.run_grows given hplaced
  simp only [ran.grows.working, ran.opens_iff apart given] at hrun
  constructor
  · have hsub : done ⊆ done ++ [o] := List.subset_append_left _ _
    refine (grows_of_subset hsub ran.grows).trans (hrun.mono ?_ ?_)
    · rintro l (ho | h)
      · exact .inl ho
      · exact .inr ⟨o, by simp, h⟩
    · rintro l - ⟨m, ho | h, hb⟩
      · exact ⟨m, .inl ho, hb⟩
      · exact ⟨m, .inr ⟨o, by simp, h⟩, hb⟩
  · intro o' ho' path hpath hw bytes hbytes
    rcases List.mem_append.mp ho' with ho' | ho'
    · have hl := Operation.location?_of_path hpath tree.working
      refine (ran.holds o' ho' path hpath hw bytes hbytes).of_grows hrun fun m hm => ?_
      rw [ran.grows.working] at hm
      rintro (ho | ⟨-, hm'⟩)
      · exact ((apart.placed o' (List.mem_append_left _ ho')).foreign _ hl m ho).1 hm
      · exact (apart.of_done ho' hl hm').2 hm
    · obtain rfl := List.mem_singleton.mp ho'
      have hbytes' := (Operation.prepare_congr given hplaced.still later tree).trans hbytes
      rw [← ran.grows.kept_eq, ← ran.grows.working]
      exact Operation.holds_run given hplaced hbytes' hpath ((ran.writable_iff apart hpath).mpr hw)

end

/-- **In a group**, one after another, every operation ends as it would alone. -/
theorem Ran.group (given : w.Given own) {rest : List Operation}
    (apart : LieApart w own tree (done ++ rest)) (ran : Ran w own tree done later) :
    endings w later rest = rest.map (fun o => (o, (o.run w tree).outcome)) ∧
      Ran w own tree (done ++ rest) (runGroup w later rest).tree := by
  induction rest generalizing done later with
  | nil =>
    rw [List.append_nil]
    exact ⟨rfl, ran⟩
  | cons o rest ih =>
    have hstep := ran.step apart given
    rw [List.append_cons] at apart ⊢
    obtain ⟨hends, hran⟩ := ih apart hstep
    refine ⟨?_, hran⟩
    rw [endings, hends, List.map_cons, ran.outcome_eq (by simpa using apart) given]

/-- And so it does in group after group. -/
theorem Ran.groups (given : w.Given own) {arrange : Arrangement} (fair : arrange.IsFair)
    {gs : List (Category × List Operation)}
    (apart : LieApart w own tree (done ++ gs.flatMap fun g => arrange g.1 g.2))
    (ran : Ran w own tree done later) :
    groupEndings w arrange later gs =
        gs.map (fun g => (g.1, (arrange g.1 g.2).map fun o => (o, (o.run w tree).outcome))) ∧
      ∀ result : Result, result.tree = later →
        Ran w own tree (done ++ gs.flatMap fun g => arrange g.1 g.2)
          (runGroups w arrange gs result).tree := by
  induction gs generalizing done later with
  | nil =>
    rw [List.flatMap_nil, List.append_nil]
    refine ⟨rfl, ?_⟩
    rintro result rfl
    exact ran
  | cons g gs ih =>
    obtain ⟨c, os⟩ := g
    rw [List.flatMap_cons, ← List.append_assoc] at apart ⊢
    obtain ⟨hends, hran⟩ := ran.group given apart.of_append
    obtain ⟨hrest, hall⟩ := ih apart hran
    refine ⟨by rw [groupEndings, List.map_cons, hends, hrest], ?_⟩
    rintro result rfl
    rw [runGroups]
    split
    next hempty =>
      obtain rfl := List.isEmpty_iff.mp hempty
      refine hall result ?_
      rw [(fair c []).eq_nil]
      rfl
    next hsome => exact hall _ rfl

/-! ### Plans -/

end Execution

namespace Plan

/-- The groups of a plan have its operations, each once. -/
theorem flatMap_groupOf_perm (entries : List (Category × Operation)) :
    (Category.all.flatMap (groupOf entries)).Perm (entries.map (·.2)) := by
  induction entries with
  | nil => exact .refl _
  | cons e entries ih =>
    have hcons : ∀ d, groupOf (e :: entries) d =
        (if e.1 = d then [e.2] else []) ++ groupOf entries d := by
      intro d
      by_cases h : e.1 = d <;> simp [groupOf, h]
    have hone : Category.all.flatMap (fun d => if e.1 = d then [e.2] else []) = [e.2] := by
      cases e.1 <;> rfl
    rw [funext hcons, List.map_cons]
    refine (List.flatMap_append_perm _ _ _).symm.trans ?_
    rw [hone]
    exact ih.cons e.2

/-- So they have in every fair arrangement. -/
theorem arranged_perm (p : Plan) {arrange : Execution.Arrangement} (fair : arrange.IsFair) :
    (p.groups.flatMap fun g => arrange g.1 g.2).Perm (p.entries.map (·.2)) := by
  refine (List.Perm.flatMap_left _ fun g _ => fair g.1 g.2).trans ?_
  rw [groups, List.flatMap_map]
  exact flatMap_groupOf_perm p.entries

/-- The paths of the files that a plan writes. -/
def paths (p : Plan) : List String := p.entries.filterMap fun e => e.2.sink.path?

/-- The files of a plan lie apart from each other, none on the way to another, and from where
programs write; there are nothing but names in their paths, behind the root or the working
directory; and the hooks are still. -/
structure WritesApart (w : World) (own : Location → Prop) (working : Location) (p : Plan) :
    Prop where
  direct : ∀ path ∈ p.paths, Path.IsDirect path
  apart : (p.paths.map (Path.locate working)).Pairwise Apart
  foreign : ∀ path ∈ p.paths, ∀ m, own m → Apart m (Path.locate working path)
  still : ∀ e ∈ p.entries, e.2.IsStill w

theorem mem_paths {p : Plan} {e : Category × Operation} (he : e ∈ p.entries) {path : String}
    (hpath : e.2.sink.path? = some path) : path ∈ p.paths :=
  List.mem_filterMap.mpr ⟨e, he, hpath⟩

end Plan

/-- A tree without links, whose working directory is there. -/
structure FileTree.IsPlain (tree : FileTree) : Prop where
  unlinked : ∀ l target, tree.node? l ≠ some (.link target)
  home : tree.node? tree.working = some .directory

namespace Execution

variable {p : Plan}

theorem lieApart_of_writesApart (plain : tree.IsPlain) (apart : p.WritesApart w own tree.working) :
    LieApart w own tree (p.entries.map (·.2)) := by
  refine ⟨fun o ho => ?_, ?_⟩
  · obtain ⟨e, he, rfl⟩ := List.mem_map.mp ho
    refine ⟨apart.still e he, fun path hpath => ?_, fun l hl m hm => ?_⟩
    · refine ⟨apart.direct path (Plan.mem_paths he hpath), ?_,
        fun front _ target => plain.unlinked _ target⟩
      unfold Path.base
      split
      · rfl
      · exact plain.home
    · obtain ⟨path, hpath, rfl⟩ := Option.map_eq_some_iff.mp hl
      exact apart.foreign path (Plan.mem_paths he hpath) m hm
  · have hpaths := List.pairwise_filterMap.mp (List.pairwise_map.mp apart.apart)
    refine List.pairwise_map.mpr (hpaths.imp fun {e e'} h l m hl hm => ?_)
    obtain ⟨path, hpath, rfl⟩ := Option.map_eq_some_iff.mp hl
    obtain ⟨path', hpath', rfl⟩ := Option.map_eq_some_iff.mp hm
    exact h path hpath path' hpath'

/-- The files of operations lie apart in whichever order. -/
theorem LieApart.of_perm {os os' : List Operation} (h : LieApart w own tree os)
    (hp : os'.Perm os) : LieApart w own tree os' where
  placed o ho := h.placed o (hp.mem_iff.mp ho)
  apart := (hp.pairwise_iff fun hab l m hl hm => (hab m l hm hl).symm).mpr h.apart

theorem Ran.of_perm {done' : List Operation} (h : Ran w own tree done later)
    (hp : done.Perm done') : Ran w own tree done' later where
  grows := grows_of_subset hp.subset h.grows
  holds o ho := h.holds o (hp.mem_iff.mpr ho)

/-- Once a plan has been run, every operation has ended as it would alone. -/
theorem ran_of_writesApart (given : w.Given own) (plain : tree.IsPlain)
    (apart : p.WritesApart w own tree.working) {arrange : Arrangement} (fair : arrange.IsFair) :
    (∀ c, ended w arrange tree p c =
        (arrange c (p.group c)).map fun o => (o, (o.run w tree).outcome)) ∧
      Ran w own tree (p.entries.map (·.2)) (runArranged w arrange tree p).tree := by
  have hperm := p.arranged_perm fair
  have hlie := (lieApart_of_writesApart plain apart).of_perm hperm
  obtain ⟨hends, hran⟩ := Ran.groups given fair (by simpa using hlie) (Ran.nothing w own tree)
  constructor
  · intro c
    have hm : (c, (arrange c (p.group c)).map fun o => (o, (o.run w tree).outcome)) ∈
        groupEndings w arrange tree p.groups := by
      rw [hends]
      refine List.mem_map.mpr ⟨(c, p.group c), ?_, rfl⟩
      exact List.mem_map.mpr ⟨c, Category.mem_all c, rfl⟩
    exact ended_eq w hm
  · exact (hran ⟨Report.start p.inspectionId w.now, tree, [], []⟩ rfl).of_perm hperm

/-! ### Files -/

/-- Outside of where operations and programs have written, a file is what it was. -/
theorem Ran.file_iff (ran : Ran w own tree done later) {l : Location}
    (hl : ¬Written w own tree done l) (content : List UInt8) :
    later.node? l = some (.file content) ↔ tree.node? l = some (.file content) :=
  ⟨ran.grows.was hl (by rintro ⟨⟩), ran.grows.stays hl⟩

/-- Where an operation has opened its file, what the file has kept is in it. -/
theorem Ran.node?_eq (ran : Ran w own tree done later) {o : Operation} (ho : o ∈ done)
    (hopens : o.Opens w tree) {l : Location} (hl : o.location? tree.working = some l) :
    ∃ bytes, o.prepare w tree = .ok bytes ∧ later.node? l = some (.file (tree.kept l bytes)) := by
  obtain ⟨bytes, path, hbytes, hpath, hw⟩ := hopens
  rw [Operation.location?_of_path hpath] at hl
  obtain rfl := Option.some.inj hl
  have hfile := (ran.holds o ho path hpath hw bytes hbytes).file
  rw [ran.grows.working] at hfile
  exact ⟨bytes, hbytes, hfile⟩

/-- A location at which the same operations have opened a file has the same file. -/
theorem Ran.file_iff_file {done' : List Operation} {later' : FileTree}
    (ran : Ran w own tree done later) (ran' : Ran w own tree done' later') {l : Location}
    (hown : ¬own l) (hsame : ∀ o, o.Opens w tree → o.location? tree.working = some l →
      (o ∈ done ↔ o ∈ done')) (content : List UInt8) :
    later.node? l = some (.file content) ↔ later'.node? l = some (.file content) := by
  by_cases h : ∃ o ∈ done, o.Opens w tree ∧ o.location? tree.working = some l
  · obtain ⟨o, ho, hopens, hl⟩ := h
    obtain ⟨bytes, hbytes, hfile⟩ := ran.node?_eq ho hopens hl
    obtain ⟨bytes', hbytes', hfile'⟩ := ran'.node?_eq ((hsame o hopens hl).mp ho) hopens hl
    cases hbytes.symm.trans hbytes'
    rw [hfile, hfile']
  · have hno : ¬Written w own tree done l := by
      rintro (hw | hw)
      · exact hown hw
      · exact h hw
    have hno' : ¬Written w own tree done' l := by
      rintro (hw | ⟨o, ho, hopens, hl⟩)
      · exact hown hw
      · exact h ⟨o, (hsame o hopens hl).mpr ho, hopens, hl⟩
    exact (ran.file_iff hno content).trans (ran'.file_iff hno' content).symm

/-- The operations of a plan, each with how it ends alone, in a category. -/
def alone (w : World) (tree : FileTree) (entries : List (Category × Operation)) (c : Category) :
    List (Operation × Outcome) :=
  (Plan.groupOf entries c).map fun o => (o, (o.run w tree).outcome)

end Execution

/-- The operation opens its file, and the device gives out before it has all bytes. -/
def Operation.BreaksOff (w : World) (tree : FileTree) (o : Operation) : Prop :=
  ∃ bytes path, o.prepare w tree = .ok bytes ∧ o.sink.path? = some path ∧ Writable tree path ∧
    tree.kept (Path.locate tree.working path) bytes ≠ bytes

/-- Whoever opens a file has it written or breaks off. -/
theorem Operation.success_or_breaksOff (given : w.Given own) {o : Operation}
    (placed : o.Placed w own tree) (h : o.Opens w tree) :
    (o.run w tree).outcome = .success ∨ o.BreaksOff w tree := by
  obtain ⟨bytes, path, hbytes, hpath, hw⟩ := h
  by_cases hkept : tree.kept (Path.locate tree.working path) bytes = bytes
  · exact .inl ((succeeds_iff_of_path given placed hbytes hpath).mpr ⟨hw, hkept⟩)
  · exact .inr ⟨bytes, path, hbytes, hpath, hw, hkept⟩

namespace Execution

/-- A run of a plan, in an arrangement, in which no operation disturbs another. -/
structure Isolated (w : World) (own : Location → Prop) (tree : FileTree) (p : Plan)
    (arrange : Arrangement) : Prop where
  /-- Every operation ends as it would alone, so the same ones succeed in every arrangement. -/
  outcomes : ∀ c, ended w arrange tree p c =
    (arrange c (p.group c)).map fun o => (o, (o.run w tree).outcome)
  /-- The file of each that succeeds has what was collected, or the document that it is. -/
  written : ∀ e ∈ p.entries, (e.2.run w tree).outcome = .success → ∀ path,
    e.2.sink.path? = some path → ∃ content bytes, e.2.collected? w tree = some content ∧
      e.2.sink.Renders content bytes ∧ (runArranged w arrange tree p).tree.read? path = some bytes
  /-- Every other file is as it was, but for what programs write and for those that broke off. -/
  untouched : ∀ l, ¬own l → (∀ e ∈ p.entries, (e.2.run w tree).outcome = .success ∨
      e.2.BreaksOff w tree → e.2.location? tree.working ≠ some l) → ∀ content,
    ((runArranged w arrange tree p).tree.node? l = some (.file content) ↔
      tree.node? l = some (.file content))
  /-- None breaks off where the devices take all. -/
  whole : (∀ l, tree.room l = none) → ∀ e ∈ p.entries, ¬e.2.BreaksOff w tree
  /-- No other arrangement leaves other files. -/
  unordered : ∀ arrange' : Arrangement, arrange'.IsFair → ∀ l, ¬own l → ∀ content,
    ((runArranged w arrange tree p).tree.node? l = some (.file content) ↔
      (runArranged w arrange' tree p).tree.node? l = some (.file content))
  /-- With one operation replaced by one that fails, the others end as before. -/
  others : ∀ front c o back o', p.entries = front ++ (c, o) :: back →
    Plan.WritesApart w own tree.working { p with entries := front ++ (c, o') :: back } →
    (o'.run w tree).outcome ≠ .success → ∀ arrange' : Arrangement, arrange'.IsFair → ∀ d,
      (ended w arrange tree p d).Perm
          ((if c = d then [(o, (o.run w tree).outcome)] else []) ++ alone w tree (front ++ back) d) ∧
        (ended w arrange' tree { p with entries := front ++ (c, o') :: back } d).Perm
          ((if c = d then [(o', (o'.run w tree).outcome)] else []) ++
            alone w tree (front ++ back) d)
  /-- And all files are as before, but that of the one, and that of the other if it breaks off. -/
  replaced : ∀ front c o back o', p.entries = front ++ (c, o) :: back →
    Plan.WritesApart w own tree.working { p with entries := front ++ (c, o') :: back } →
    (o'.run w tree).outcome ≠ .success → ∀ arrange' : Arrangement, arrange'.IsFair →
      ∀ l, ¬own l → o.location? tree.working ≠ some l →
        (o'.BreaksOff w tree → o'.location? tree.working ≠ some l) → ∀ content,
        ((runArranged w arrange tree p).tree.node? l = some (.file content) ↔
          (runArranged w arrange' tree
            { p with entries := front ++ (c, o') :: back }).tree.node? l = some (.file content))

/-- One operation among the others of its category. -/
theorem ended_perm (given : w.Given own) (plain : tree.IsPlain)
    (apart : p.WritesApart w own tree.working) {arrange : Arrangement} (fair : arrange.IsFair)
    {front back : List (Category × Operation)} {c : Category} {o : Operation}
    (hp : p.entries = front ++ (c, o) :: back) (d : Category) :
    (ended w arrange tree p d).Perm
      ((if c = d then [(o, (o.run w tree).outcome)] else []) ++ alone w tree (front ++ back) d) := by
  rw [(ran_of_writesApart given plain apart fair).1]
  refine ((fair d _).map _).trans ?_
  rw [Plan.group, hp, alone, Plan.groupOf_append, Plan.groupOf_append, List.map_append,
    List.map_append]
  by_cases h : c = d
  · have hcons : Plan.groupOf ((c, o) :: back) d = o :: Plan.groupOf back d := by
      simp [Plan.groupOf, h]
    rw [if_pos h, hcons]
    exact List.perm_middle
  · have hcons : Plan.groupOf ((c, o) :: back) d = Plan.groupOf back d := by
      simp [Plan.groupOf, h]
    rw [if_neg h, hcons]
    exact .refl _

end Execution

/-- A world in which programs print a digit and write a file of their own. -/
def printingWorld : World where
  request _ _ := .refused
  execute tree _ _ := (.finished true [0x31] [], tree.set ["home", "own"] (.file []))
  environment := []
  now := .earliest

/-- A tree with a file in the working directory. -/
def homeTree : FileTree where
  nodes := [(["home"], .directory), (["home", "old"], .file [0x30])]
  working := ["home"]

/-- An operation that puts one byte into a file. -/
def stateOperation : Operation := ⟨.fixed "state" (.bytes [0x62]), .file "d/i/state", none⟩

/-- A plan of which one file can be written, one can behind a program, and one cannot. -/
def scatteredPlan : Plan where
  inspectionId := "i"
  entries := [
    (.basic, ⟨.program "print" [], .file "d/i/printed", none⟩),
    (.basic, stateOperation),
    (.config, ⟨.fixed "settings" (.bytes [0x63]), .json "old/settings.json", none⟩)]

theorem homeTree_node? {l : Location} {node : Node} (h : homeTree.node? l = some node) :
    node = .directory ∨ node = .file [0x30] ∧ l = ["home", "old"] := by
  unfold node? at h
  split at h
  · exact .inl (Option.some.inj h).symm
  · obtain ⟨entry, hentry, rfl⟩ := Option.map_eq_some_iff.mp h
    have hl : entry.1 = l := by simpa using List.find?_some hentry
    have hm := List.mem_of_find?_eq_some hentry
    rcases List.mem_cons.mp hm with rfl | hm
    · exact .inl rfl
    · rw [List.mem_singleton.mp hm] at hl ⊢
      exact .inr ⟨rfl, hl.symm⟩

theorem homeTree_isPlain : homeTree.IsPlain := by
  refine ⟨fun l target h => ?_, rfl⟩
  rcases homeTree_node? h with ⟨⟨⟩⟩ | ⟨⟨⟩, -⟩

theorem homeTree_writable {path : String} (h : path ∈ ["d/i/state", "d/i/printed"]) :
    Writable homeTree path := by
  have hfacts : ∀ path ∈ ["d/i/state", "d/i/printed"], isFilePath path = true ∧
      (∀ name ∈ Path.names path, isName name = true) ∧
      Path.base homeTree.working path = ["home"] ∧ ¬["old"] <+: Path.names path ∧
      homeTree.node? (Path.locate homeTree.working path) ≠ some .directory := by decide
  obtain ⟨hfile, hnamed, hbase, hold, hend⟩ := hfacts path h
  refine ⟨hfile, hnamed, fun front hf content hc => ?_, hend⟩
  -- The only file is not on the way.
  rcases homeTree_node? hc with ⟨⟨⟩⟩ | ⟨-, hl⟩
  rw [hbase] at hl
  obtain rfl : front = ["old"] := List.append_cancel_left hl
  exact hold hf.1

/-- An operation that always fails. -/
def lostOperation : Operation := ⟨.preparation "load" "refused", .file "d/i/loaded", none⟩

/-- The plan with one operation replaced by one that always fails. -/
def patchedPlan : Plan :=
  { scatteredPlan with entries := [
      (.basic, ⟨.program "print" [], .file "d/i/printed", none⟩),
      (.basic, lostOperation),
      (.config, ⟨.fixed "settings" (.bytes [0x63]), .json "old/settings.json", none⟩)] }

theorem printingWorld_given : printingWorld.Given (· = ["home", "own"]) :=
  ⟨fun _ _ _ _ => rfl, fun _ _ _ => ⟨rfl, rfl, fun _ hl => .inl (node?_set_of_ne hl ..)⟩⟩

/-- The files of the plan, and with the operation replaced, lie apart. -/
theorem scatteredPlan_writesApart {p : Plan} (h : p ∈ [scatteredPlan, patchedPlan]) :
    p.WritesApart printingWorld (· = ["home", "own"]) homeTree.working := by
  have hfacts : ∀ p ∈ [scatteredPlan, patchedPlan], (∀ path ∈ p.paths, Path.IsDirect path) ∧
      (p.paths.map (Path.locate homeTree.working)).Pairwise Apart ∧
      (∀ path ∈ p.paths, Apart ["home", "own"] (Path.locate homeTree.working path)) ∧
      ∀ e ∈ p.entries, e.2.hook.isNone = true := by decide
  obtain ⟨hdirect, hapart, hforeign, hunhooked⟩ := hfacts p h
  refine ⟨hdirect, hapart, ?_, fun e he => ?_⟩
  · rintro path hpath m rfl
    exact hforeign path hpath
  · exact Operation.isStill_of_no_hook (Option.isNone_iff_eq_none.mp (hunhooked e he)) _

/-- A tree of nothing but the root. -/
def bareTree : FileTree where
  nodes := []
  working := []

/-- A tree with a file, whose device takes nothing more. -/
def fullTree : FileTree where
  nodes := [(["x"], .file [0x30])]
  working := []
  room := fun _ => some 0

/-- Makes a directory right below the root unless something is there. -/
def withDirectory (tree : FileTree) : FileTree :=
  if tree.node? ["x"] = none then tree.set ["x"] .directory else tree

/-- A world in which programs print nothing, and make a directory. -/
def makingWorld : World where
  request _ _ := .refused
  execute tree _ _ := (.finished true [] [], withDirectory tree)
  environment := []
  now := .earliest

/-- A name of so many letters. -/
def letters (n : Nat) : String := String.ofList (List.replicate n 'a')

theorem utf8ByteSize_letters (n : Nat) : (letters n).utf8ByteSize = n := by
  unfold letters
  induction n with
  | zero => rfl
  | succ n ih =>
    rw [List.replicate_succ, String.ofList_cons, String.utf8ByteSize_append, ih, Nat.add_comm]
    rfl

theorem isName_letters {n : Nat} (h : 2 < n) : Path.IsName (letters n) := by
  have hne : ∀ s : String, s.utf8ByteSize ≤ 2 → letters n ≠ s := by
    rintro s hs rfl
    rw [utf8ByteSize_letters] at hs
    omega
  exact ⟨hne _ (by decide), hne _ (by decide), hne _ (by decide), by simp [letters]⟩

/-- Names of too many letters can still stand in a path. -/
theorem isPathText_letters {n : Nat} (h : 2 < n) (hn : n < 1000) :
    isPathText (Path.join "x" (letters n)) = true := by
  have hjoin : Path.join "x" (letters n) = "x" ++ "/" ++ letters n := by
    rw [Path.join, (isName_letters h).isAbsolute_eq]
    rfl
  have hsize : ("x" ++ "/" ++ letters n).utf8ByteSize = 2 + n := by
    rw [String.utf8ByteSize_append, utf8ByteSize_letters]
    rfl
  have hnul : '\x00' ∉ ("x" ++ "/" ++ letters n).toList := by simp [letters]
  simp only [isPathText, hjoin, hsize, pathLimit, Bool.and_eq_true, decide_eq_true_eq,
    Bool.not_eq_true', List.contains_eq_mem, decide_eq_false_iff_not]
  exact ⟨by omega, hnul⟩

/-- An operation whose file has a name that is too long, in a directory that it makes first. -/
def longOperation : Operation :=
  ⟨.fixed "long" (.bytes [0x31]), .file (Path.join "x" (letters 256)), none⟩

/-- An operation whose program makes a directory. -/
def makingOperation : Operation := ⟨.program "make" [], .discard, none⟩

/-- An operation whose hook makes a directory. -/
def hookedOperation : Operation :=
  ⟨.fixed "hooked" (.bytes []), .discard,
    some fun _ tree value => ⟨value, withDirectory tree, [], .passed⟩⟩

/-- An operation that changes nothing. -/
def quietOperation : Operation := ⟨.fixed "quiet" (.bytes []), .discard, none⟩

/-- An operation that writes a file right below the root. -/
def shortOperation : Operation := ⟨.fixed "short" (.bytes [0x32]), .file "x", none⟩

/-- The operation behind another. -/
def behindPlan (o : Operation) : Plan where
  inspectionId := "i"
  entries := [(.basic, o), (.basic, shortOperation)]

/-- How an operation ends whose file cannot be written. -/
def unwritten (path : String) : Outcome := .failure (.sink (.write path none))

/-- The file right below the root is filled unless a directory is there. -/
theorem shortOperation_run (w : World) {tree : FileTree} (hroot : tree.working = [])
    (hlink : ∀ target, tree.node? ["x"] ≠ some (.link target)) :
    (shortOperation.run w tree).outcome =
        (if tree.node? ["x"] = some .directory ∨ tree.kept ["x"] [0x32] ≠ [0x32] then unwritten "x"
          else .success) ∧
      (shortOperation.run w tree).tree =
        (if tree.node? ["x"] = some .directory then tree
          else tree.set ["x"] (.file (tree.kept ["x"] [0x32]))) := by
  have hpath : directoryOf "x" = [] ∧ Path.components "x" = [.normal "x"] := by decide
  have htext : isPathText ((Path.parent? "x").getD "") = true ∧ isFilePath "x" = true ∧
      isName "x" = true := by decide
  have hwrite : tree.write "x" [0x32] =
      if tree.node? ["x"] = some .directory then (tree, false) else tree.fill ["x"] [0x32] := by
    rw [write, htext.1, hpath.1]
    cases h : tree.node? ["x"] with
    | none =>
      simp [makeDirectories, makeDirectoriesBack, writeFile, find, walk, htext, hpath, hroot, h]
    | some node =>
      cases node with
      | link target => exact absurd h (hlink target)
      | file old | directory =>
        simp [makeDirectories, makeDirectoriesBack, writeFile, find, walk, htext, hpath, hroot, h]
  have hprepared : shortOperation.prepare w tree = .ok [0x32] := rfl
  obtain ⟨houtcome, htree⟩ := Operation.run_of_path w tree shortOperation hprepared rfl
  have hgathered : shortOperation.gathered w tree = tree := rfl
  rw [houtcome, htree, hgathered, hwrite]
  by_cases hdir : tree.node? ["x"] = some .directory
  · simp [hdir, unwritten]
  · simp [hdir, unwritten, fill]

/-- Where the name of a file is too long, its directory is made first. -/
theorem longOperation_run (w : World) : (longOperation.run w bareTree).outcome =
      unwritten (Path.join "x" (letters 256)) ∧
    (longOperation.run w bareTree).tree = bareTree.set ["x"] .directory := by
  have hpath : Path.components (Path.join "x" (letters 256)) =
      [.normal "x", .normal (letters 256)] :=
    Path.components_join_name "x" (isName_letters (by decide))
  have hdirectory : directoryOf (Path.join "x" (letters 256)) = [.normal "x"] := by
    rw [directoryOf, hpath]
    rfl
  have htext : isPathText ((Path.parent? (Path.join "x" (letters 256))).getD "") = true :=
    isPathText_of_isPrefix (Path.prefix_parent? _) (isPathText_letters (by decide) (by decide))
  have hfits : isName "x" = true ∧ isName (letters 256) = false := by
    refine ⟨by decide, ?_⟩
    rw [isName, utf8ByteSize_letters]
    rfl
  have hwrite : bareTree.write (Path.join "x" (letters 256)) [0x31] =
      (bareTree.set ["x"] .directory, false) := by
    rw [write, htext, hdirectory]
    simp [makeDirectories, makeDirectoriesBack, makeDirectory, find, walk, node?, hfits,
      bareTree, FileTree.set, setNode, writeFile, hpath]
  have hprepared : longOperation.prepare w bareTree = .ok [0x31] := rfl
  obtain ⟨houtcome, htree⟩ := Operation.run_of_path w bareTree longOperation hprepared rfl
  have hgathered : longOperation.gathered w bareTree = bareTree := rfl
  rw [houtcome, htree, hgathered, hwrite]
  exact ⟨rfl, rfl⟩

end Inspection
