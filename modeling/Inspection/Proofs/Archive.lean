import Inspection.Archive
import Inspection.Proofs.Archive.Gzip
import Inspection.Proofs.Archive.Tar
import Inspection.Proofs.FileTree.Below
import Inspection.Proofs.Path.Sibling
import Inspection.Statistics

/-!
# Archive — what is packed is what is counted

The archive of a directory stands beside it, so packing does not meet the archive among what is
packed, though its file is made first.  Where there are no links, every directory and every file
below the directory is one member, and the files among the members are those that are counted.  The
file of the archive is read as the members, in whatever format does so for what can be stored.

* `tarGz_readsBack`: compressed tape archives are such a format.
* `membersOf?_eq`: the members are what the listing below the directory has.
* `create_eq`: packing comes to one file that is put beside the directory.
* `packed_as_counted`: the archive and the statistics tell of the same tree.
-/

namespace Inspection

/-- The content of a node that is a file. -/
def Node.content? : Node → Option (List UInt8)
  | file content => some content
  | _ => none

/-- A member tells of a node: it has the bytes of a file, or none for a directory. -/
def Member.TellsOf (m : Member) (node : Node) : Prop :=
  m.content = none ∧ node = .directory ∨ ∃ content, m.content = some content ∧ node = .file content

namespace FileTree

variable {tree : FileTree} {l loc : Location}

theorem Unlinked.set (h : tree.Unlinked) (l : Location) (content : List UInt8) :
    (tree.set l (.file content)).Unlinked := by
  intro m target hm
  by_cases he : m = l
  · subst he
    by_cases hroot : m = []
    · subst hroot
      cases hm
    · rw [node?_set_self hroot] at hm
      cases hm
  · rw [node?_set_of_ne he] at hm
    exact h m target hm

theorem Unlinked.isFree (h : tree.Unlinked) (hdir : tree.node? l ≠ some .directory) :
    IsFree tree l := by
  intro node hnode
  cases node with
  | file content => exact ⟨content, rfl⟩
  | directory => exact absurd hnode hdir
  | link target => exact absurd hnode (h l target)

/-- Writing a file in the directory that another path leads into. -/
theorem Unlinked.writeFile_sibling (h : tree.Unlinked) {path other name file : String}
    {front : List Component} {place : Location}
    (hpath : Path.components path = front ++ [.normal name])
    (hother : Path.components other = front ++ [.normal file])
    (hfind : tree.find (Path.components path) = .present (place ++ [name]))
    (content : List UInt8) :
    tree.writeFile other content =
      if isFilePath other = true ∧ isName file = true ∧
          tree.node? (place ++ [file]) ≠ some .directory then
        tree.fill (place ++ [file]) content
      else (tree, false) := by
  rw [hpath] at hfind
  obtain ⟨place', hplace, hleads⟩ := h.walk_concat hfind
  obtain ⟨rfl, -⟩ := List.append_inj' hplace rfl
  rw [writeFile, hother, find, hleads, h.walk_name]
  cases isFilePath other with
  | false => simp
  | true =>
    cases isName file with
    | false => simp
    | true =>
      cases hnode : tree.node? (place ++ [file]) with
      | none => simp
      | some node =>
        cases node with
        | file content => simp [hnode]
        | directory => simp [hnode]
        | link target => exact absurd hnode (h _ target)

theorem hasDirectory_eq_true {path : String} (h : tree.hasDirectory path = true) :
    path ≠ "" ∧ ∃ l, tree.find (Path.components path) = .present l ∧
      tree.node? l = some .directory := by
  simp only [hasDirectory, Bool.and_eq_true, decide_eq_true_eq] at h
  obtain ⟨⟨hpath, -⟩, hdir⟩ := h
  exact ⟨hpath, isDirectory_eq_true.mp hdir⟩

/-- The files that a path to a directory leads to are those below it. -/
theorem contents_of_directory {path : String} (hpath : path ≠ "")
    (hfind : tree.find (Path.components path) = .present l)
    (hdir : tree.node? l = some .directory) :
    tree.contents path = (tree.below l).filterMap (·.2.content?) := by
  rw [contents, if_neg hpath, hfind]
  simp only [hdir]
  refine List.filterMap_congr fun e _ => ?_
  cases e.2 <;> rfl

/-- Whatever stands in a tree can be stored: names are names, and no file is too large. -/
structure Ordinary (tree : FileTree) : Prop where
  named : ∀ entry ∈ tree.nodes, entry.1 ≠ [] → IsMemberName entry.1
  small : ∀ entry ∈ tree.nodes, ∀ content, entry.2.content? = some content →
    content.length < Arithmetic.twoTo 63

instance (tree : FileTree) : Decidable tree.Ordinary :=
  decidable_of_iff ((∀ entry ∈ tree.nodes, entry.1 ≠ [] → IsMemberName entry.1) ∧
      ∀ entry ∈ tree.nodes, ∀ content ∈ entry.2.content?,
        content.length < Arithmetic.twoTo 63)
    ⟨fun h => ⟨h.1, h.2⟩, fun h => ⟨h.named, h.small⟩⟩

end FileTree

theorem nameSize_append (front name : List String) :
    nameSize (front ++ name) = nameSize front + nameSize name := by
  induction front with
  | nil => exact (Nat.zero_add _).symm
  | cons n front ih =>
    rw [List.cons_append, Tar.nameSize_cons, Tar.nameSize_cons, ih]
    omega

theorem IsMemberName.of_append {front name : List String} (h : IsMemberName (front ++ name))
    (hne : name ≠ []) : IsMemberName name where
  nonempty := hne
  named n hn := h.named n (List.mem_append_right _ hn)
  short := by
    have hshort := h.short
    rw [nameSize_append] at hshort
    exact Nat.lt_of_le_of_lt (Nat.le_add_left ..) hshort

namespace Archive

open FileTree

/-! ### Formats -/

/-- Archives are read as what has been written into them, if it can be stored. -/
def Format.ReadsBack (format : Format) : Prop :=
  ∀ members, (∀ m ∈ members, m.IsStorable) →
    format.decode? (format.encode members) = some members

/-- **Compressed tape archives are read back.** -/
theorem tarGz_readsBack : Format.tarGz.ReadsBack := by
  intro members h
  simp only [Format.tarGz, Gzip.decode?_encode, Option.bind_some]
  exact Tar.decode?_encode h

variable {tree : FileTree} {directory name : String} {place : Location}

/-! ### Members -/

/-- The members of a directory with what is listed below it. -/
def membersAt (name : String) (entries : List (Location × Node)) : List Member :=
  ⟨[name], none⟩ :: entries.map fun e => ⟨name :: e.1, e.2.content?⟩

theorem membersBelow?_eq {loc : Location} (h : ∀ e ∈ tree.below loc, ∀ target, e.2 ≠ .link target)
    (links : Nat) (path : List Component) (names : List String) :
    membersBelow? tree (links + 1) path loc names =
      some ((tree.below loc).map fun e => ⟨names ++ e.1, e.2.content?⟩) := by
  rw [membersBelow?]
  generalize tree.below loc = entries at h ⊢
  induction entries with
  | nil => rfl
  | cons e rest ih =>
    obtain ⟨he, hrest⟩ := List.forall_mem_cons.mp h
    have ih := ih hrest
    simp only [bind, Option.bind_eq_some_iff, pure, Option.some.injEq] at ih
    obtain ⟨parts, hparts, hflat⟩ := ih
    obtain ⟨below, node⟩ := e
    cases node with
    | link target => exact absurd rfl (he target)
    | file content =>
      simp only [List.mapM_cons, hparts, bind, pure, Option.bind_some]
      rw [List.flatten_cons, hflat]
      rfl
    | directory =>
      simp only [List.mapM_cons, hparts, bind, pure, Option.bind_some]
      rw [List.flatten_cons, hflat]
      rfl

/-- **The members** are the directory and what the listing below it has. -/
theorem membersOf?_eq (distinct : tree.Distinct) (unlinked : tree.Unlinked)
    (hname : Path.fileName? directory = some name)
    (hfind : tree.find (Path.components directory) = .present (place ++ [name])) :
    membersOf? tree directory = some (membersAt name (tree.below (place ++ [name]))) := by
  have hlinks : ∀ e ∈ tree.below (place ++ [name]), ∀ target, e.2 ≠ .link target := by
    rintro ⟨rest, _⟩ hm target rfl
    exact unlinked _ target (distinct.mem_below_iff.mp hm).2
  rw [membersOf?, hname, hfind]
  simp only
  rw [membersBelow?_eq hlinks]
  rfl

/-- The members tell of what stands at the directory and below it. -/
theorem mem_membersAt (distinct : tree.Distinct) (unlinked : tree.Unlinked)
    (hdir : tree.node? (place ++ [name]) = some .directory) (m : Member) :
    m ∈ membersAt name (tree.below (place ++ [name])) ↔ ∃ rest node, m.name = name :: rest ∧
      tree.node? (place ++ name :: rest) = some node ∧ m.TellsOf node := by
  have hplace : ∀ rest : Location, place ++ [name] ++ rest = place ++ name :: rest := by simp
  have htells : ∀ {l : Location} {node : Node}, tree.node? l = some node →
      (m.content = node.content? ↔ m.TellsOf node) := by
    intro l node hnode
    cases node with
    | link target => exact absurd hnode (unlinked l target)
    | file content => simp [Member.TellsOf, Node.content?]
    | directory => simp [Member.TellsOf, Node.content?]
  rw [membersAt, List.mem_cons, List.mem_map]
  constructor
  · rintro (rfl | ⟨⟨rest, node⟩, hm, rfl⟩)
    · exact ⟨[], _, rfl, hdir, .inl ⟨rfl, rfl⟩⟩
    · have hnode := (distinct.mem_below_iff.mp hm).2
      rw [hplace] at hnode
      exact ⟨rest, node, rfl, hnode, (htells hnode).mp rfl⟩
  · rintro ⟨rest, node, hm, hnode, htold⟩
    obtain ⟨mname, content⟩ := m
    cases hm
    obtain rfl : content = node.content? := (htells hnode).mpr htold
    by_cases hrest : rest = []
    · subst hrest
      obtain rfl := Option.some.inj (hdir.symm.trans hnode)
      exact .inl rfl
    · refine .inr ⟨(rest, node), distinct.mem_below_iff.mpr ⟨hrest, ?_⟩, rfl⟩
      rw [hplace, hnode]

/-- What stands in an ordinary tree can be stored. -/
theorem isStorable_membersAt (ordinary : tree.Ordinary) (distinct : tree.Distinct)
    (unlinked : tree.Unlinked) (hdir : tree.node? (place ++ [name]) = some .directory) :
    ∀ m ∈ membersAt name (tree.below (place ++ [name])), m.IsStorable := by
  intro m hm
  obtain ⟨rest, node, hname, hnode, htold⟩ := (mem_membersAt distinct unlinked hdir m).mp hm
  have hplace : place ++ name :: rest ≠ [] := by simp
  have hentry := mem_of_node? hplace hnode
  refine ⟨hname ▸ (ordinary.named _ hentry hplace).of_append (by simp), fun content hc => ?_⟩
  refine ordinary.small _ hentry content ?_
  obtain ⟨hnone, -⟩ | ⟨content', hsome, rfl⟩ := htold
  · cases hnone.symm.trans hc
  · exact hsome.symm.trans hc

/-- No two members have the same name. -/
theorem nodup_membersAt (distinct : tree.Distinct) (name : String) (loc : Location) :
    ((membersAt name (tree.below loc)).map (·.name)).Nodup := by
  have hnames : (membersAt name (tree.below loc)).map (·.name) =
      ([] :: (tree.below loc).map (·.1)).map (name :: ·) := by
    simp [membersAt, Function.comp_def]
  rw [hnames]
  refine List.Nodup.map (fun _ _ h => (List.cons.inj h).2) (List.nodup_cons.mpr ⟨?_, ?_⟩)
  · simp only [List.mem_map, not_exists, not_and]
    rintro ⟨rest, node⟩ hm rfl
    exact (mem_below.mp hm).1 rfl
  · exact distinct.nodup_below loc

/-- The members that are files. -/
theorem length_filterMap_content (members : List Member) :
    (members.filterMap (·.content)).length = (members.filter (·.content.isSome)).length := by
  rw [List.length_filterMap_eq_countP, List.countP_eq_length_filter]

theorem filterMap_membersAt (name : String) (entries : List (Location × Node)) :
    (membersAt name entries).filterMap (·.content) = entries.filterMap (·.2.content?) := by
  simp [membersAt, List.filterMap_map]

/-! ### Packing -/

/-- An archive does not stand at what it packs, nor below. -/
theorem place_ne (place : Location) (name : String) (rest : Location) :
    place ++ name :: rest ≠ place ++ [name ++ suffix] := by
  intro h
  have hname := congrArg String.length (List.cons.inj (List.append_cancel_left h)).1
  rw [String.length_append] at hname
  have hsuffix : 0 < suffix.length := by decide
  omega

/-- An archive may be put beside a directory: its path and its name are not too long, and no
directory stands there. -/
def MayStand (tree : FileTree) (directory name : String) (place : Location) : Prop :=
  isFilePath (pathOf directory) = true ∧ isName (name ++ suffix) = true ∧
    tree.node? (place ++ [name ++ suffix]) ≠ some .directory

instance (tree : FileTree) (directory name : String) (place : Location) :
    Decidable (MayStand tree directory name place) := inferInstanceAs (Decidable (_ ∧ _ ∧ _))

theorem components_pathOf (hname : Path.fileName? directory = some name) :
    ∃ front, Path.components directory = front ++ [.normal name] ∧
      Path.components (pathOf directory) = front ++ [.normal (name ++ suffix)] := by
  obtain ⟨-, -, -, hfree⟩ := Path.components_parent hname
  have hsuffix : Path.IsName (name ++ suffix) := Path.isName_append hfree (by decide) (by decide)
  obtain ⟨front, hpath, hother⟩ := Path.components_withFileName hname hsuffix
  refine ⟨front, hpath, ?_⟩
  rw [pathOf, hname]
  exact hother

/-- With an archive beside it, a directory has the same below it. -/
theorem below_place (tree : FileTree) (place : Location) (name : String) (node : Node) :
    (tree.set (place ++ [name ++ suffix]) node).below (place ++ [name]) =
      tree.below (place ++ [name]) := by
  refine below_set (fun ⟨rest, hrest⟩ => place_ne place name rest ?_) tree node
  rw [← hrest, List.append_assoc, List.singleton_append]

/-- **Packing a directory** comes to one file that is filled beside it. -/
theorem create_eq (format : Format) (distinct : tree.Distinct) (unlinked : tree.Unlinked)
    (hname : Path.fileName? directory = some name) (hdir : tree.hasDirectory directory = true) :
    ∃ place, tree.find (Path.components directory) = .present (place ++ [name]) ∧
      tree.node? (place ++ [name]) = some .directory ∧
      create format tree directory =
        if MayStand tree directory name place then
          match tree.fill (place ++ [name ++ suffix])
            (format.encode (membersAt name (tree.below (place ++ [name])))) with
          | (later, true) => (.ok (pathOf directory), later)
          | (later, false) => (.error .io, later)
        else (.error .io, tree) := by
  obtain ⟨-, l, hfind, hnode⟩ := hasDirectory_eq_true hdir
  obtain ⟨front, hpath, hother⟩ := components_pathOf hname
  obtain ⟨place, rfl, -⟩ := unlinked.walk_concat (hpath ▸ hfind)
  have hwrite : ∀ content, tree.writeFile (pathOf directory) content =
      if MayStand tree directory name place then tree.fill (place ++ [name ++ suffix]) content
      else (tree, false) := unlinked.writeFile_sibling hpath hother hfind
  refine ⟨place, hfind, hnode, ?_⟩
  rw [create, hdir]
  simp only [Bool.not_true, Bool.false_eq_true, if_false]
  rw [hwrite []]
  by_cases hstand : MayStand tree directory name place
  · rw [if_pos hstand, if_pos hstand]
    obtain ⟨hfile, hlong, htarget⟩ := hstand
    -- With the file of the archive in it, the tree has the same below the directory.
    have hfree := unlinked.isFree htarget
    have hempty : tree.fill (place ++ [name ++ suffix]) [] =
        (tree.set (place ++ [name ++ suffix]) (.file []), true) := by
      have hkept : tree.kept (place ++ [name ++ suffix]) [] = [] :=
        kept_of_room fun _ _ => Nat.zero_le _
      simp [fill, hkept]
    have hfound := walk_set_directory hfree [] hfind hnode
    have hagain := (unlinked.set (place ++ [name ++ suffix]) []).writeFile_sibling hpath hother
      hfound
    have hthere := node?_set_self hfree.ne_nil tree (.file [])
    rw [hempty]
    simp only
    rw [membersOf?_eq (distinct.set ..) (unlinked.set _ _) hname hfound, below_place]
    simp only
    rw [hagain, if_pos ⟨hfile, hlong, by simp [hthere]⟩, fill, set_set]
    rfl
  · rw [if_neg hstand, if_neg hstand]

/-- Where there is an archive beside a directory, both are found as before. -/
theorem find_set (unlinked : tree.Unlinked) (hname : Path.fileName? directory = some name)
    (hfind : tree.find (Path.components directory) = .present (place ++ [name]))
    (hdir : tree.node? (place ++ [name]) = some .directory)
    (hstand : MayStand tree directory name place) (content : List UInt8) :
    let later := tree.set (place ++ [name ++ suffix]) (.file content)
    later.find (Path.components directory) = .present (place ++ [name]) ∧
      later.find (Path.components (pathOf directory)) = .present (place ++ [name ++ suffix]) := by
  intro later
  have hfree := unlinked.isFree hstand.2.2
  have hfound : later.find (Path.components directory) = .present (place ++ [name]) :=
    walk_set_directory hfree content hfind hdir
  refine ⟨hfound, ?_⟩
  obtain ⟨front, hpath, hother⟩ := components_pathOf hname
  rw [hpath] at hfound
  have hlater : later.Unlinked := unlinked.set _ content
  obtain ⟨place', hplace, hleads⟩ := hlater.walk_concat hfound
  obtain ⟨rfl, -⟩ := List.append_inj' hplace rfl
  rw [hother, find, hleads, hlater.walk_name, if_pos hstand.2.1,
    node?_set_self hfree.ne_nil tree (.file content)]

/-- **Counting** finds the files among the members. -/
theorem gather_eq (hfind : tree.find (Path.components directory) = .present (place ++ [name]))
    (hdir : tree.node? (place ++ [name]) = some .directory) (hpath : directory ≠ "")
    (seconds : UInt64) :
    Statistics.gather tree directory seconds = Statistics.ofContents
      ((membersAt name (tree.below (place ++ [name]))).filterMap (·.content)) seconds := by
  rw [Statistics.gather, contents_of_directory hpath hfind hdir, filterMap_membersAt]

/-- What members are to a directory, which has a name in some place. -/
structure Lists (tree : FileTree) (directory name : String) (place : Location)
    (members : List Member) : Prop where
  /-- There is a member for the directory, for every directory below it and for every file, under
  its name and the way from there, and no other. -/
  iff : ∀ m, m ∈ members ↔ ∃ rest node, m.name = name :: rest ∧
    tree.node? (place ++ name :: rest) = some node ∧ m.TellsOf node
  nodup : (members.map (·.name)).Nodup
  /-- The archive is no member of itself. -/
  beside : ∀ m ∈ members, ∀ rest, m.name = name :: rest →
    place ++ name :: rest ≠ place ++ [name ++ suffix]
  /-- The files among the members are counted. -/
  counted : ∀ seconds, Statistics.gather tree directory seconds =
    ⟨(members.filter (·.content.isSome)).length,
      Arithmetic.sum ((members.filterMap (·.content)).map List.length), seconds⟩

/-- What a tree is once a directory is packed in a format. -/
structure Packs (format : Format) (tree later : FileTree) (directory name : String)
    (place : Location) (members : List Member) : Prop where
  /-- The archive stands beside the directory, and its file is read as the members. -/
  leads : later.find (Path.components (pathOf directory)) = .present (place ++ [name ++ suffix])
  read : (later.read? (pathOf directory)).bind format.decode? = some members
  /-- Nothing else changes. -/
  elsewhere : ∀ l, l ≠ place ++ [name ++ suffix] → later.node? l = tree.node? l
  /-- As many files are counted as before. -/
  counted : ∀ seconds,
    Statistics.gather later directory seconds = Statistics.gather tree directory seconds

/-- **What is packed is what is counted**, in whatever format archives are read back.  Only where
there is a directory anything changes, and then the file beside it.  It may not be made at all, or
its device may give out; else it is read as what the directory has. -/
theorem packed_as_counted {format : Format} (reads : format.ReadsBack) {tree : FileTree}
    (distinct : tree.Distinct) (unlinked : tree.Unlinked) (ordinary : tree.Ordinary)
    (directory : String) :
    (tree.hasDirectory directory = false →
      create format tree directory = (.error (.missingDirectory directory), tree)) ∧
    ∀ name, Path.fileName? directory = some name → tree.hasDirectory directory = true →
      ∃ place members, tree.find (Path.components directory) = .present (place ++ [name]) ∧
        Lists tree directory name place members ∧
        let beside := place ++ [name ++ suffix]
        let bytes := format.encode members
        (¬MayStand tree directory name place ∧ create format tree directory = (.error .io, tree) ∨
          MayStand tree directory name place ∧ tree.kept beside bytes ≠ bytes ∧
            create format tree directory =
              (.error .io, tree.set beside (.file (tree.kept beside bytes))) ∨
          MayStand tree directory name place ∧ tree.kept beside bytes = bytes ∧ ∃ later,
            create format tree directory = (.ok (pathOf directory), later) ∧
              Packs format tree later directory name place members) := by
  refine ⟨create_missing, fun name hname hdir => ?_⟩
  obtain ⟨hpath, -⟩ := hasDirectory_eq_true hdir
  obtain ⟨place, hfind, hnode, hcreate⟩ := create_eq format distinct unlinked hname hdir
  have hcounted : ∀ seconds, Statistics.gather tree directory seconds = _ :=
    gather_eq hfind hnode hpath
  have hstorable := isStorable_membersAt ordinary distinct unlinked hnode
  refine ⟨place, membersAt name (tree.below (place ++ [name])), hfind,
    { iff := mem_membersAt distinct unlinked hnode
      nodup := nodup_membersAt distinct name _
      beside := fun _ _ rest _ => place_ne place name rest
      counted := fun seconds => by
        rw [hcounted, Statistics.ofContents, length_filterMap_content] }, ?_⟩
  intro beside bytes
  by_cases hstand : MayStand tree directory name place
  case neg =>
    rw [if_neg hstand] at hcreate
    exact .inl ⟨hstand, hcreate⟩
  rw [if_pos hstand, fill] at hcreate
  by_cases hkept : tree.kept beside bytes = bytes
  case neg => exact .inr (.inl ⟨hstand, hkept, by simpa [beside, bytes, hkept] using hcreate⟩)
  have hfree := unlinked.isFree hstand.2.2
  obtain ⟨hfound, hleads⟩ := find_set unlinked hname hfind hnode hstand bytes
  have hthere : (tree.set beside (.file bytes)).node? beside = some (.file bytes) :=
    node?_set_self hfree.ne_nil tree _
  refine .inr (.inr ⟨hstand, hkept, tree.set beside (.file bytes), ?_, hleads, ?_,
    fun l hl => node?_set_of_ne hl tree _, fun seconds => ?_⟩)
  · rw [hcreate]
    simp [beside, bytes] at hkept ⊢
    simp [hkept]
  · rw [read?_of_find hstand.1 hleads hthere]
    exact reads _ hstorable
  · have hnode' : (tree.set beside (.file bytes)).node? (place ++ [name]) = some .directory := by
      rw [node?_set_of_ne (place_ne place name []), hnode]
    rw [hcounted, gather_eq hfound hnode' hpath, below_place]

/-- A directory with an empty directory and an empty file in it, and an old archive beside it. -/
def nested : FileTree where
  nodes := [(["d"], .directory), (["d", "a"], .directory), (["d", "a", "x.tar.gz"], .file [1, 2]),
    (["d", "e"], .directory), (["d", "f"], .file []), (["d.tar.gz"], .file [9])]
  working := []

theorem nested_unlinked : nested.Unlinked := by
  intro l target hl
  by_cases hroot : l = []
  · subst hroot
    cases hl
  · have hlinks : ∀ e ∈ nested.nodes, ∀ target, e.2 ≠ .link target := by
      simp [nested]
    exact hlinks _ (mem_of_node? hroot hl) target rfl

theorem find_nested : nested.find (Path.components "./d/") = .present ["d"] := by
  have hpath : Path.components "./d/" = [.here, .normal "d"] := by decide
  rw [find, hpath, walk, nested_unlinked.walk_name, if_pos (by decide)]
  rfl

theorem packed_as_counted_nested :
    Format.tarGz.ReadsBack ∧ nested.Distinct ∧ nested.Unlinked ∧ nested.Ordinary ∧
      Path.fileName? "./d/" = some "d" ∧ nested.hasDirectory "./d/" = true ∧
      ∃ members later, create .tarGz nested "./d/" = (.ok (pathOf "./d/"), later) ∧
        (later.read? (pathOf "./d/")).bind Format.tarGz.decode? = some members ∧
        ⟨["d", "a", "x.tar.gz"], some [1, 2]⟩ ∈ members ∧ ⟨["d", "e"], none⟩ ∈ members ∧
        Statistics.gather later "./d/" 7 = ⟨2, 2, 7⟩ := by
  have distinct : nested.Distinct := by decide
  have ordinary : nested.Ordinary := by decide
  have hname : Path.fileName? "./d/" = some "d" := by decide
  have hnode : nested.node? ["d"] = some .directory := by decide
  have hdir : nested.hasDirectory "./d/" = true := by
    rw [hasDirectory, isDirectory, find_nested]
    decide
  obtain ⟨-, hpacked⟩ :=
    packed_as_counted tarGz_readsBack distinct nested_unlinked ordinary "./d/"
  obtain ⟨place, members, hfind, hlists, hcases⟩ := hpacked "d" hname hdir
  obtain rfl : place = [] :=
    (List.append_inj' (Place.present.inj (hfind.symm.trans find_nested)) rfl).1
  obtain ⟨hstand, -⟩ | ⟨-, hshort, -⟩ | ⟨-, -, later, hcreate, hpacks⟩ := hcases
  · exact absurd (by decide) hstand
  · exact absurd rfl hshort
  · refine ⟨tarGz_readsBack, distinct, nested_unlinked, ordinary, hname, hdir, members, later,
      hcreate, hpacks.read, ?_, ?_, ?_⟩
    · exact (hlists.iff _).mpr
        ⟨["a", "x.tar.gz"], .file [1, 2], rfl, by decide, .inr ⟨_, rfl, rfl⟩⟩
    · exact (hlists.iff _).mpr ⟨["e"], .directory, rfl, by decide, .inl ⟨rfl, rfl⟩⟩
    · rw [hpacks.counted, Statistics.gather, contents_of_directory (by decide) find_nested hnode]
      decide

end Archive

end Inspection
