import Mathlib.Data.List.Nodup
import Inspection.Proofs.FileTree.Rooted

/-!
# File tree — what is below a directory

In a tree that has one node at every place, the listing below a directory is what stands there: each
node once, under the names that lead to it from the directory.  A file put elsewhere does not change
it, and neither does it change which directory a path leads to.  Where there are no links, paths
that differ in their last name only lead to places in the same directory.

* `mem_below_iff`, `nodup_below`: the listing is what stands below.
* `below_set`: it does not change with what stands elsewhere.
* `Distinct.write`: writing keeps one node at every place.
* `walk_set_directory`: putting a file moves no directory.
* `walk_concat`: paths to places in the same directory.
-/

namespace Inspection.FileTree

variable {tree later : FileTree} {l m loc : Location}

/-! ### One node at every place -/

/-- At every place there is one node at most. -/
def Distinct (tree : FileTree) : Prop := (tree.nodes.map (·.1)).Nodup

instance (tree : FileTree) : Decidable tree.Distinct := inferInstanceAs (Decidable (List.Nodup _))

theorem Distinct.mem_nodes_iff (h : tree.Distinct) (hm : m ≠ []) {node : Node} :
    (m, node) ∈ tree.nodes ↔ tree.node? m = some node := by
  refine ⟨fun hmem => ?_, mem_of_node? hm⟩
  rw [node?, if_neg hm]
  cases hfind : tree.nodes.find? (·.1 = m) with
  | none => simpa using List.find?_eq_none.mp hfind _ hmem
  | some entry =>
    have hplace : entry.1 = m := by simpa using List.find?_some hfind
    rw [List.inj_on_of_nodup_map h (List.mem_of_find?_eq_some hfind) hmem hplace]
    rfl

theorem map_fst_setNode (node : Node) (nodes : List (Location × Node)) :
    (setNode l node nodes).map (·.1) = nodes.map (·.1) ∨
      l ∉ nodes.map (·.1) ∧ (setNode l node nodes).map (·.1) = nodes.map (·.1) ++ [l] := by
  induction nodes with
  | nil => exact .inr ⟨by simp, rfl⟩
  | cons entry rest ih =>
    rw [setNode]
    by_cases he : entry.1 = l
    · subst he
      exact .inl (by simp)
    · rw [if_neg he, List.map_cons, List.map_cons]
      rcases ih with hsame | ⟨hnew, hmore⟩
      · exact .inl (congrArg _ hsame)
      · exact .inr ⟨by simpa [Ne.symm he] using hnew, congrArg _ hmore⟩

theorem Distinct.set (h : tree.Distinct) (l : Location) (node : Node) :
    (tree.set l node).Distinct := by
  rw [Distinct, FileTree.set]
  rcases map_fst_setNode (l := l) node tree.nodes with hsame | ⟨hnew, hmore⟩
  · rw [hsame]
    exact h
  · rw [hmore, ← List.concat_eq_append]
    exact List.Nodup.concat hnew h

/-- **Writing keeps one node at every place**, whether or not the file is written. -/
theorem Distinct.write (h : tree.Distinct) (path : String) (content : List UInt8) :
    (tree.write path content).1.Distinct := by
  have hmade : ∀ way, (tree.makeDirectories way).1.Distinct :=
    makeDirectories_keeps (fun tree loc name h _ _ => h.set _ _) h
  obtain ⟨way, made, rfl, hno | ⟨l, -, hfill⟩⟩ := write_cases_any tree path
  · rw [hno]
    exact hmade way
  · rw [hfill]
    exact (hmade way).set l _

/-! ### The listing below a place -/

/-- What the listing below a place has of an entry. -/
theorem entry_below {place rest : Location} {node found : Node} :
    (if loc.isPrefixOf place ∧ place ≠ loc then some (place.drop loc.length, node) else none) =
        some (rest, found) ↔ rest ≠ [] ∧ place = loc ++ rest ∧ node = found := by
  constructor
  · intro h
    split at h
    next hcond =>
      obtain ⟨hbegins, hne⟩ := hcond
      obtain ⟨more, rfl⟩ := List.isPrefixOf_iff_prefix.mp hbegins
      rw [List.drop_left] at h
      cases h
      exact ⟨fun hnil => hne (by rw [hnil, List.append_nil]), rfl, rfl⟩
    next => cases h
  · rintro ⟨hne, rfl, rfl⟩
    rw [if_pos ⟨List.isPrefixOf_iff_prefix.mpr (List.prefix_append _ _), by simpa using hne⟩,
      List.drop_left]

theorem mem_below {rest : Location} {node : Node} :
    (rest, node) ∈ tree.below loc ↔ rest ≠ [] ∧ (loc ++ rest, node) ∈ tree.nodes := by
  rw [below, List.mem_filterMap]
  constructor
  · rintro ⟨⟨place, found⟩, hm, h⟩
    obtain ⟨hne, rfl, rfl⟩ := entry_below.mp h
    exact ⟨hne, hm⟩
  · rintro ⟨hne, hm⟩
    exact ⟨_, hm, entry_below.mpr ⟨hne, rfl, rfl⟩⟩

/-- **The listing below a place** is what stands below it. -/
theorem Distinct.mem_below_iff (h : tree.Distinct) {rest : Location} {node : Node} :
    (rest, node) ∈ tree.below loc ↔ rest ≠ [] ∧ tree.node? (loc ++ rest) = some node := by
  rw [mem_below]
  refine and_congr_right fun hne => h.mem_nodes_iff ?_
  simp [hne]

/-- Nothing is listed twice. -/
theorem Distinct.nodup_below (h : tree.Distinct) (loc : Location) :
    ((tree.below loc).map (·.1)).Nodup := by
  rw [List.Nodup, List.pairwise_map, below, List.pairwise_filterMap]
  refine (List.pairwise_map.mp h).imp ?_
  rintro ⟨place, node⟩ ⟨place', node'⟩ hne ⟨rest, found⟩ hrest ⟨rest', found'⟩ hrest' he
  obtain ⟨-, rfl, -⟩ := entry_below.mp hrest
  obtain ⟨-, rfl, -⟩ := entry_below.mp hrest'
  exact hne (congrArg (loc ++ ·) he)

theorem filterMap_setNode {β : Type} {f : Location × Node → Option β}
    (h : ∀ node, f (l, node) = none) (node : Node) (nodes : List (Location × Node)) :
    (setNode l node nodes).filterMap f = nodes.filterMap f := by
  induction nodes with
  | nil => rw [setNode, List.filterMap_cons_none (h node)]
  | cons entry rest ih =>
    rw [setNode]
    split
    next he =>
      obtain ⟨_, old⟩ := entry
      cases he
      rw [List.filterMap_cons_none (h node), List.filterMap_cons_none (h old)]
    next => rw [List.filterMap_cons, List.filterMap_cons, ih]

/-- **What stands elsewhere** does not change the listing. -/
theorem below_set (h : ¬loc <+: l) (tree : FileTree) (node : Node) :
    (tree.set l node).below loc = tree.below loc := by
  refine filterMap_setNode (fun node => if_neg fun hcond => h ?_) node tree.nodes
  exact List.isPrefixOf_iff_prefix.mp hcond.1

/-! ### Paths to directories -/

theorem isDirectory_eq_true {path : List Component} : tree.isDirectory path = true ↔
    ∃ l, tree.find path = .present l ∧ tree.node? l = some .directory := by
  unfold isDirectory
  constructor
  · intro h
    split at h
    next l hfind => exact ⟨l, hfind, of_decide_eq_true h⟩
    next => cases h
  · rintro ⟨l, hfind, hnode⟩
    rw [hfind]
    exact decide_eq_true hnode

/-- A path to a directory leads there as before where directories and links stay. -/
theorem walk_of_keeps
    (hkeep : ∀ {m : Location} {node : Node}, tree.node? m = some node →
      (∀ content, node ≠ .file content) → later.node? m = some node)
    {links : Nat} {path : List Component} (h : walk tree links loc path = .present m)
    (hm : tree.node? m = some .directory) : walk later links loc path = .present m := by
  fun_induction walk tree links loc path with
  | case1 =>
    cases h
    rw [walk]
  | case2 _ _ _ ih | case3 _ _ _ ih | case4 _ _ _ ih =>
    rw [walk]
    exact ih h
  | case8 _ _ _ _ hname hnode ih =>
    rw [walk, if_neg hname, hkeep hnode (by simp)]
    exact ih h
  | case12 _ _ _ hname _ hnode _ ih =>
    rw [walk, if_neg hname, hkeep hnode (by simp)]
    exact ih h
  | case9 _ _ _ _ _ _ hnode =>
    cases h
    rw [hnode] at hm
    cases hm
  | case5 | case6 | case7 | case10 | case11 => cases h

/-- **Putting a file moves no directory**: where it takes the place of a file or of nothing, a path
that leads to a directory leads there as before. -/
theorem walk_set_directory (hfree : IsFree tree l) (content : List UInt8) {links : Nat}
    {path : List Component} (h : walk tree links loc path = .present m)
    (hm : tree.node? m = some .directory) :
    walk (tree.set l (.file content)) links loc path = .present m :=
  walk_of_keeps (fun hm hnode => hfree.node?_set content hm hnode) h hm

/-! ### Paths to places in the same directory -/

/-- There are no links. -/
def Unlinked (tree : FileTree) : Prop := ∀ l target, tree.node? l ≠ some (.link target)

/-- Where there are no links, one name leads to its place. -/
theorem Unlinked.walk_name (h : tree.Unlinked) (links : Nat) (loc : Location) (name : String) :
    walk tree links loc [.normal name] =
      if isName name then
        match tree.node? (loc ++ [name]) with
        | none => .absent (loc ++ [name])
        | some _ => .present (loc ++ [name])
      else .refused := by
  rw [walk]
  cases isName name with
  | false => rfl
  | true =>
    cases hnode : tree.node? (loc ++ [name]) with
    | none => rfl
    | some node =>
      cases node with
      | link target => exact absurd hnode (h _ target)
      | file content => rfl
      | directory =>
        simp only [Bool.not_true, Bool.false_eq_true, if_false, if_true]
        rw [walk]

/-- **Paths that differ in their last name** lead to places in the same directory. -/
theorem Unlinked.walk_concat (h : tree.Unlinked) {links : Nat} {front : List Component}
    {name : String} (hw : walk tree links loc (front ++ [.normal name]) = .present l) :
    ∃ place, l = place ++ [name] ∧ ∀ other,
      walk tree links loc (front ++ [.normal other]) = walk tree links place [.normal other] := by
  induction front generalizing loc with
  | nil =>
    refine ⟨loc, ?_, fun _ => rfl⟩
    rw [List.nil_append, h.walk_name] at hw
    split at hw
    · split at hw
      · cases hw
      · exact (Place.present.inj hw).symm
    · cases hw
  | cons c front ih =>
    rw [List.cons_append] at hw
    cases c with
    | root | here | up =>
      rw [walk] at hw
      obtain ⟨place, hl, hplace⟩ := ih hw
      refine ⟨place, hl, fun other => ?_⟩
      rw [List.cons_append, walk, hplace]
    | normal first =>
      have hrest : ∀ other, (front ++ [Component.normal other]).isEmpty = false := by simp
      rw [walk] at hw
      split at hw
      · cases hw
      next hname =>
        cases hnode : tree.node? (loc ++ [first]) with
        | none => simp [hnode] at hw
        | some node =>
          cases node with
          | link target => exact absurd hnode (h _ target)
          | file content => simp [hnode] at hw
          | directory =>
            rw [hnode] at hw
            obtain ⟨place, hl, hplace⟩ := ih hw
            refine ⟨place, hl, fun other => ?_⟩
            rw [List.cons_append, walk, if_neg hname, hnode]
            exact hplace other

end Inspection.FileTree
