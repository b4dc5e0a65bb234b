import Inspection.Proofs.FileTree.Write
import Inspection.Proofs.Path

/-!
# Path — what stands beside

A path that ends in a name is a directory and that name, whatever slashes and dots stand between its
components and behind them.  Another name put in the place of the last one stands in the same
directory.

* `components_parent`: the components of a path are those of its parent and the name.
* `components_withFileName`: another name takes the place of the last one.
-/

namespace Inspection.Path

/-! ### Texts by their pieces -/

theorem pieces_eq_marked (path : String) : pieces path = marked (Text.split '/' path.toList) := rfl

theorem marked_take (n : Nat) (ps : List (List Char)) : marked (ps.take n) = (marked ps).take n := by
  cases ps with
  | nil => rw [List.take_nil, marked, List.take_nil]
  | cons first rest =>
    cases n with
    | zero => rfl
    | succ n => simp [marked, List.map_take]

/-- The pieces of a path are marked in the same way without those behind them. -/
theorem marked_map_snd {path : String} {front : List (Bool × List Char)} (h : front <+: pieces path) :
    marked (front.map (·.2)) = front := by
  rw [List.prefix_iff_eq_take.mp h, List.map_take, map_snd_pieces, marked_take, ← pieces_eq_marked]

/-- A path is absolute if its first piece is empty and others follow. -/
theorem isAbsolute_iff (path : String) :
    isAbsolute path = true ↔ ∃ rest, rest ≠ [] ∧ Text.split '/' path.toList = [] :: rest := by
  rw [isAbsolute, decide_eq_true_eq]
  cases path.toList with
  | nil => simp [Text.split]
  | cons c cs =>
    by_cases hc : c = '/'
    · subst hc
      simpa using ⟨_, Text.split_ne_nil '/' cs, Text.split_cons_sep '/' cs⟩
    · obtain ⟨piece, rest, -, hs⟩ := Text.split_cons_ne hc cs
      simp [hs, hc]

/-- The text of the first pieces of a path has these pieces. -/
theorem pieces_join {path : String} {front : List (Bool × List Char)} (hne : front ≠ [])
    (h : front <+: pieces path) :
    pieces (String.ofList (Text.join ['/'] (front.map (·.2)))) = front := by
  have hfree : ∀ piece ∈ front.map (·.2), '/' ∉ piece := by
    intro piece hm
    have hmem := (h.map (·.2)).subset hm
    rw [map_snd_pieces] at hmem
    exact Text.notMem_of_mem_split hmem
  rw [pieces_eq_marked, String.toList_ofList, Text.split_join (by simpa using hne) hfree,
    marked_map_snd h]

/-- The text of the first pieces of a path begins at the root where the path does, if there is a
component among them and more pieces follow. -/
theorem isAbsolute_join {path : String} {front behind : List (Bool × List Char)}
    (h : pieces path = front ++ behind) (hb : behind ≠ []) (hc : ∃ piece, (true, piece) ∈ front) :
    isAbsolute (String.ofList (Text.join ['/'] (front.map (·.2)))) = isAbsolute path := by
  obtain ⟨piece, hm⟩ := hc
  have hne : front ≠ [] := List.ne_nil_of_mem hm
  have hfront := pieces_join hne ⟨behind, h.symm⟩
  rw [Bool.eq_iff_iff, isAbsolute_iff, isAbsolute_iff, ← map_snd_pieces, ← map_snd_pieces, hfront, h]
  obtain ⟨first, rest, rfl⟩ := List.exists_cons_of_ne_nil hne
  constructor
  · rintro ⟨more, -, hmore⟩
    refine ⟨rest.map (·.2) ++ behind.map (·.2), by simp [hb], ?_⟩
    rw [List.map_append, hmore, ← (List.cons.inj hmore).2]
    rfl
  · rintro ⟨more, -, hmore⟩
    rw [List.map_append, List.map_cons, List.cons_append] at hmore
    refine ⟨rest.map (·.2), fun hnil => ?_, by rw [List.map_cons, (List.cons.inj hmore).1]⟩
    -- An empty piece at the front is no component.
    obtain rfl : rest = [] := List.map_eq_nil_iff.mp hnil
    rw [List.mem_singleton] at hm
    have hfirst := (List.cons.inj hmore).1
    subst hm
    have hmarked : marked (List.map (·.2) [(true, piece)]) = [(true, piece)] :=
      marked_map_snd ⟨behind, h.symm⟩
    rw [List.map_singleton, hfirst] at hmarked
    cases hmarked

/-! ### The last component -/

/-- Pieces up to the next component. -/
theorem filter_takeWhile (ps : List (Bool × List Char)) :
    (ps.takeWhile (!·.1)).filter (·.1) = [] := by
  rw [List.filter_eq_nil_iff]
  intro p hp
  simpa using List.all_eq_true.mp List.all_takeWhile p hp

/-- What follows them begins with a component. -/
theorem fst_of_dropWhile {ps rest : List (Bool × List Char)} {p : Bool × List Char}
    (h : ps.dropWhile (!·.1) = p :: rest) : p.1 = true := by
  have hhead := List.head?_dropWhile_not (fun p : Bool × List Char => !p.1) ps
  rw [h] at hhead
  simpa using hhead

theorem eq_of_component {piece : List Char} {name : String} (h : component piece = .normal name) :
    name.toList = piece := by
  unfold component at h
  split at h
  · cases h
  · split at h
    · cases h
    · rw [← Component.normal.inj h, String.toList_ofList]

/-- The pieces of a path by its last component. -/
theorem pieces_of_backward {path : String} {last : Bool × List Char}
    {before : List (Bool × List Char)} (h : backward path = last :: before) :
    (∃ behind, behind ≠ [] ∧ pieces path = before.reverse ++ behind) ∧
      (pieces path).filter (·.1) = before.reverse.filter (·.1) ++ [last] := by
  have hsplit := List.takeWhile_append_dropWhile (p := fun p : Bool × List Char => !p.1)
    (l := (pieces path).reverse)
  rw [← backward, h] at hsplit
  have hpieces := congrArg List.reverse hsplit
  rw [List.reverse_reverse, List.reverse_append, List.reverse_cons, List.append_assoc] at hpieces
  refine ⟨⟨_, by simp, hpieces.symm⟩, ?_⟩
  rw [← hpieces, List.filter_append, List.filter_append, List.filter_reverse (l := List.takeWhile ..),
    filter_takeWhile]
  simp [fst_of_dropWhile h]

/-- The components of the parent are those of the pieces before the last component. -/
theorem components_of_parent {path : String} {last : Bool × List Char}
    {before : List (Bool × List Char)} (h : backward path = last :: before) :
    ∃ parent, parent? path = some parent ∧
      components parent = (if isAbsolute path then [.root] else []) ++
        (before.reverse.filter (·.1)).map fun piece => component piece.2 := by
  obtain ⟨⟨behind, hne, hpieces⟩, -⟩ := pieces_of_backward h
  have hsplit := List.takeWhile_append_dropWhile (p := fun p : Bool × List Char => !p.1)
    (l := before)
  unfold parent?
  rw [h]
  simp only
  cases hdrop : before.dropWhile (!·.1) with
  | nil =>
    rw [hdrop, List.append_nil] at hsplit
    refine ⟨_, rfl, ?_⟩
    rw [← hsplit, List.filter_reverse, filter_takeWhile]
    cases isAbsolute path <;> rfl
  | cons next kept =>
    rw [hdrop] at hsplit
    have hfront : pieces path =
        (next :: kept).reverse ++ ((before.takeWhile (!·.1)).reverse ++ behind) := by
      rw [hpieces, ← List.append_assoc, ← List.reverse_append, hsplit]
    have habsolute := isAbsolute_join hfront (by simp [hne])
      ⟨next.2, by rw [← fst_of_dropWhile hdrop]; simp⟩
    refine ⟨_, rfl, ?_⟩
    rw [components, habsolute, pieces_join (by simp) ⟨_, hfront.symm⟩, ← hsplit,
      List.reverse_append, List.filter_append, List.filter_reverse (l := List.takeWhile ..),
      filter_takeWhile]
    simp

/-- **A path that ends in a name** is its parent and that name. -/
theorem components_parent {path name : String} (h : fileName? path = some name) :
    ∃ parent, parent? path = some parent ∧
      components path = components parent ++ [.normal name] ∧ '/' ∉ name.toList := by
  unfold fileName? at h
  split at h
  next => cases h
  next b piece before hback =>
    have hpiece : component piece = .normal name := by
      split at h
      next hc =>
        cases h
        exact hc
      next => cases h
    obtain ⟨-, hfilter⟩ := pieces_of_backward hback
    obtain ⟨parent, hparent, hcomponents⟩ := components_of_parent hback
    have hmem : piece ∈ (pieces path).map (·.2) := List.mem_map_of_mem (f := (·.2))
      (List.mem_of_mem_filter (hfilter ▸ List.mem_append_right _ List.mem_cons_self))
    rw [map_snd_pieces] at hmem
    refine ⟨parent, hparent, ?_, eq_of_component hpiece ▸ Text.notMem_of_mem_split hmem⟩
    rw [hcomponents, components, hfilter, List.map_append, List.map_singleton, hpiece,
      List.append_assoc]

/-- **Another name** takes the place of the last one. -/
theorem components_withFileName {path name : String} (h : fileName? path = some name)
    {other : String} (ho : IsName other) :
    ∃ front, components path = front ++ [.normal name] ∧
      components (withFileName path other) = front ++ [.normal other] := by
  obtain ⟨parent, hparent, hpath, -⟩ := components_parent h
  refine ⟨_, hpath, ?_⟩
  rw [withFileName, h, hparent]
  exact components_join_name parent ho

end Inspection.Path
