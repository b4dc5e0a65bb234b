import Inspection.Text.Blank
import Inspection.Text.Split

/-!
# Text — texts cut and trimmed

What `Text.split` tells of lists holds of texts: pieces are free of the separator, their joining is
the text, and pieces that are free of it come back.  Trimming a text again changes nothing.

* `pieces_intercalate`: pieces come back from their joining.
* `trim_trim`: a text that was trimmed has no blank at its ends.
-/

namespace Inspection.Text

theorem join_eq_intercalate {α : Type} (sep : List α) :
    ∀ pieces : List (List α), join sep pieces = sep.intercalate pieces
  | [] => rfl
  | [piece] => by simp [join, List.intercalate]
  | piece :: next :: rest => by
    rw [join_cons_of_ne_nil sep piece (by simp), join_eq_intercalate sep (next :: rest)]
    simp [List.intercalate]

/-- Behind the first piece, every other one follows a separator. -/
theorem join_cons_eq_append {α : Type} (sep : α) (piece : List α) (rest : List (List α)) :
    join [sep] (piece :: rest) = piece ++ rest.flatMap (sep :: ·) := by
  induction rest generalizing piece with
  | nil => simp [join]
  | cons next rest ih =>
    rw [join_cons_of_ne_nil _ _ (by simp), ih next, List.flatMap_cons]
    simp

theorem prefix_join {α : Type} (sep : α) {pieces whole : List (List α)} (h : pieces <+: whole) :
    join [sep] pieces <+: join [sep] whole := by
  obtain ⟨more, rfl⟩ := h
  cases pieces with
  | nil => exact List.nil_prefix
  | cons piece rest =>
    rw [List.cons_append, join_cons_eq_append, join_cons_eq_append, List.flatMap_append,
      ← List.append_assoc]
    exact List.prefix_append _ _

section

variable {α : Type} [DecidableEq α]

/-- Pieces have the elements of the whole but the separator. -/
theorem mem_of_mem_split {sep : α} {piece : List α} {x : α} :
    ∀ {xs : List α}, piece ∈ split sep xs → x ∈ piece → x ∈ xs ∧ x ≠ sep
  | [], h, hx => by
    rw [split, List.mem_singleton] at h
    rw [h] at hx
    cases hx
  | y :: ys, h, hx => by
    by_cases hy : y = sep
    · subst hy
      rw [split_cons_sep, List.mem_cons] at h
      rcases h with rfl | h
      · cases hx
      · exact (mem_of_mem_split h hx).imp_left (List.mem_cons_of_mem _)
    · obtain ⟨first, rest, hs, hc⟩ := split_cons_ne hy ys
      have hmem : ∀ {p}, p ∈ first :: rest → x ∈ p → x ∈ y :: ys ∧ x ≠ sep := fun hp hm =>
        (mem_of_mem_split (hs ▸ hp) hm).imp_left (List.mem_cons_of_mem _)
      rw [hc, List.mem_cons] at h
      rcases h with rfl | h
      · rcases List.mem_cons.mp hx with rfl | hx
        · exact ⟨List.mem_cons_self, hy⟩
        · exact hmem List.mem_cons_self hx
      · exact hmem (List.mem_cons_of_mem _ h) hx

/-- An element that is no separator is in a piece. -/
theorem exists_mem_split {sep x : α} {xs : List α} (h : x ∈ xs)
    (hx : x ≠ sep) : ∃ piece ∈ split sep xs, x ∈ piece := by
  rw [← join_split sep xs] at h
  cases hs : split sep xs with
  | nil => exact absurd hs (split_ne_nil sep xs)
  | cons piece rest =>
    rw [hs, join_cons_eq_append, List.mem_append, List.mem_flatMap] at h
    rcases h with h | ⟨next, hn, h⟩
    · exact ⟨piece, List.mem_cons_self, h⟩
    · exact ⟨next, List.mem_cons_of_mem _ hn, (List.mem_cons.mp h).resolve_left hx⟩
theorem notMem_of_mem_split {sep : α} {piece xs : List α} (h : piece ∈ split sep xs) :
    sep ∉ piece := fun hs => (mem_of_mem_split h hs).2 rfl

/-- The first piece is what stands before the first separator. -/
theorem split_eq_takeWhile_cons (sep : α) :
    ∀ xs : List α, ∃ rest, split sep xs = xs.takeWhile (· ≠ sep) :: rest
  | [] => ⟨[], rfl⟩
  | x :: xs => by
    by_cases hx : x = sep
    · exact ⟨split sep xs, by simp [split, hx]⟩
    · obtain ⟨rest, hr⟩ := split_eq_takeWhile_cons sep xs
      exact ⟨rest, by simp [split, hx, hr]⟩

end

/-! ### Pieces of texts -/

theorem notMem_of_mem_pieces {sep : Char} {s piece : String} (h : piece ∈ pieces sep s) :
    sep ∉ piece.toList := by
  obtain ⟨cs, hcs, rfl⟩ := List.mem_map.mp h
  rw [String.toList_ofList]
  exact notMem_of_mem_split hcs

theorem pieces_ne_nil (sep : Char) (s : String) : pieces sep s ≠ [] :=
  fun h => split_ne_nil sep s.toList (List.map_eq_nil_iff.mp h)

theorem toList_intercalate (sep : Char) (ps : List String) :
    (String.intercalate (String.singleton sep) ps).toList = join [sep] (ps.map String.toList) := by
  rw [String.toList_intercalate, join_eq_intercalate, String.toList_singleton]

theorem intercalate_pieces (sep : Char) (s : String) :
    String.intercalate (String.singleton sep) (pieces sep s) = s := by
  apply String.toList_injective
  have hcs : (pieces sep s).map String.toList = split sep s.toList := by
    simp [pieces, List.map_map, Function.comp_def]
  rw [toList_intercalate, hcs, join_split]

/-- **Pieces come back** from their joining, if they are free of the separator. -/
theorem pieces_intercalate {sep : Char} {ps : List String} (nonempty : ps ≠ [])
    (free : ∀ p ∈ ps, sep ∉ p.toList) :
    pieces sep (String.intercalate (String.singleton sep) ps) = ps := by
  rw [pieces, toList_intercalate, split_join (by simpa using nonempty) (by simpa using free)]
  simp [List.map_map, Function.comp_def]

/-! ### Trimmed texts -/

section

variable {α : Type} {drop : α → Bool}

theorem head?_dropWhile {xs : List α} {x : α} (h : x ∈ (xs.dropWhile drop).head?) :
    drop x = false := by
  have hnot := List.head?_dropWhile_not drop xs
  rw [Option.mem_def.mp h] at hnot
  simpa using hnot

/-- What is left of a list is the beginning of what its first blanks leave. -/
theorem trimWhere_begins (xs : List α) : trimWhere drop xs <+: xs.dropWhile drop := by
  have hsuffix := List.dropWhile_suffix drop (l := (xs.dropWhile drop).reverse)
  simpa [trimWhere] using List.reverse_prefix.mpr hsuffix

theorem trimWhere_trimWhere (xs : List α) :
    trimWhere drop (trimWhere drop xs) = trimWhere drop xs := by
  refine trimWhere_eq_self (fun x hx => ?_) fun x hx => ?_
  · -- The first element is the first one that was not dropped.
    obtain ⟨more, hmore⟩ : trimWhere drop xs <+: xs.dropWhile drop := trimWhere_begins xs
    have hhead : x ∈ (xs.dropWhile drop).head? := by
      rw [← hmore, List.head?_append, Option.mem_def.mp hx]
      rfl
    exact head?_dropWhile hhead
  · rw [trimWhere, List.getLast?_reverse] at hx
    exact head?_dropWhile hx

theorem mem_of_mem_trimWhere {xs : List α} {x : α} (h : x ∈ trimWhere drop xs) : x ∈ xs :=
  (List.dropWhile_suffix drop).subset ((trimWhere_begins xs).subset h)

end

theorem trim_trim (s : String) : trim (trim s) = trim s := by
  simp only [trim, String.toList_ofList, trimWhere_trimWhere]

theorem mem_of_mem_trim {s : String} {c : Char} (h : c ∈ (trim s).toList) : c ∈ s.toList := by
  rw [trim, String.toList_ofList] at h
  exact mem_of_mem_trimWhere h

end Inspection.Text
