/-!
# Text — pieces between separators

A list cut at every occurrence of a separator, and pieces joined by one.  Cutting always gives at
least one piece, and keeps empty ones.

* `join_split`: joining the pieces gives the list back.
* `split_join`: pieces free of the separator come back from their joining.
-/

namespace Inspection.Text

/-- The pieces of a list between the occurrences of a separator. -/
def split {α : Type} [DecidableEq α] (sep : α) : List α → List (List α)
  | [] => [[]]
  | x :: xs =>
    if x = sep then [] :: split sep xs
    else match split sep xs with
      | [] => [[x]]
      | piece :: rest => (x :: piece) :: rest

/-- The pieces one after another, with a separator between two. -/
def join {α : Type} (sep : List α) : List (List α) → List α
  | [] => []
  | [piece] => piece
  | piece :: rest => piece ++ sep ++ join sep rest

theorem split_ne_nil {α : Type} [DecidableEq α] (sep : α) : ∀ xs : List α, split sep xs ≠ []
  | [] => by simp [split]
  | x :: xs => by
    simp only [split]
    split
    · simp
    · split <;> simp

theorem split_cons_sep {α : Type} [DecidableEq α] (sep : α) (xs : List α) :
    split sep (sep :: xs) = [] :: split sep xs := by
  simp [split]

theorem split_cons_ne {α : Type} [DecidableEq α] {sep x : α} (h : x ≠ sep) (xs : List α) :
    ∃ piece rest, split sep xs = piece :: rest ∧ split sep (x :: xs) = (x :: piece) :: rest := by
  cases hs : split sep xs with
  | nil => exact absurd hs (split_ne_nil sep xs)
  | cons piece rest => exact ⟨piece, rest, rfl, by simp [split, h, hs]⟩

theorem join_cons_cons {α : Type} (sep : List α) (x : α) (piece : List α) (rest : List (List α)) :
    join sep ((x :: piece) :: rest) = x :: join sep (piece :: rest) := by
  cases rest <;> simp [join]

theorem join_cons_of_ne_nil {α : Type} (sep piece : List α) {rest : List (List α)} (h : rest ≠ []) :
    join sep (piece :: rest) = piece ++ sep ++ join sep rest := by
  cases rest with
  | nil => exact absurd rfl h
  | cons => rfl

theorem join_split {α : Type} [DecidableEq α] (sep : α) (xs : List α) :
    join [sep] (split sep xs) = xs := by
  induction xs with
  | nil => rfl
  | cons x xs ih =>
    by_cases h : x = sep
    · subst h
      rw [split_cons_sep, join_cons_of_ne_nil _ _ (split_ne_nil x xs), ih]
      rfl
    · obtain ⟨piece, rest, hs, hc⟩ := split_cons_ne h xs
      rw [hc, join_cons_cons, ← hs, ih]

theorem split_append {α : Type} [DecidableEq α] (sep : α) (xs ys : List α) :
    split sep (xs ++ sep :: ys) = split sep xs ++ split sep ys := by
  induction xs with
  | nil => exact split_cons_sep sep ys
  | cons x xs ih =>
    by_cases h : x = sep
    · subst h
      rw [List.cons_append, split_cons_sep, split_cons_sep, ih, List.cons_append]
    · obtain ⟨piece, rest, hs, hc⟩ := split_cons_ne h xs
      rw [List.cons_append, split, if_neg h, ih, hs, hc]
      rfl

theorem split_of_notMem {α : Type} [DecidableEq α] {sep : α} {piece : List α} (h : sep ∉ piece) :
    split sep piece = [piece] := by
  induction piece with
  | nil => rfl
  | cons x piece ih =>
    have hx : x ≠ sep := fun e => h (by simp [e])
    have ht : sep ∉ piece := fun e => h (by simp [e])
    simp [split, hx, ih ht]

theorem split_append_sep {α : Type} [DecidableEq α] {sep : α} {piece : List α} (h : sep ∉ piece)
    (xs : List α) : split sep (piece ++ sep :: xs) = piece :: split sep xs := by
  rw [split_append, split_of_notMem h]
  rfl

theorem split_join {α : Type} [DecidableEq α] {sep : α} {pieces : List (List α)}
    (nonempty : pieces ≠ []) (free : ∀ piece ∈ pieces, sep ∉ piece) :
    split sep (join [sep] pieces) = pieces := by
  induction pieces with
  | nil => exact absurd rfl nonempty
  | cons piece rest ih =>
    cases rest with
    | nil => exact split_of_notMem (free piece (by simp))
    | cons next rest =>
      rw [join_cons_of_ne_nil _ _ (by simp), List.append_assoc, List.singleton_append,
        split_append_sep (free piece (by simp)),
        ih (by simp) (fun p hp => free p (by simp [hp]))]

/-- The pieces of a text between the occurrences of a character. -/
def pieces (sep : Char) (s : String) : List String := (split sep s.toList).map String.ofList

end Inspection.Text
