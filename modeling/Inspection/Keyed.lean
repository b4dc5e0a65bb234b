/-!
# Keyed

Values under texts, in the order of the texts.  Every key has one value: a later value takes the
place of an earlier one.
-/

namespace Inspection

namespace Entries

variable {α : Type}

/-- Puts a value at its place in an ascending list, over an earlier one of its key. -/
def insert (key : String) (value : α) : List (String × α) → List (String × α)
  | [] => [(key, value)]
  | entry :: rest =>
    if key < entry.1 then (key, value) :: entry :: rest
    else if key = entry.1 then (key, value) :: rest
    else entry :: insert key value rest

/-- The entries in the order of their keys, the last of each key. -/
def sort (entries : List (String × α)) : List (String × α) :=
  entries.foldl (fun sorted entry => insert entry.1 entry.2 sorted) []

/-- Keys ascend strictly. -/
def Ascending (entries : List (String × α)) : Prop := entries.Pairwise (·.1 < ·.1)

theorem lt_of_not_lt {a b : String} (h : ¬a < b) (ne : a ≠ b) : b < a := by
  refine Decidable.byContradiction fun back => ne ?_
  exact String.le_antisymm (String.not_lt.mp back) (String.not_lt.mp h)

theorem mem_insert {key : String} {value : α} {entries : List (String × α)} {entry : String × α}
    (h : entry ∈ insert key value entries) : entry = (key, value) ∨ entry ∈ entries := by
  induction entries with
  | nil => simpa [insert] using h
  | cons first rest ih =>
    simp only [insert] at h
    split at h
    · simpa using h
    · split at h
      · rcases List.mem_cons.mp h with h | h
        · exact .inl h
        · exact .inr (List.mem_cons_of_mem _ h)
      · rcases List.mem_cons.mp h with h | h
        · exact .inr (h ▸ List.mem_cons_self)
        · rcases ih h with h | h
          · exact .inl h
          · exact .inr (List.mem_cons_of_mem _ h)

theorem insert_ascending {entries : List (String × α)} (h : Ascending entries) (key : String)
    (value : α) : Ascending (insert key value entries) := by
  induction entries with
  | nil => exact List.pairwise_singleton _ _
  | cons first rest ih =>
    have below := (List.pairwise_cons.mp h).1
    have tail := (List.pairwise_cons.mp h).2
    simp only [insert]
    split
    · rename_i lt
      refine List.pairwise_cons.mpr ⟨?_, h⟩
      intro entry mem
      rcases List.mem_cons.mp mem with rfl | mem
      · exact lt
      · exact String.lt_trans lt (below entry mem)
    · split
      · rename_i eq
        exact List.pairwise_cons.mpr ⟨fun entry mem => eq ▸ below entry mem, tail⟩
      · rename_i notLt ne
        refine List.pairwise_cons.mpr ⟨?_, ih tail⟩
        intro entry mem
        rcases mem_insert mem with rfl | mem
        · exact lt_of_not_lt notLt ne
        · exact below entry mem

end Entries

/-- Values under ascending keys. -/
structure Keyed (α : Type) where
  entries : List (String × α)
  ascending : Entries.Ascending entries

namespace Keyed

variable {α : Type}

/-- No value at all. -/
def empty : Keyed α := ⟨[], List.Pairwise.nil⟩

/-- Puts a value under a key. -/
def insert (k : Keyed α) (key : String) (value : α) : Keyed α :=
  ⟨Entries.insert key value k.entries, Entries.insert_ascending k.ascending key value⟩

/-- The value under a key. -/
def find? (k : Keyed α) (key : String) : Option α :=
  (k.entries.find? (·.1 = key)).map (·.2)

/-- The values, in the order of their keys. -/
def values (k : Keyed α) : List α := k.entries.map (·.2)

/-- The keys, ascending. -/
def keys (k : Keyed α) : List String := k.entries.map (·.1)

/-- Insertion of every entry of a list, one after another. -/
def ofList (entries : List (String × α)) : Keyed α :=
  entries.foldl (fun k entry => k.insert entry.1 entry.2) empty

end Keyed

end Inspection
