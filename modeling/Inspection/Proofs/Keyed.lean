import Mathlib.Data.List.Nodup
import Inspection.Keyed

/-!
# Keyed — entries in order

Putting entries in order keeps the last of each key, and forgets everything else about where they
stood.

* `find?_sort`: under each key there is the last value that was given for it.
* `eq_of_find?`: ascending entries are told apart by what they have under some key.
* `sort_eq_of_perm`, `sort_of_ascending`: distinct keys may come in any order, and ascending ones
  stay as they are.
-/

namespace Inspection

namespace Entries

variable {α : Type}

theorem find?_insert (key : String) (value : α) (k : String) :
    ∀ entries : List (String × α), (insert key value entries).find? (·.1 = k) =
      if key = k then some (key, value) else entries.find? (·.1 = k)
  | [] => by
    by_cases h : key = k <;> simp [insert, h]
  | entry :: rest => by
    have ih := find?_insert key value k rest
    rw [insert]
    split
    next => by_cases h : key = k <;> simp [h]
    next =>
      split
      next he =>
        by_cases h : key = k
        · simp [h]
        · have hentry : entry.1 ≠ k := he ▸ h
          simp [h, hentry]
      next he =>
        by_cases h : key = k
        · have hentry : entry.1 ≠ k := fun hk => he (h.trans hk.symm)
          rw [List.find?_cons_of_neg (by simpa using hentry), ih, if_pos h, if_pos h]
        · rw [if_neg h] at ih ⊢
          rw [List.find?_cons, List.find?_cons, ih]

theorem find?_foldl_insert (k : String) : ∀ (entries before : List (String × α)),
    (entries.foldl (fun sorted entry => insert entry.1 entry.2 sorted) before).find? (·.1 = k) =
      (entries.reverse.find? (·.1 = k)).or (before.find? (·.1 = k))
  | [], _ => rfl
  | entry :: rest, before => by
    rw [List.foldl_cons, find?_foldl_insert k rest, find?_insert, List.reverse_cons,
      List.find?_append, Option.or_assoc]
    congr 1
    by_cases h : entry.1 = k
    · subst h
      simp
    · simp [h]

/-- **Under each key there is the last value** that was given for it. -/
theorem find?_sort (entries : List (String × α)) (k : String) :
    (sort entries).find? (·.1 = k) = entries.reverse.find? (·.1 = k) := by
  rw [sort, find?_foldl_insert, List.find?_nil, Option.or_none]

theorem ascending_sort (entries : List (String × α)) : Ascending (sort entries) := by
  unfold sort
  suffices h : ∀ before : List (String × α), Ascending before →
      Ascending (entries.foldl (fun sorted entry => insert entry.1 entry.2 sorted) before) from
    h [] .nil
  induction entries with
  | nil => exact fun _ h => h
  | cons entry rest ih => exact fun before h => ih _ (insert_ascending h entry.1 entry.2)

theorem find?_of_mem {entries : List (String × α)} (h : Ascending entries) {entry : String × α}
    (hm : entry ∈ entries) : entries.find? (·.1 = entry.1) = some entry := by
  induction entries with
  | nil => cases hm
  | cons first rest ih =>
    obtain ⟨hfirst, hrest⟩ := List.pairwise_cons.mp h
    rcases List.mem_cons.mp hm with rfl | hm
    · simp
    · have hne : first.1 ≠ entry.1 := String.ne_of_lt (hfirst entry hm)
      rw [List.find?_cons_of_neg (by simpa using hne), ih hrest hm]

theorem mem_of_mem_sort {entries : List (String × α)} {entry : String × α}
    (hm : entry ∈ sort entries) : entry ∈ entries := by
  have hfind := find?_of_mem (ascending_sort entries) hm
  rw [find?_sort] at hfind
  exact List.mem_reverse.mp (List.mem_of_find?_eq_some hfind)

/-- **Ascending entries are the same** that have the same under every key. -/
theorem eq_of_find? : ∀ {entries others : List (String × α)}, Ascending entries →
    Ascending others → (∀ k, entries.find? (·.1 = k) = others.find? (·.1 = k)) → entries = others
  | [], [], _, _, _ => rfl
  | [], other :: others, _, _, h => by simpa using h other.1
  | entry :: entries, [], _, _, h => by simpa using h entry.1
  | entry :: entries, other :: others, he, ho, h => by
    obtain ⟨hfirst, hrest⟩ := List.pairwise_cons.mp he
    obtain ⟨hfirst', hrest'⟩ := List.pairwise_cons.mp ho
    have hmem : entry ∈ other :: others :=
      List.mem_of_find?_eq_some ((h entry.1).symm.trans (find?_of_mem he List.mem_cons_self))
    have hmem' : other ∈ entry :: entries :=
      List.mem_of_find?_eq_some ((h other.1).trans (find?_of_mem ho List.mem_cons_self))
    -- Neither of the first entries comes behind the other.
    have hsame : entry = other := by
      rcases List.mem_cons.mp hmem with rfl | hbehind
      · rfl
      · rcases List.mem_cons.mp hmem' with rfl | hbehind'
        · rfl
        · exact absurd (hfirst _ hbehind') (String.lt_asymm (hfirst' _ hbehind))
    subst hsame
    have hnone : ∀ {rest : List (String × α)}, (∀ e ∈ rest, entry.1 < e.1) →
        rest.find? (·.1 = entry.1) = none := fun hlt => by
      simpa using fun e f hm => (String.ne_of_lt (hlt (e, f) hm)).symm
    rw [eq_of_find? hrest hrest' fun k => ?_]
    by_cases hk : entry.1 = k
    · subst hk
      rw [hnone hfirst, hnone hfirst']
    · have := h k
      rwa [List.find?_cons_of_neg (by simpa using hk), List.find?_cons_of_neg (by simpa using hk)]
        at this

/-- Among distinct keys it does not matter where one stands. -/
theorem find?_eq_of_perm {entries others : List (String × α)} (perm : entries.Perm others)
    (distinct : (entries.map (·.1)).Nodup) (k : String) :
    entries.find? (·.1 = k) = others.find? (·.1 = k) := by
  cases h : entries.find? (·.1 = k) with
  | none =>
    have hnone := List.find?_eq_none.mp h
    exact (List.find?_eq_none.mpr fun e he => hnone e (perm.mem_iff.mpr he)).symm
  | some e =>
    cases h' : others.find? (·.1 = k) with
    | none => exact absurd (List.find?_some h) (List.find?_eq_none.mp h' e
        (perm.mem_iff.mp (List.mem_of_find?_eq_some h)))
    | some f =>
      have he : e.1 = k := by simpa using List.find?_some h
      have hf : f.1 = k := by simpa using List.find?_some h'
      rw [List.inj_on_of_nodup_map distinct (List.mem_of_find?_eq_some h)
        (perm.mem_iff.mpr (List.mem_of_find?_eq_some h')) (he.trans hf.symm)]

/-- **Distinct keys may come in any order.** -/
theorem sort_eq_of_perm {entries others : List (String × α)} (perm : entries.Perm others)
    (distinct : (entries.map (·.1)).Nodup) : sort entries = sort others := by
  refine eq_of_find? (ascending_sort _) (ascending_sort _) fun k => ?_
  rw [find?_sort, find?_sort]
  refine find?_eq_of_perm ((entries.reverse_perm.trans perm).trans others.reverse_perm.symm) ?_ k
  exact (entries.reverse_perm.map _).nodup_iff.mpr distinct

theorem nodup_of_ascending {entries : List (String × α)} (h : Ascending entries) :
    (entries.map (·.1)).Nodup :=
  List.pairwise_map.mpr (h.imp fun hlt => String.ne_of_lt hlt)

/-- **Ascending entries stay as they are.** -/
theorem sort_of_ascending {entries : List (String × α)} (h : Ascending entries) :
    sort entries = entries := by
  refine eq_of_find? (ascending_sort _) h fun k => ?_
  rw [find?_sort]
  exact (find?_eq_of_perm entries.reverse_perm.symm (nodup_of_ascending h) k).symm

/-- With distinct keys nothing is lost. -/
theorem sort_perm {entries : List (String × α)} (distinct : (entries.map (·.1)).Nodup) :
    (sort entries).Perm entries := by
  have hnodup : (sort entries).Nodup := (nodup_of_ascending (ascending_sort entries)).of_map
  refine (List.perm_ext_iff_of_nodup hnodup distinct.of_map).mpr fun e =>
    ⟨mem_of_mem_sort, fun hm => ?_⟩
  -- There is one entry under the key, and that is found in both.
  have hfind : (sort entries).find? (·.1 = e.1) = entries.find? (·.1 = e.1) :=
    (find?_sort entries e.1).trans (find?_eq_of_perm entries.reverse_perm.symm distinct e.1).symm
  cases he : entries.find? (·.1 = e.1) with
  | none => simpa using List.find?_eq_none.mp he e hm
  | some f =>
    have hf : f.1 = e.1 := by simpa using List.find?_some he
    rw [← List.inj_on_of_nodup_map distinct (List.mem_of_find?_eq_some he) hm hf]
    exact List.mem_of_find?_eq_some (hfind.trans he)

end Entries

namespace Keyed

variable {α : Type}

theorem entries_ofList (entries : List (String × α)) :
    (ofList entries).entries = Entries.sort entries := by
  unfold ofList Entries.sort
  suffices h : ∀ k : Keyed α, (entries.foldl (fun k entry => k.insert entry.1 entry.2) k).entries =
      entries.foldl (fun sorted entry => Entries.insert entry.1 entry.2 sorted) k.entries from
    h empty
  induction entries with
  | nil => exact fun _ => rfl
  | cons entry rest ih => exact fun k => ih (k.insert entry.1 entry.2)

theorem ofList_eq_of_perm {entries others : List (String × α)} (perm : entries.Perm others)
    (distinct : (entries.map (·.1)).Nodup) : ofList entries = ofList others := by
  have h := Entries.sort_eq_of_perm perm distinct
  rw [← entries_ofList, ← entries_ofList] at h
  cases hk : ofList entries
  cases hk' : ofList others
  rw [hk, hk'] at h
  cases h
  rfl

theorem ofList_entries (k : Keyed α) : ofList k.entries = k := by
  have h := entries_ofList k.entries
  rw [Entries.sort_of_ascending k.ascending] at h
  cases hk : ofList k.entries
  cases k
  rw [hk] at h
  cases h
  rfl

end Keyed

end Inspection
