import Inspection.Proofs.Json.Sorted

/-!
# Json — values that are the same

Two values are the same if whoever looks into them finds the same everywhere.  Of a key that is
there several times the last value is found, and it cannot be seen in which order the keys are.

* `same_iff`: values are the same exactly if they are equal in order.
* `Rewording.same`: fields may change places, and one that is overwritten may be left out.
-/

namespace Inspection.Json

open Entries

/-- A step into a value. -/
inductive Step
  | item (n : Nat)
  | key (k : String)

/-- What is seen of a value without looking into it. -/
inductive Shown
  | null
  | bool (value : Bool)
  | number (value : Number)
  | string (value : String)
  | array (length : Nat)
  | object

/-- What a value shows. -/
def shown : Json → Shown
  | .null => .null
  | .bool b => .bool b
  | .number n => .number n
  | .string s => .string s
  | .array items => .array items.length
  | .object _ => .object

/-- The value that a step leads to: an item by its place, or the last value of a key. -/
def child? : Step → Json → Option Json
  | .item n, .array items => items[n]?
  | .key k, .object fs => (fs.reverse.find? (·.1 = k)).map (·.2)
  | _, _ => none

/-- What is seen where some steps lead. -/
def look : List Step → Json → Option Shown
  | [], v => some v.shown
  | step :: steps, v => (child? step v).bind (look steps)

/-- Everywhere in two values the same is seen. -/
def Same (v w : Json) : Prop := ∀ steps, look steps v = look steps w

theorem Same.symm {v w : Json} (h : Same v w) : Same w v := fun steps => (h steps).symm

theorem Same.trans {u v w : Json} (h : Same u v) (h' : Same v w) : Same u w := fun steps =>
  (h steps).trans (h' steps)

/-! ### Values in order -/

theorem shown_sorted (v : Json) : v.sorted.shown = v.shown := by
  cases v with
  | array items => rw [sorted_array, shown, List.length_map, shown]
  | _ => rfl

theorem find?_reverse_map {α β : Type} (f : α → β) (entries : List (String × α)) (k : String) :
    (entries.map fun e => (e.1, f e.2)).reverse.find? (·.1 = k) =
      (entries.reverse.find? (·.1 = k)).map fun e => (e.1, f e.2) := by
  rw [← List.map_reverse, List.find?_map]
  rfl

theorem child?_sorted (step : Step) (v : Json) :
    child? step v.sorted = (child? step v).map sorted := by
  cases step with
  | item n =>
    cases v with
    | array items => rw [sorted_array, child?, child?, List.getElem?_map]
    | _ => rfl
  | key k =>
    cases v with
    | object fs =>
      have hsort := find?_sort (sort (fs.map fun e => (e.1, e.2.sorted))) k
      rw [sort_of_ascending (ascending_sort _), find?_sort, find?_reverse_map] at hsort
      rw [sorted_object, child?, child?, ← hsort, Option.map_map, Option.map_map]
      rfl
    | _ => rfl

theorem look_sorted (steps : List Step) (v : Json) : look steps v.sorted = look steps v := by
  induction steps generalizing v with
  | nil => rw [look, look, shown_sorted]
  | cons step steps ih =>
    rw [look, look, child?_sorted, Option.bind_map]
    exact congrArg _ (funext ih)

theorem same_sorted (v : Json) : Same v v.sorted := fun steps => (look_sorted steps v).symm

theorem Same.child {v w : Json} (h : Same v w) (step : Step) :
    child? step v = none ∧ child? step w = none ∨
      ∃ v' w', child? step v = some v' ∧ child? step w = some w' ∧ Same v' w' := by
  have hlook : ∀ steps, (child? step v).bind (look steps) = (child? step w).bind (look steps) :=
    fun steps => h (step :: steps)
  cases hv : child? step v with
  | none =>
    cases hw : child? step w with
    | none => exact .inl ⟨rfl, rfl⟩
    | some w' =>
      have := hlook []
      rw [hv, hw] at this
      cases this
  | some v' =>
    cases hw : child? step w with
    | none =>
      have := hlook []
      rw [hv, hw] at this
      cases this
    | some w' =>
      refine .inr ⟨v', w', rfl, rfl, fun steps => ?_⟩
      have := hlook steps
      rwa [hv, hw] at this

theorem Same.shown_eq {v w : Json} (h : Same v w) : v.shown = w.shown := Option.some.inj (h [])

/-- **Values that are the same** are equal in order. -/
theorem Same.sorted_eq {v w : Json} (h : Same v w) : v.sorted = w.sorted := by
  induction v using induct generalizing w with
  | null | bool | number | string =>
    have hshown := h.shown_eq
    cases w <;> cases hshown
    rfl
  | array items ih =>
    have hshown := h.shown_eq
    cases w with
    | array items' =>
      have hlength : items.length = items'.length := Shown.array.inj hshown
      rw [sorted_array, sorted_array]
      refine congrArg array (List.ext_getElem (by simpa using hlength) fun n hn hn' => ?_)
      rw [List.length_map] at hn hn'
      obtain ⟨hnone, -⟩ | ⟨v, w, hv, hw, hsame⟩ := h.child (.item n)
      · exact absurd hnone (by simp [child?, hn])
      · rw [child?, List.getElem?_eq_getElem hn] at hv
        rw [child?, List.getElem?_eq_getElem hn'] at hw
        cases hv
        cases hw
        rw [List.getElem_map, List.getElem_map, ih _ (List.getElem_mem hn) hsame]
    | _ => cases hshown
  | object fs ih =>
    have hshown := h.shown_eq
    cases w with
    | object fs' =>
      rw [sorted_object, sorted_object]
      refine congrArg object (eq_of_find? (ascending_sort _) (ascending_sort _) fun k => ?_)
      rw [find?_sort, find?_sort, find?_reverse_map, find?_reverse_map]
      obtain ⟨hv, hw⟩ | ⟨v, w, hv, hw, hsame⟩ := h.child (.key k)
      · rw [child?, Option.map_eq_none_iff] at hv hw
        rw [hv, hw]
      · obtain ⟨e, he, rfl⟩ := Option.map_eq_some_iff.mp hv
        obtain ⟨e', he', rfl⟩ := Option.map_eq_some_iff.mp hw
        have hkey : e.1 = k := by simpa using List.find?_some he
        have hkey' : e'.1 = k := by simpa using List.find?_some he'
        have hmem := List.mem_reverse.mp (List.mem_of_find?_eq_some he)
        rw [he, he', Option.map_some, Option.map_some, ih e hmem hsame, hkey, hkey']
    | _ => cases hshown

/-- **Values are the same** exactly if they are equal in order. -/
theorem same_iff {v w : Json} : Same v w ↔ v.sorted = w.sorted := by
  refine ⟨Same.sorted_eq, fun h => (same_sorted v).trans ?_⟩
  rw [h]
  exact (same_sorted w).symm

/-! ### Values in other words -/

/-- One change that cannot be seen. -/
inductive Rewording : Json → Json → Prop
  /-- Two fields with different keys change places. -/
  | swap {e f : String × Json} {front back : List (String × Json)} (distinct : e.1 ≠ f.1) :
      Rewording (.object (front ++ e :: f :: back)) (.object (front ++ f :: e :: back))
  /-- A field is left out whose key comes again. -/
  | overwritten {e : String × Json} {front back : List (String × Json)}
      (again : e.1 ∈ back.map (·.1)) :
      Rewording (.object (front ++ e :: back)) (.object (front ++ back))
  /-- A change within an item. -/
  | item {v w : Json} {front back : List Json} (inner : Rewording v w) :
      Rewording (.array (front ++ v :: back)) (.array (front ++ w :: back))
  /-- A change within a field. -/
  | field {k : String} {v w : Json} {front back : List (String × Json)} (inner : Rewording v w) :
      Rewording (.object (front ++ (k, v) :: back)) (.object (front ++ (k, w) :: back))

/-- Objects with the same last value under every key are the same. -/
theorem same_object {fs fs' : List (String × Json)}
    (h : ∀ k, fs.reverse.find? (·.1 = k) = fs'.reverse.find? (·.1 = k)) :
    Same (.object fs) (.object fs') := by
  intro steps
  cases steps with
  | nil => rfl
  | cons step steps =>
    cases step with
    | item n => rfl
    | key k => rw [look, look, child?, child?, h k]

/-- **A change in other words cannot be seen.** -/
theorem Rewording.same {v w : Json} (h : Rewording v w) : Same v w := by
  induction h with
  | @swap e f front back distinct =>
    refine same_object fun k => ?_
    simp only [List.reverse_append, List.reverse_cons, List.append_assoc, List.find?_append]
    congr 1
    by_cases he : e.1 = k
    · have hf : f.1 ≠ k := fun hf => distinct (he.trans hf.symm)
      simp [he, hf]
    · simp [he]
  | @overwritten e front back again =>
    refine same_object fun k => ?_
    simp only [List.reverse_append, List.reverse_cons, List.append_assoc, List.find?_append]
    by_cases he : e.1 = k
    · subst he
      obtain ⟨f, hf, hkey⟩ := List.mem_map.mp again
      have hfound : (back.reverse.find? (·.1 = e.1)).isSome := by
        rw [List.find?_isSome]
        exact ⟨f, List.mem_reverse.mpr hf, by simpa using hkey⟩
      obtain ⟨g, hg⟩ := Option.isSome_iff_exists.mp hfound
      rw [hg, Option.some_or, Option.some_or]
    · simp [he]
  | @item v w front back _ ih =>
    rw [same_iff] at ih ⊢
    simp [sorted_array, ih]
  | @field k v w front back _ ih =>
    rw [same_iff] at ih ⊢
    simp [sorted_object, ih]

end Inspection.Json
