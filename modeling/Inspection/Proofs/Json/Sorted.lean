import Inspection.Proofs.Json.Kept
import Inspection.Sink

/-!
# Json — values with their fields in order

A value that is read has the fields of every object in the order of their keys.  If the keys are
distinct, as those of a record are, that is the same value in other words.

* `induct`: induction over values, from the inside out.
* `sorted_sorted`: in order it stays in order.
* `tidy_of_spelled`: a document over several lines is that of the value in order.
* `Respelled.sorted_record`: a record in order is the record in other words.
-/

namespace Inspection.Json

open Entries

/-! ### Values from the inside out -/

/-- What holds of a value if it holds of everything within it holds of all values. -/
@[elab_as_elim]
theorem induct {motive : Json → Prop} (null : motive .null) (bool : ∀ b, motive (.bool b))
    (number : ∀ n, motive (.number n)) (string : ∀ s, motive (.string s))
    (array : ∀ items, (∀ v ∈ items, motive v) → motive (.array items))
    (object : ∀ fs, (∀ e ∈ fs, motive e.2) → motive (.object fs)) (v : Json) : motive v :=
  @Json.rec motive (fun items => ∀ v ∈ items, motive v) (fun fs => ∀ e ∈ fs, motive e.2)
    (fun e => motive e.2) null bool number string array object
    nofun (fun _ _ hv hrest => List.forall_mem_cons.mpr ⟨hv, hrest⟩)
    nofun (fun _ _ he hrest => List.forall_mem_cons.mpr ⟨he, hrest⟩) (fun _ _ hv => hv) v

/-! ### Order -/

@[simp]
theorem sortedItems_eq_map (items : List Json) : sortedItems items = items.map sorted := by
  induction items with
  | nil => rfl
  | cons item rest ih => rw [sortedItems, ih, List.map_cons]

@[simp]
theorem sortedFields_eq_map (fs : List (String × Json)) :
    sortedFields fs = fs.map fun e => (e.1, e.2.sorted) := by
  induction fs with
  | nil => rfl
  | cons e rest ih => rw [sortedFields, ih, List.map_cons]

theorem sorted_array (items : List Json) : (array items).sorted = .array (items.map sorted) := by
  rw [sorted, sortedItems_eq_map]

theorem sorted_object (fs : List (String × Json)) :
    (object fs).sorted = .object (sort (fs.map fun e => (e.1, e.2.sorted))) := by
  rw [sorted, sortedFields_eq_map]

/-- What is in order comes from what is not. -/
theorem exists_of_mem_sort {fs : List (String × Json)} {e : String × Json}
    (h : e ∈ sort (fs.map fun e => (e.1, e.2.sorted))) : ∃ f ∈ fs, (f.1, f.2.sorted) = e :=
  List.mem_map.mp (mem_of_mem_sort h)

theorem map_sorted_eq_self {fs : List (String × Json)} (h : ∀ e ∈ fs, e.2.sorted = e.2) :
    fs.map (fun e => (e.1, e.2.sorted)) = fs := by
  induction fs with
  | nil => rfl
  | cons e rest ih =>
    obtain ⟨he, hrest⟩ := List.forall_mem_cons.mp h
    rw [List.map_cons, he, ih hrest]

/-- **In order it stays in order.** -/
theorem sorted_sorted (v : Json) : v.sorted.sorted = v.sorted := by
  induction v using induct with
  | null | bool | number | string => rfl
  | array items ih =>
    rw [sorted_array, sorted_array, List.map_map]
    exact congrArg array (List.map_congr_left ih)
  | object fs ih =>
    have hfields : ∀ e ∈ sort (fs.map fun e => (e.1, e.2.sorted)), e.2.sorted = e.2 := by
      intro e he
      obtain ⟨f, hf, rfl⟩ := exists_of_mem_sort he
      exact ih f hf
    rw [sorted_object, sorted_object, map_sorted_eq_self hfields,
      sort_of_ascending (ascending_sort _)]

theorem inWords_sorted {v : Json} : v.InWords → v.sorted.InWords := by
  induction v using induct with
  | null | bool | number | string => exact id
  | array items ih =>
    intro h
    rw [sorted_array, inWords_array]
    exact List.forall_mem_map.mpr fun v hv => ih v hv (inWords_array.mp h v hv)
  | object fs ih =>
    intro h
    rw [sorted_object, inWords_object]
    intro e he
    obtain ⟨f, hf, rfl⟩ := exists_of_mem_sort he
    exact ih f hf (inWords_object.mp h f hf)

/-! ### Depth -/

mutual

/-- At most so many containers are inside each other. -/
def Within : Nat → Json → Prop
  | depth + 1, .array items => WithinItems depth items
  | depth + 1, .object fields => WithinFields depth fields
  | 0, .array _ | 0, .object _ => False
  | _, _ => True

/-- At most so many are inside each other in every item. -/
def WithinItems (depth : Nat) : List Json → Prop
  | [] => True
  | item :: rest => Within depth item ∧ WithinItems depth rest

/-- At most so many are inside each other in the value of every field. -/
def WithinFields (depth : Nat) : List (String × Json) → Prop
  | [] => True
  | (_, value) :: rest => Within depth value ∧ WithinFields depth rest

end

theorem within_array {depth : Nat} {items : List Json} :
    Within (depth + 1) (.array items) ↔ ∀ v ∈ items, v.Within depth := by
  rw [Within]
  induction items with
  | nil => exact ⟨fun _ => nofun, fun _ => trivial⟩
  | cons v rest ih => rw [WithinItems, List.forall_mem_cons, ih]

theorem within_object {depth : Nat} {fs : List (String × Json)} :
    Within (depth + 1) (.object fs) ↔ ∀ e ∈ fs, e.2.Within depth := by
  rw [Within]
  induction fs with
  | nil => exact ⟨fun _ => nofun, fun _ => trivial⟩
  | cons e rest ih => rw [WithinFields, List.forall_mem_cons, ih]

theorem within_sorted {v : Json} {depth : Nat} : v.Within depth → v.sorted.Within depth := by
  induction v using induct generalizing depth with
  | null | bool | number | string => exact id
  | array items ih =>
    intro h
    cases depth with
    | zero => cases h
    | succ depth =>
      rw [sorted_array, within_array]
      exact List.forall_mem_map.mpr fun v hv => ih v hv (within_array.mp h v hv)
  | object fs ih =>
    intro h
    cases depth with
    | zero => cases h
    | succ depth =>
      rw [sorted_object, within_object]
      intro e he
      obtain ⟨f, hf, rfl⟩ := exists_of_mem_sort he
      exact ih f hf (within_object.mp h f hf)

/-! ### Scalars -/

/-- A value without anything within it. -/
def IsScalar : Json → Prop
  | .array _ | .object _ => False
  | _ => True

theorem isScalar_optional {α : Type} {write : α → Json} (h : ∀ a, (write a).IsScalar) :
    ∀ o : Option α, (Json.optional write o).IsScalar
  | none => trivial
  | some a => h a

theorem IsScalar.sorted_eq : ∀ {v : Json}, v.IsScalar → v.sorted = v
  | .null, _ | .bool _, _ | .number _, _ | .string _, _ => rfl

theorem IsScalar.within {depth : Nat} : ∀ {v : Json}, v.IsScalar → v.Within depth
  | .null, _ | .bool _, _ | .number _, _ | .string _, _ => by cases depth <;> trivial

/-- A record of scalars. -/
def IsFlat : Json → Prop
  | .object fs => (fs.map (·.1)).Nodup ∧ ∀ e ∈ fs, e.2.IsScalar
  | _ => False

theorem IsFlat.within {depth : Nat} : ∀ {v : Json}, v.IsFlat → v.Within (depth + 1)
  | .object _, h => within_object.mpr fun e he => (h.2 e he).within

/-! ### Reading -/

theorem ofItems?_eq_some {depth : Nat} {items : List Json}
    (h : ∀ v ∈ items, ofDraft? depth v.draft = some v.sorted) :
    ofItems? depth (draftItems items) = some (items.map sorted) := by
  induction items with
  | nil => rfl
  | cons v rest ih =>
    obtain ⟨hv, hrest⟩ := List.forall_mem_cons.mp h
    rw [draftItems, ofItems?, hv, ih hrest]
    rfl

theorem ofFields?_eq_some {depth : Nat} {fs : List (String × Json)}
    (h : ∀ e ∈ fs, ofDraft? depth e.2.draft = some e.2.sorted) :
    ofFields? depth (draftFields fs) = some (fs.map fun e => (e.1, e.2.sorted)) := by
  induction fs with
  | nil => rfl
  | cons e rest ih =>
    obtain ⟨he, hrest⟩ := List.forall_mem_cons.mp h
    rw [draftFields, ofFields?, Option.bind_some, he, ih hrest]
    rfl

/-- Of a draft that is not too deep there is the value in order. -/
theorem ofDraft?_draft {v : Json} {depth : Nat} :
    v.Within depth → ofDraft? depth v.draft = some v.sorted := by
  induction v using induct generalizing depth with
  | null | bool | number | string => cases depth <;> exact fun _ => rfl
  | array items ih =>
    intro h
    cases depth with
    | zero => cases h
    | succ depth =>
      have hitems := ofItems?_eq_some fun v hv => ih v hv (within_array.mp h v hv)
      rw [draft, ofDraft?, hitems, sorted_array]
      rfl
  | object fs ih =>
    intro h
    cases depth with
    | zero => cases h
    | succ depth =>
      have hfields := ofFields?_eq_some fun e he => ih e he (within_object.mp h e he)
      rw [draft, ofDraft?, hfields, sorted_object]
      rfl

/-- **A text is read as the value that it spells**, in order. -/
theorem read_of_spelled {v : Json} (h : v.Within depthLimit) {text : String}
    (ht : Spelled v text.toList) : read (Text.encode text) = .ok v.sorted := by
  have hdecode : decode v.draft = .ok v.sorted := by
    rw [decode, ofDraft?_draft h]
    rfl
  rw [read, Decoder.ofBytes, Draft.ofBytes_of_spelled ht, Decoder.finish, hdecode]
  rfl

/-- **A document over several lines** is that of the value in order. -/
theorem tidy_of_spelled {v : Json} (h : v.Within depthLimit) {text : String}
    (ht : Spelled v text.toList) :
    Sink.tidy (Text.encode text) = .ok (Text.encode v.sorted.pretty) := by
  rw [Sink.tidy, read_of_spelled h ht]
  rfl

/-! ### Records in order -/

namespace Respelled

variable {shape : Shape}

theorem sorted_list {items : List Json} (h : ∀ v ∈ items, Respelled shape v v.sorted) :
    Respelled (.list shape) (.array items) (array items).sorted := by
  rw [sorted_array]
  refine .items ?_
  rw [List.forall₂_map_right_iff]
  exact List.forall₂_same.mpr h

/-- A field of a record, where the shape has it, whose value in order is that value in other
words. -/
def IsOrderly (e : String × Json) (f : String × Option Json × Shape) : Prop :=
  e.1 = f.1 ∧ Respelled f.2.2 e.2 e.2.sorted

theorem isOrderly_scalar {key : String} {v : Json} {default : Option Json} (h : v.IsScalar) :
    IsOrderly (key, v) (key, default, shape) := by
  refine ⟨rfl, ?_⟩
  rw [h.sorted_eq]
  exact .refl _

theorem exists_of_forall₂ {fs : List (String × Json)}
    {fields : List (String × Option Json × Shape)} (h : List.Forall₂ IsOrderly fs fields) :
    ∀ e ∈ fs, ∃ f ∈ fields, IsOrderly e f := by
  induction h with
  | nil => nofun
  | cons hfirst _ ih =>
    refine List.forall_mem_cons.mpr ⟨⟨_, List.mem_cons_self, hfirst⟩, fun e he => ?_⟩
    obtain ⟨f, hf, hef⟩ := ih e he
    exact ⟨f, List.mem_cons_of_mem _ hf, hef⟩

/-- **A record in order is the record in other words.**  Its fields are given with those of the
shape, one by one. -/
theorem sorted_record {fs : List (String × Json)} {fields : List (String × Option Json × Shape)}
    (h : List.Forall₂ IsOrderly fs fields) (distinct : (fields.map (·.1)).Nodup) :
    Respelled (.record fields) (.object fs) (object fs).sorted := by
  have hkeys : fs.map (·.1) = fields.map (·.1) := Decoder.map_eq_of_forall₂ (fun _ _ h => h.1) h
  have hvalues : List.Forall₂ (OfField fields) fs (fs.map fun e => (e.1, e.2.sorted)) := by
    rw [List.forall₂_map_right_iff]
    refine List.forall₂_same.mpr fun e he => ?_
    obtain ⟨⟨key, default, shape⟩, hf, hkey, hvalue⟩ := exists_of_forall₂ h e he
    cases hkey
    exact ⟨rfl, default, shape, hf, hvalue⟩
  have hdistinct : ((fs.map fun e => (e.1, e.2.sorted)).map (·.1)).Nodup := by
    rw [List.map_map]
    exact hkeys ▸ distinct
  rw [sorted_object]
  exact (Respelled.fields hvalues).trans <| .more (.reorder (sort_perm hdistinct).symm) (.refl _)

theorem of_isFlat {fields : List (String × Option Json × Shape)} :
    ∀ {v : Json}, v.IsFlat → Respelled (.record fields) v v.sorted
  | .object fs, ⟨distinct, hscalar⟩ => by
    rw [sorted_object, map_sorted_eq_self fun e he => (hscalar e he).sorted_eq]
    exact .more (.reorder (sort_perm distinct).symm) (.refl _)

end Respelled

end Inspection.Json
