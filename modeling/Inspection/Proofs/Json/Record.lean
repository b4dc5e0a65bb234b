import Mathlib.Data.List.Forall2
import Mathlib.Data.List.Nodup
import Inspection.Proofs.Check
import Inspection.Proofs.Json.Document

/-!
# Json — what a record asks of its fields

An object is read as a record if no field that the record knows comes twice, every such field is
read as the value it has in the record, and what is left out has that value by default.  None of
this depends on the order of the fields, or on others.

* `Part`: a field of a record with its value, and `Part.Given` what that asks of an object.
* `known_eq_ok`, `fields_eq_ok`: the fields found in an object.
* `Reads.object_eq_ok`: when an object is read as a record.
-/

namespace Inspection.Decoder

open Json (Draft draft)

/-! ### Whole drafts -/

mutual

/-- The draft of a value is well formed to its end. -/
theorem whole_draft : ∀ v : Json, v.draft.whole = true
  | .null | .bool _ | .number _ | .string _ => rfl
  | .array items => by
    rw [draft, Draft.whole, Bool.true_and]
    exact whole_draftItems items
  | .object fields => by
    rw [draft, Draft.whole, Bool.true_and]
    exact whole_draftFields fields

theorem whole_draftItems : ∀ items : List Json, Draft.wholeItems (Json.draftItems items) = true
  | [] => rfl
  | item :: rest => by
    rw [Json.draftItems, Draft.wholeItems, whole_draft item, whole_draftItems rest]
    rfl

theorem whole_draftFields : ∀ fields : List (String × Json),
    Draft.wholeFields (Json.draftFields fields) = true
  | [] => rfl
  | (_, value) :: rest => by
    rw [Json.draftFields, Draft.wholeFields, whole_draft value, whole_draftFields rest]
    rfl

end

/-! ### The fields that a record knows -/

/-- The rule for a field, if the record knows it. -/
def ruleOf? (rules : List Rule) (key : String) : Option Rule := rules.find? (·.key = key)

/-- The fields of an object that a record knows. -/
def knownOf (rules : List Rule) (fs : List (String × Json)) : List (String × Json) :=
  fs.filter fun e => e.1 ∈ rules.map (·.key)

/-- The drafts of fields under their keys. -/
def draftsOf (fs : List (String × Json)) : List (String × Draft) := fs.map fun e => (e.1, e.2.draft)

theorem ruleOf?_eq_some {rules : List Rule} {key : String} {rule : Rule}
    (h : ruleOf? rules key = some rule) : rule ∈ rules ∧ rule.key = key :=
  ⟨List.mem_of_find?_eq_some h, by simpa using List.find?_some h⟩

theorem isSome_ruleOf? {rules : List Rule} {key : String} :
    (ruleOf? rules key).isSome = true ↔ key ∈ rules.map (·.key) := by
  simp [ruleOf?]

/-- One field after another: others are passed over, and one that is known is taken unless it has
come before or does not pass its check. -/
theorem known_cons (rules : List Rule) (done : List (String × Draft)) (key : String) (value : Json)
    (rest : List (Option String × Draft)) :
    known rules done ((some key, value.draft) :: rest) =
      match ruleOf? rules key with
      | none => known rules done rest
      | some rule =>
        if done.any (·.1 = key) then .error (.duplicateField key)
        else (rule.check value.draft).bind fun _ =>
          known rules (done ++ [(key, value.draft)]) rest := by
  rw [known, ruleOf?, whole_draft]
  rfl

/-- **The fields found** are those that the record knows, none of them twice, and each passes the
check of its rule. -/
theorem known_eq_ok {rules : List Rule} : ∀ {fs : List (String × Json)}
    {done found : List (String × Draft)}, (done.map (·.1)).Nodup →
      (known rules done (Json.draftFields fs) = .ok found ↔
        (∀ e ∈ fs, ∀ rule, ruleOf? rules e.1 = some rule → rule.check e.2.draft = .ok ()) ∧
        (done.map (·.1) ++ (knownOf rules fs).map (·.1)).Nodup ∧
        found = done ++ draftsOf (knownOf rules fs))
  | [], done, found, hd => by
    simp [Json.draftFields, known, knownOf, draftsOf, hd, eq_comm]
  | (key, value) :: rest, done, found, hd => by
    rw [Json.draftFields, known_cons]
    cases hr : ruleOf? rules key with
    | none =>
      have hknown : knownOf rules ((key, value) :: rest) = knownOf rules rest :=
        List.filter_cons_of_neg (by rw [decide_eq_true_eq, ← isSome_ruleOf?, hr]; simp)
      simp only
      rw [known_eq_ok hd, hknown, List.forall_mem_cons, hr]
      simp
    | some rule =>
      have hknown : knownOf rules ((key, value) :: rest) = (key, value) :: knownOf rules rest :=
        List.filter_cons_of_pos (by rw [decide_eq_true_eq, ← isSome_ruleOf?, hr]; rfl)
      simp only
      by_cases hdone : key ∈ done.map (·.1)
      · have hany : done.any (·.1 = key) = true := by simpa using hdone
        rw [if_pos hany, hknown]
        exact ⟨nofun, fun h => absurd rfl
          ((List.nodup_append.mp h.2.1).2.2 key hdone key (List.mem_cons_self ..))⟩
      · have hany : ¬done.any (·.1 = key) = true := by simpa using hdone
        have hkeys : ((done ++ [(key, value.draft)]).map (·.1)).Nodup := by
          rw [List.map_append]
          refine List.nodup_append.mpr ⟨hd, List.pairwise_singleton .., fun a ha b hb => ?_⟩
          rw [List.mem_singleton.mp hb]
          rintro rfl
          exact hdone ha
        have hsplit : (done ++ [(key, value.draft)]).map (·.1) ++ (knownOf rules rest).map (·.1) =
            done.map (·.1) ++ ((key, value) :: knownOf rules rest).map (·.1) := by simp
        have hfound : done ++ [(key, value.draft)] ++ draftsOf (knownOf rules rest) =
            done ++ draftsOf ((key, value) :: knownOf rules rest) := by simp [draftsOf]
        rw [if_neg hany, hknown, List.forall_mem_cons]
        change (rule.check value.draft >>= _) = _ ↔ _
        rw [Check.bind_eq_ok]
        simp only [known_eq_ok hkeys, hsplit, hfound, hr, Option.some.injEq, forall_eq']
        constructor
        · rintro ⟨_, hcheck, hrest, hnodup, rfl⟩
          exact ⟨⟨hcheck, hrest⟩, hnodup, rfl⟩
        · rintro ⟨⟨hcheck, hrest⟩, hnodup, rfl⟩
          exact ⟨(), hcheck, hrest, hnodup, rfl⟩

theorem any_draftsOf {rules : List Rule} {rule : Rule} (hm : rule ∈ rules)
    (fs : List (String × Json)) :
    (draftsOf (knownOf rules fs)).any (·.1 = rule.key) = true ↔ ∃ e ∈ fs, e.1 = rule.key := by
  have hknown : ∀ e : String × Json, e.1 = rule.key → e.1 ∈ rules.map (·.key) :=
    fun e he => he ▸ List.mem_map_of_mem hm
  simp only [draftsOf, knownOf, List.any_map, List.any_filter, List.any_eq_true, Function.comp,
    Bool.and_eq_true, decide_eq_true_eq]
  exact ⟨fun ⟨e, he, _, hk⟩ => ⟨e, he, hk⟩, fun ⟨e, he, hk⟩ => ⟨e, he, hknown e hk, hk⟩⟩

/-- **When an object has the fields of a record**: what it has of them passes the checks and does
not come twice, and what it has to have is there. -/
theorem fields_eq_ok {name : String} {rules : List Rule} {fs : List (String × Json)}
    {found : List (String × Draft)} : fields name rules (Json.object fs).draft = .ok found ↔
      (∀ e ∈ fs, ∀ rule, ruleOf? rules e.1 = some rule → rule.check e.2.draft = .ok ()) ∧
      ((knownOf rules fs).map (·.1)).Nodup ∧
      (∀ rule ∈ rules, rule.required = true → ∃ e ∈ fs, e.1 = rule.key) ∧
      found = draftsOf (knownOf rules fs) := by
  have hmissing : ∀ found, found = draftsOf (knownOf rules fs) →
      (rules.find? (fun rule => rule.required && !found.any (·.1 = rule.key)) = none ↔
        ∀ rule ∈ rules, rule.required = true → ∃ e ∈ fs, e.1 = rule.key) := by
    rintro _ rfl
    rw [List.find?_eq_none]
    refine forall₂_congr fun rule hm => ?_
    rw [← any_draftsOf hm]
    simp
  have hrequired : fields name rules (Json.object fs).draft =
      known rules [] (Json.draftFields fs) >>= fun found =>
        (rules.find? fun rule => rule.required && !found.any (·.1 = rule.key)).elim (.ok found)
          fun rule => .error (.missingField rule.key) := by
    refine congrArg (known rules [] (Json.draftFields fs) >>= ·) (funext fun found => ?_)
    cases rules.find? fun rule => rule.required && !found.any (·.1 = rule.key) <;> rfl
  have hknown : ∀ found, known rules [] (Json.draftFields fs) = .ok found ↔
      (∀ e ∈ fs, ∀ rule, ruleOf? rules e.1 = some rule → rule.check e.2.draft = .ok ()) ∧
        ((knownOf rules fs).map (·.1)).Nodup ∧ found = draftsOf (knownOf rules fs) :=
    fun _ => known_eq_ok List.nodup_nil
  rw [hrequired, Check.bind_eq_ok]
  simp only [hknown]
  constructor
  · rintro ⟨found', ⟨hcheck, hnodup, hfound⟩, hfind⟩
    cases hnone : rules.find? fun rule => rule.required && !found'.any (·.1 = rule.key) with
    | some rule =>
      rw [hnone] at hfind
      cases hfind
    | none =>
      rw [hnone] at hfind
      cases hfind
      exact ⟨hcheck, hnodup, (hmissing _ hfound).mp hnone, hfound⟩
  · rintro ⟨hcheck, hnodup, hthere, rfl⟩
    refine ⟨_, ⟨hcheck, hnodup, rfl⟩, ?_⟩
    rw [(hmissing _ rfl).mpr hthere, Option.elim_none]

/-! ### Lists under the same keys -/

section

variable {β γ κ : Type*} {R : β → γ → Prop} {k : β → κ} {k' : γ → κ}
  (hkey : ∀ x y, R x y → k x = k' y)
include hkey

theorem map_eq_of_forall₂ {xs : List β} {ys : List γ} (h : List.Forall₂ R xs ys) :
    xs.map k = ys.map k' := by
  induction h with
  | nil => rfl
  | cons hfirst _ ih => rw [List.map_cons, List.map_cons, hkey _ _ hfirst, ih]

/-- With distinct keys whatever has the same key belongs together. -/
theorem rel_of_mem {xs : List β} {ys : List γ} (h : List.Forall₂ R xs ys)
    (distinct : (ys.map k').Nodup) {x : β} (hx : x ∈ xs) {y : γ} (hy : y ∈ ys) (hk : k x = k' y) :
    R x y := by
  induction h with
  | nil => cases hx
  | cons hfirst hrest ih =>
    obtain ⟨hnew, distinct⟩ := List.nodup_cons.mp distinct
    have hkeys := map_eq_of_forall₂ hkey hrest
    rcases List.mem_cons.mp hx with rfl | hx
    · rcases List.mem_cons.mp hy with rfl | hy
      · exact hfirst
      · exact absurd (List.mem_map_of_mem hy) (hk ▸ hkey _ _ hfirst ▸ hnew)
    · rcases List.mem_cons.mp hy with rfl | hy
      · exact absurd (hkeys ▸ List.mem_map_of_mem hx) (hk ▸ hnew)
      · exact ih distinct hx hy

end

/-! ### Records -/

/-- A field of a record and the value that it has. -/
structure Part where
  {α : Type}
  field : Field α
  value : α

/-- The key of the field. -/
def Part.key (p : Part) : String := p.field.key

/-- Whatever an object has for the field is read as its value, and if it has nothing, that is the
value by default. -/
structure Part.Given (p : Part) (fs : List (String × Json)) : Prop where
  read : ∀ v, (p.key, v) ∈ fs → p.field.decode v.draft = .ok p.value
  absent : (∀ e ∈ fs, e.1 ≠ p.key) → p.field.absent = some p.value

/-- Of the fields that a record knows, one is found by its key. -/
theorem find?_draftsOf {rules : List Rule} {key : String} (hk : key ∈ rules.map (·.key))
    (fs : List (String × Json)) : (draftsOf (knownOf rules fs)).find? (·.1 = key) =
      (fs.find? (·.1 = key)).map fun e => (e.1, e.2.draft) := by
  rw [draftsOf, List.find?_map, knownOf, List.find?_filter]
  congr 2
  funext e
  simp only [Function.comp, Bool.decide_and, Bool.decide_eq_true]
  by_cases h : e.1 = key
  · simp [h, hk]
  · simp [h]

theorem Field.value_of_mem {α : Type} {f : Field α} {rules : List Rule}
    (hk : f.key ∈ rules.map (·.key))
    {fs : List (String × Json)} (nodup : ((knownOf rules fs).map (·.1)).Nodup) {v : Json}
    (hm : (f.key, v) ∈ fs) : f.value (draftsOf (knownOf rules fs)) = f.decode v.draft := by
  have hknown : ∀ e ∈ fs, e.1 = f.key → e ∈ knownOf rules fs := fun e he hkey =>
    List.mem_filter.mpr ⟨he, by simpa [hkey] using hk⟩
  have hfind : fs.find? (·.1 = f.key) = some (f.key, v) := by
    cases h : fs.find? (·.1 = f.key) with
    | none => simpa using List.find?_eq_none.mp h _ hm
    | some e =>
      have he : e.1 = f.key := by simpa using List.find?_some h
      exact congrArg some (List.inj_on_of_nodup_map nodup
        (hknown e (List.mem_of_find?_eq_some h) he) (hknown _ hm rfl) he)
  rw [Field.value, find?_draftsOf hk, hfind]
  rfl

theorem Field.value_of_absent {α : Type} {f : Field α} {rules : List Rule}
    (hk : f.key ∈ rules.map (·.key))
    {fs : List (String × Json)} (hnone : ∀ e ∈ fs, e.1 ≠ f.key) {a : α} :
    f.value (draftsOf (knownOf rules fs)) = .ok a ↔ f.absent = some a := by
  have hfind : fs.find? (·.1 = f.key) = none := by simpa using hnone
  rw [Field.value, find?_draftsOf hk, hfind, Option.map_none]
  cases f.absent with
  | none => simp
  | some b => simp

/-- A field has its value exactly if the object gives it. -/
theorem Part.value_eq_ok {p : Part} {rules : List Rule} (hk : p.key ∈ rules.map (·.key))
    {fs : List (String × Json)} (nodup : ((knownOf rules fs).map (·.1)).Nodup) :
    p.field.value (draftsOf (knownOf rules fs)) = .ok p.value ↔ p.Given fs := by
  constructor
  · intro hv
    refine ⟨fun v hm => ?_, fun hnone => (Field.value_of_absent hk hnone).mp hv⟩
    rw [← Field.value_of_mem hk nodup hm]
    exact hv
  · intro hg
    by_cases h : ∃ v, (p.key, v) ∈ fs
    · obtain ⟨v, hm⟩ := h
      rw [Field.value_of_mem hk nodup hm]
      exact hg.read v hm
    · have hnone : ∀ e ∈ fs, e.1 ≠ p.key := by
        rintro ⟨key, v⟩ hm rfl
        exact h ⟨v, hm⟩
      exact (Field.value_of_absent hk hnone).mpr (hg.absent hnone)

/-- The field of an object that has the value of a part. -/
structure Part.Written (e : String × Json) (p : Part) : Prop where
  key : e.1 = p.key
  read : p.field.decode e.2.draft = .ok p.value

/-- What a decoder of records goes by: the rules of the fields, and the parts of each record. -/
structure Reads {α : Type} (decode : Decoder α) (rules : List Rule) (parts : α → List Part) :
    Prop where
  aligned : ∀ a, (parts a).map (·.field.rule) = rules
  decodes : ∃ name, ∀ d a, decode d = .ok a ↔
    ∃ found, fields name rules d = .ok found ∧ ∀ p ∈ parts a, p.field.value found = .ok p.value

namespace Reads

variable {α : Type} {decode : Decoder α} {rules : List Rule} {parts : α → List Part}
  (h : Reads decode rules parts)
include h

theorem keys_eq (a : α) : (parts a).map Part.key = rules.map (·.key) := by
  rw [← h.aligned a, List.map_map]
  rfl

/-- **When an object is read as a record**: no field that the record knows comes twice, and every
field of the record is given. -/
theorem object_eq_ok {fs : List (String × Json)} {a : α} : decode (Json.object fs).draft = .ok a ↔
    ((knownOf rules fs).map (·.1)).Nodup ∧ ∀ p ∈ parts a, p.Given fs := by
  obtain ⟨name, hdecode⟩ := h.decodes
  have hkey : ∀ p ∈ parts a, p.key ∈ rules.map (·.key) := fun p hp =>
    h.keys_eq a ▸ List.mem_map_of_mem hp
  simp only [hdecode, fields_eq_ok]
  constructor
  · rintro ⟨_, ⟨-, hnodup, -, rfl⟩, hvalue⟩
    exact ⟨hnodup, fun p hp => (Part.value_eq_ok (hkey p hp) hnodup).mp (hvalue p hp)⟩
  · rintro ⟨hnodup, hgiven⟩
    have hpart : ∀ rule ∈ rules, ∃ p ∈ parts a, p.field.rule = rule := fun rule hr =>
      List.mem_map.mp (h.aligned a ▸ hr)
    refine ⟨_, ⟨fun e he rule hrule => ?_, hnodup, fun rule hrule hrequired => ?_, rfl⟩,
      fun p hp => (Part.value_eq_ok (hkey p hp) hnodup).mpr (hgiven p hp)⟩
    · obtain ⟨hm, hk⟩ := ruleOf?_eq_some hrule
      obtain ⟨p, hp, rfl⟩ := hpart rule hm
      have hkey : p.key = e.1 := hk
      exact Check.map_eq_ok.mpr ⟨_, (hgiven p hp).read e.2 (hkey ▸ he), rfl⟩
    · obtain ⟨p, hp, rfl⟩ := hpart rule hrule
      refine Decidable.byContradiction fun hnone => ?_
      have habsent := (hgiven p hp).absent fun e he hk => hnone ⟨e, he, hk⟩
      have hrequired : p.field.absent.isNone = true := hrequired
      rw [habsent] at hrequired
      cases hrequired

/-- **An object with the fields of a record in their order** is read as that record, if each of them
is read as its value. -/
theorem written (distinct : (rules.map (·.key)).Nodup) {fs : List (String × Json)} {a : α}
    (hfs : List.Forall₂ Part.Written fs (parts a)) : decode (Json.object fs).draft = .ok a := by
  have hkey : ∀ e p, Part.Written e p → e.1 = p.key := fun _ _ h => h.key
  have hkeys : fs.map (·.1) = (parts a).map Part.key := map_eq_of_forall₂ hkey hfs
  have hdistinct : ((parts a).map Part.key).Nodup := h.keys_eq a ▸ distinct
  refine h.object_eq_ok.mpr ⟨?_, fun p hp => ⟨fun v hm => ?_, fun hnone => ?_⟩⟩
  · exact (hkeys ▸ hdistinct).sublist (List.filter_sublist.map _)
  · exact (rel_of_mem hkey hfs hdistinct hm hp rfl).read
  · have hmem : p.key ∈ fs.map (·.1) := hkeys ▸ List.mem_map_of_mem hp
    obtain ⟨e, he, hkey⟩ := List.mem_map.mp hmem
    exact absurd hkey (hnone e he)

end Reads

end Inspection.Decoder
