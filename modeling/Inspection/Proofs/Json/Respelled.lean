import Mathlib.Data.List.Perm.Basic
import Inspection.Proofs.Json.Record
import Inspection.Proofs.Keyed

/-!
# Json — records in other words

The value of a record may be written differently and still be the same record: its fields in
another order, some that have their default left out, and others put in that mean nothing to it.
All of this may happen at every record within it.

* `Respelling`, `Respelled`: one such change, and any number of them.
* `Respelled.items`, `Respelled.fields`: changes of every item of a list, or of every field.
* `Suits.respelled`: a decoder that each change leaves alone reads the same from both values.
* `suits_list`, `suits_keyed`, `suits_record`: such are the decoders of lists, of maps and of
  records, if those of their parts are.
-/

namespace Inspection.Json

/-- Where the records of a value are.  Of a record the fields are told that it knows, each with the
value that may be left out and the shape of its values. -/
inductive Shape
  | plain
  | list (item : Shape)
  | map (entry : Shape)
  | record (fields : List (String × Option Json × Shape))

/-- One change in the writing of a value of a shape. -/
inductive Respelling : Shape → Json → Json → Prop
  /-- The fields of a record in another order. -/
  | reorder {fields : List (String × Option Json × Shape)} {fs fs' : List (String × Json)}
      (perm : fs.Perm fs') : Respelling (.record fields) (.object fs) (.object fs')
  /-- A field of a record left out that has its default. -/
  | leaveOut {fields : List (String × Option Json × Shape)} {key : String} {default : Json}
      {shape : Shape} {fs : List (String × Json)}
      (optional : (key, some default, shape) ∈ fields) :
      Respelling (.record fields) (.object ((key, default) :: fs)) (.object fs)
  /-- A field with whatever value that the record does not know. -/
  | add {fields : List (String × Option Json × Shape)} {key : String} {value : Json}
      {fs : List (String × Json)} (unknown : ∀ f ∈ fields, f.1 ≠ key) :
      Respelling (.record fields) (.object fs) (.object ((key, value) :: fs))
  /-- A change within a field of a record. -/
  | field {fields : List (String × Option Json × Shape)} {key : String} {default : Option Json}
      {shape : Shape} {v v' : Json} {fs : List (String × Json)}
      (known : (key, default, shape) ∈ fields) (inner : Respelling shape v v') :
      Respelling (.record fields) (.object ((key, v) :: fs)) (.object ((key, v') :: fs))
  /-- A change within an item of a list. -/
  | item {shape : Shape} {v v' : Json} {front back : List Json} (inner : Respelling shape v v') :
      Respelling (.list shape) (.array (front ++ v :: back)) (.array (front ++ v' :: back))
  /-- The entries of a map in another order. -/
  | entries {shape : Shape} {fs fs' : List (String × Json)} (perm : fs.Perm fs')
      (distinct : (fs.map (·.1)).Nodup) : Respelling (.map shape) (.object fs) (.object fs')
  /-- A change within an entry of a map. -/
  | entry {shape : Shape} {key : String} {v v' : Json} {front back : List (String × Json)}
      (inner : Respelling shape v v') :
      Respelling (.map shape) (.object (front ++ (key, v) :: back))
        (.object (front ++ (key, v') :: back))

/-- Any number of changes. -/
inductive Respelled (shape : Shape) : Json → Json → Prop
  | refl (v : Json) : Respelled shape v v
  | more {v w x : Json} (step : Respelling shape v w) (rest : Respelled shape w x) :
      Respelled shape v x

/-! ### Changes in many places -/

namespace Respelled

variable {shape outer : Shape} {v w x : Json}

theorem trans (h : Respelled shape v w) (h' : Respelled shape w x) : Respelled shape v x := by
  induction h with
  | refl => exact h'
  | more step _ ih => exact .more step (ih h')

/-- Changes of a part are changes of the whole. -/
theorem within (whole : Json → Json)
    (hstep : ∀ v w, Respelling shape v w → Respelling outer (whole v) (whole w))
    (h : Respelled shape v w) : Respelled outer (whole v) (whole w) := by
  induction h with
  | refl => exact .refl _
  | more step _ ih => exact .more (hstep _ _ step) ih

/-- What may change in one place of a list may change in every place. -/
theorem all {β : Type} (whole : List β → Json) {R : β → β → Prop}
    (hone : ∀ front x y back, R x y →
      Respelled outer (whole (front ++ x :: back)) (whole (front ++ y :: back)))
    {xs ys : List β} (h : List.Forall₂ R xs ys) : Respelled outer (whole xs) (whole ys) := by
  suffices hfront : ∀ front, Respelled outer (whole (front ++ xs)) (whole (front ++ ys)) from
    hfront []
  induction h with
  | nil => exact fun _ => .refl _
  | @cons x y xs ys hxy _ ih =>
    intro front
    have hrest := ih (front ++ [y])
    rw [List.append_assoc, List.append_assoc] at hrest
    exact (hone front x y xs hxy).trans hrest

theorem items {vs ws : List Json} (h : List.Forall₂ (Respelled shape) vs ws) :
    Respelled (.list shape) (.array vs) (.array ws) :=
  all .array (fun front _ _ back =>
    within (fun v => .array (front ++ v :: back)) fun _ _ => .item) h

/-- What becomes of a field that a record knows. -/
def OfField (fields : List (String × Option Json × Shape)) (e f : String × Json) : Prop :=
  e.1 = f.1 ∧ ∃ default shape, (e.1, default, shape) ∈ fields ∧ Respelled shape e.2 f.2

theorem fields {known : List (String × Option Json × Shape)} {fs gs : List (String × Json)}
    (h : List.Forall₂ (OfField known) fs gs) :
    Respelled (.record known) (.object fs) (.object gs) := by
  refine all .object (fun front e f back ⟨hkey, default, shape, hknown, hvalue⟩ => ?_) h
  obtain ⟨key, v⟩ := e
  obtain ⟨_, w⟩ := f
  cases hkey
  -- The field is brought to the front, changed there, and brought back.
  have hchange := hvalue.within (fun v => .object ((key, v) :: (front ++ back)))
    fun _ _ => .field hknown
  exact .more (.reorder List.perm_middle) <| hchange.trans <|
    .more (.reorder List.perm_middle.symm) (.refl _)

end Respelled

end Inspection.Json

namespace Inspection.Decoder

open Json (Shape Respelling Respelled)

variable {α : Type} {decode : Decoder α} {shape : Shape}

/-! ### Decoders that a change leaves alone -/

/-- What a decoder reads does not change with the writing. -/
def Suits (decode : Decoder α) (shape : Shape) : Prop :=
  ∀ ⦃v v' : Json⦄, Respelling shape v v' → ∀ ⦃a : α⦄, decode v.draft = .ok a →
    decode v'.draft = .ok a

/-- **The same is read** after any number of changes. -/
theorem Suits.respelled (h : Suits decode shape) {v v' : Json} (hv : Respelled shape v v') {a : α}
    (ha : decode v.draft = .ok a) : decode v'.draft = .ok a := by
  induction hv with
  | refl => exact ha
  | more step _ ih => exact ih (h step ha)

/-- Within a value without records nothing changes. -/
theorem suits_plain (decode : Decoder α) : Suits decode .plain := fun _ _ => nofun

/-! ### Lists -/

theorem list_eq_ok {items : List Json} {as : List α} :
    list decode (Json.array items).draft = .ok as ↔
      List.Forall₂ (fun v a => decode v.draft = .ok a) items as := by
  have hlist : list decode (Json.array items).draft =
      ((items.map Json.draft).mapM decode >>= fun values => .ok values) := by
    rw [Json.draft, Json.draftItems_eq_map]
    rfl
  rw [hlist, Check.bind_eq_ok, ← List.forall₂_map_left_iff (R := fun d a => decode d = .ok a)]
  simp only [← Check.mapM_eq_ok, Except.ok.injEq, exists_eq_right]

/-- An item may give way to another that is related to all that it is. -/
theorem forall₂_replace {β : Type} {R : β → α → Prop} {v v' : β} (h : ∀ a, R v a → R v' a)
    {back : List β} : ∀ (front : List β) {as : List α},
      List.Forall₂ R (front ++ v :: back) as → List.Forall₂ R (front ++ v' :: back) as
  | [], _, .cons hv hback => .cons (h _ hv) hback
  | _ :: front, _, .cons hfirst hrest => .cons hfirst (forall₂_replace h front hrest)

theorem suits_list (h : Suits decode shape) : Suits (list decode) (.list shape) := by
  rintro _ _ ⟨⟩ as has
  next v v' front back inner =>
  rw [list_eq_ok] at has ⊢
  exact forall₂_replace (fun _ ha => h inner ha) front has

/-! ### Maps -/

/-- An entry of a map is read as one under the same key. -/
def IsEntry (decode : Decoder α) (e : String × Json) (e' : String × α) : Prop :=
  e.1 = e'.1 ∧ decode e.2.draft = .ok e'.2

theorem keyed_eq_ok {fs : List (String × Json)} {k : Keyed α} :
    keyed decode (Json.object fs).draft = .ok k ↔
      ∃ entries, List.Forall₂ (IsEntry decode) fs entries ∧ Keyed.ofList entries = k := by
  have hkeyed : keyed decode (Json.object fs).draft =
      (fs.mapM fun e => (decode e.2.draft).map fun value => (e.1, value)) >>= fun entries =>
        .ok (Keyed.ofList entries) := by
    rw [Json.draft, Json.draftFields_eq_map]
    change ((fs.map _).mapM _ >>= _) = _
    rw [List.mapM_map]
    rfl
  have hentry : ∀ (e : String × Json) (e' : String × α),
      ((decode e.2.draft).map fun value => (e.1, value)) = .ok e' ↔ IsEntry decode e e' := by
    intro e e'
    rw [Check.map_eq_ok]
    constructor
    · rintro ⟨value, hvalue, rfl⟩
      exact ⟨rfl, hvalue⟩
    · rintro ⟨hkey, hvalue⟩
      exact ⟨e'.2, hvalue, by rw [hkey]⟩
  rw [hkeyed, Check.bind_eq_ok]
  simp only [Check.mapM_eq_ok, hentry, Except.ok.injEq]

theorem suits_keyed (h : Suits decode shape) : Suits (keyed decode) (.map shape) := by
  rintro _ _ ⟨⟩ k hk
  next fs fs' perm distinct =>
    rw [keyed_eq_ok] at hk ⊢
    obtain ⟨entries, hentries, rfl⟩ := hk
    obtain ⟨entries', hentries', perm'⟩ := List.perm_comp_forall₂ perm.symm hentries
    refine ⟨entries', hentries', Keyed.ofList_eq_of_perm perm' ?_⟩
    rw [← map_eq_of_forall₂ (fun _ _ h => h.1) hentries']
    exact (perm.map _).nodup_iff.mp distinct
  next key v v' front back inner =>
    rw [keyed_eq_ok] at hk ⊢
    obtain ⟨entries, hentries, rfl⟩ := hk
    exact ⟨entries, forall₂_replace (fun _ he => ⟨he.1, h inner he.2⟩) front hentries, rfl⟩

/-! ### Records -/

/-- A field of a record as its shape has it. -/
structure Part.Fits (f : String × Option Json × Shape) (p : Part) : Prop where
  key : f.1 = p.key
  suits : Suits p.field.decode f.2.2
  default : ∀ v, f.2.1 = some v → p.field.decode v.draft = .ok p.value →
    p.field.absent = some p.value

variable {rules : List Rule} {parts : α → List Part} {fields : List (String × Option Json × Shape)}

namespace Part.Given

variable {p : Part} {key : String} {v : Json} {fs : List (String × Json)}

theorem of_perm {fs' : List (String × Json)} (h : p.Given fs) (perm : fs.Perm fs') : p.Given fs' :=
  ⟨fun v hm => h.read v (perm.mem_iff.mpr hm),
    fun hnone => h.absent fun e he => hnone e (perm.mem_iff.mp he)⟩

/-- A field may be left out that has the value that is there without it. -/
theorem leaveOut (h : p.Given ((key, v) :: fs)) (hdefault : key = p.key →
    p.field.decode v.draft = .ok p.value → p.field.absent = some p.value) : p.Given fs := by
  refine ⟨fun w hm => h.read w (List.mem_cons_of_mem _ hm), fun hnone => ?_⟩
  by_cases hkey : key = p.key
  · exact hdefault hkey (h.read v (hkey ▸ List.mem_cons_self))
  · exact h.absent (List.forall_mem_cons.mpr ⟨hkey, hnone⟩)

/-- Other fields may be put in. -/
theorem add (h : p.Given fs) (hne : key ≠ p.key) : p.Given ((key, v) :: fs) := by
  refine ⟨fun w hm => ?_, fun hnone => h.absent (List.forall_mem_cons.mp hnone).2⟩
  rcases List.mem_cons.mp hm with heq | hm
  · exact absurd (congrArg Prod.fst heq).symm hne
  · exact h.read w hm

/-- The value of a field may be another from which the same is read. -/
theorem replace {v' : Json} (h : p.Given ((key, v) :: fs)) (hsame : key = p.key →
    p.field.decode v.draft = .ok p.value → p.field.decode v'.draft = .ok p.value) :
    p.Given ((key, v') :: fs) := by
  refine ⟨fun w hm => ?_, fun hnone => h.absent (List.forall_mem_cons.mpr
    (List.forall_mem_cons.mp hnone))⟩
  rcases List.mem_cons.mp hm with heq | hm
  · obtain ⟨hkey, rfl⟩ := Prod.mk.inj heq
    exact hsame hkey.symm (h.read v (hkey ▸ List.mem_cons_self))
  · exact h.read w (List.mem_cons_of_mem _ hm)

end Part.Given

/-- **The fields of a record may be changed in all these ways.** -/
theorem suits_record (h : Reads decode rules parts) (distinct : (rules.map (·.key)).Nodup)
    (fits : ∀ a, List.Forall₂ Part.Fits fields (parts a)) : Suits decode (.record fields) := by
  rintro _ _ step a ha
  have hkey : ∀ f p, Part.Fits f p → f.1 = p.key := fun _ _ h => h.key
  have hkeys : fields.map (·.1) = rules.map (·.key) := by
    rw [map_eq_of_forall₂ hkey (fits a), h.keys_eq a]
  have hdistinct : ((parts a).map Part.key).Nodup := h.keys_eq a ▸ distinct
  have hpart : ∀ {f}, f ∈ fields → ∀ {p}, p ∈ parts a → f.1 = p.key → p.Fits f :=
    fun hf _ hp => rel_of_mem hkey (fits a) hdistinct hf hp
  cases step with
  | reorder perm =>
    rw [h.object_eq_ok] at ha ⊢
    obtain ⟨hnodup, hgiven⟩ := ha
    exact ⟨((perm.filter _).map _).nodup_iff.mp hnodup, fun p hp => (hgiven p hp).of_perm perm⟩
  | leaveOut optional =>
    rw [h.object_eq_ok] at ha ⊢
    obtain ⟨hnodup, hgiven⟩ := ha
    refine ⟨hnodup.sublist (((List.sublist_cons_self ..).filter _).map _), fun p hp => ?_⟩
    exact (hgiven p hp).leaveOut fun hkey => (hpart optional hp hkey).default _ rfl
  | @add _ key _ _ unknown =>
    rw [h.object_eq_ok] at ha ⊢
    obtain ⟨hnodup, hgiven⟩ := ha
    have hout : key ∉ rules.map (·.key) := by
      rw [← hkeys]
      simpa using fun default shape hf => unknown (key, default, shape) hf rfl
    refine ⟨by rwa [knownOf, List.filter_cons_of_neg (by simpa using hout)], fun p hp => ?_⟩
    refine (hgiven p hp).add fun hkey => hout ?_
    rw [hkey, ← h.keys_eq a]
    exact List.mem_map_of_mem hp
  | @field _ key _ _ v v' fs known inner =>
    rw [h.object_eq_ok] at ha ⊢
    obtain ⟨hnodup, hgiven⟩ := ha
    have hsame : (knownOf rules ((key, v') :: fs)).map (·.1) =
        (knownOf rules ((key, v) :: fs)).map (·.1) := by
      by_cases hin : key ∈ rules.map (·.key) <;> simp only [knownOf, List.filter_cons, hin,
        decide_true, decide_false, if_true, Bool.false_eq_true, if_false, List.map_cons]
    refine ⟨hsame ▸ hnodup, fun p hp => ?_⟩
    exact (hgiven p hp).replace fun hkey hv => (hpart known hp hkey).suits inner hv

end Inspection.Decoder
