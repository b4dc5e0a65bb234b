import Inspection.Proofs.Json.Respelled

/-!
# Json — records that are kept

A record is kept if its value is read as the record, whatever of it is left out that may be, and
if all its numbers can be written.  Then it comes back from every text of its value.

* `Kept.ofText`: whoever reads a text of a record that is kept gets the record.
-/

namespace Inspection.Decoder

open Json (Shape Respelled Spelled)

variable {α : Type} {decode : Decoder α} {shape : Shape}

/-! ### The values of fields -/

theorem list_written {write : α → Json} {as : List α}
    (h : ∀ a ∈ as, decode (write a).draft = .ok a) :
    list decode (Json.array (as.map write)).draft = .ok as := by
  rw [list_eq_ok, List.forall₂_map_left_iff]
  exact List.forall₂_same.mpr h

theorem keyed_written {write : α → Json} {k : Keyed α}
    (h : ∀ e ∈ k.entries, decode (write e.2).draft = .ok e.2) :
    keyed decode (Json.object (k.entries.map fun (key, a) => (key, write a))).draft = .ok k := by
  refine keyed_eq_ok.mpr ⟨k.entries, ?_, k.ofList_entries⟩
  rw [List.forall₂_map_left_iff]
  exact List.forall₂_same.mpr fun e he => ⟨rfl, h e he⟩

theorem optional_written {write : α → Json} (h : ∀ a, decode (write a).draft = .ok a)
    (some_ne : ∀ a, (write a).draft ≠ .null) : ∀ o : Option α,
      optional decode (Json.optional write o).draft = .ok o
  | none => rfl
  | some a => by
    have hsome : optional decode (write a).draft = (decode (write a).draft).map some := by
      rw [optional.eq_def]
      split
      next hnull => exact absurd hnull (some_ne a)
      next => rfl
    rw [Json.optional, hsome, h a]
    rfl

theorem unsigned_written {bound : Nat} {expected : String} {n : Nat} (h : n ≤ bound) :
    unsigned bound expected (Json.natural n).draft = .ok n := by
  have hrange : (0 : Int) ≤ n ∧ (n : Int) ≤ bound := ⟨Int.natCast_nonneg n, Int.ofNat_le.mpr h⟩
  rw [Json.natural, Json.draft, unsigned, if_pos hrange]
  rfl

theorem count_written {n : Nat} (h : n < UInt64.size) : count (Json.natural n).draft = .ok n :=
  unsigned_written (Nat.le_pred_of_lt h)

theorem word64_written (w : UInt64) : word64 (Json.natural w.toNat).draft = .ok w := by
  have hw : w.toNat ≤ UInt64.size - 1 := Nat.le_pred_of_lt w.toNat_lt
  rw [word64, unsigned_written hw]
  exact congrArg Except.ok UInt64.ofNat_toNat

theorem word16_written (w : UInt16) : word16 (Json.natural w.toNat).draft = .ok w := by
  have hw : w.toNat ≤ UInt16.size - 1 := Nat.le_pred_of_lt w.toNat_lt
  rw [word16, unsigned_written hw]
  exact congrArg Except.ok UInt16.ofNat_toNat

/-! ### Fields of a record -/

section

variable {key : String} {a : α} {v : Json}

theorem written_required (h : decode v.draft = .ok a) :
    Part.Written (key, v) ⟨.required key decode, a⟩ := ⟨rfl, h⟩

theorem written_nullable {o : Option α} (h : optional decode v.draft = .ok o) :
    Part.Written (key, v) ⟨.nullable key decode, o⟩ := ⟨rfl, h⟩

theorem written_defaulted {value : α} (h : decode v.draft = .ok a) :
    Part.Written (key, v) ⟨.defaulted key decode value, a⟩ := ⟨rfl, h⟩

theorem fits_required (suits : Suits decode shape) :
    Part.Fits (key, none, shape) ⟨.required key decode, a⟩ := ⟨rfl, suits, nofun⟩

theorem fits_nullable {o : Option α} :
    Part.Fits (key, some .null, .plain) ⟨.nullable key decode, o⟩ := by
  refine ⟨rfl, suits_plain _, ?_⟩
  rintro _ ⟨⟩ h
  exact congrArg some (Except.ok.inj h)

theorem fits_defaulted {default : Json} {value : α} (h : decode default.draft = .ok value)
    (suits : Suits decode shape) :
    Part.Fits (key, some default, shape) ⟨.defaulted key decode value, a⟩ := by
  refine ⟨rfl, suits, ?_⟩
  rintro _ ⟨⟩ ha
  exact congrArg some (Except.ok.inj (h.symm.trans ha))

end

/-! ### Records -/

/-- The records of a type that are within bounds are kept. -/
structure Kept (toJson : α → Json) (decode : Decoder α) (shape : Shape) (bounds : α → Prop) :
    Prop where
  suits : Suits decode shape
  written : ∀ r, bounds r → decode (toJson r).draft = .ok r
  inWords : ∀ r, bounds r → (toJson r).InWords

namespace Kept

variable {toJson : α → Json} {bounds : α → Prop} (h : Kept toJson decode shape bounds)
include h

/-- **Whoever reads a text of a record** gets that record. -/
theorem ofText {r : α} (hr : bounds r) {v : Json} (hv : Respelled shape (toJson r) v)
    {text : String} (ht : Spelled v text.toList) : Decoder.ofText decode text = .ok r := by
  have hread := h.suits.respelled hv (h.written r hr)
  rw [Decoder.ofText, Json.Draft.ofText_of_spelled ht, finish, hread]
  rfl

theorem ofBytes {r : α} (hr : bounds r) {v : Json} (hv : Respelled shape (toJson r) v)
    {text : String} (ht : Spelled v text.toList) :
    Decoder.ofBytes decode (Text.encode text) = .ok r := by
  have hread := h.suits.respelled hv (h.written r hr)
  rw [Decoder.ofBytes, Json.Draft.ofBytes_of_spelled ht, finish, hread]
  rfl

end Kept

end Inspection.Decoder
