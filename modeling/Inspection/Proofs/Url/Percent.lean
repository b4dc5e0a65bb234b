import Inspection.Proofs.Text.Utf8
import Inspection.Url.Percent

/-!
# Url — percent encoding, read back

Encoded characters are decoded to their bytes as long as the percent sign is among those that are
encoded, and so texts with the same encoding are the same.

* `decode_encode`: what is decoded are the bytes of the text.
* `Text.encode_injective`: the bytes of a text tell the text.
-/

namespace Inspection

namespace Text

theorem decodeLossy_encode (s : String) : decodeLossy (encode s) = s := by
  rw [decodeLossy, symbols_encode, List.map_map, ← String.ofList_toList (s := s)]
  simp [Function.comp_def]

/-- **The bytes of a text tell the text.** -/
theorem encode_injective {a b : String} (h : encode a = encode b) : a = b := by
  rw [← decodeLossy_encode a, h, decodeLossy_encode]

theorem encode_ofList (cs : List Char) :
    encode (String.ofList cs) = cs.flatMap String.utf8EncodeChar := by
  rw [encode, String.toList_ofList]

end Text

namespace Url

theorem decode_cons_of_ne {c : Char} (h : c ≠ '%') (rest : List Char) :
    decode (c :: rest) = String.utf8EncodeChar c ++ decode rest := by
  rw [decode]
  rintro a b cs rfl
  exact absurd rfl h

theorem decode_flatMap_encodeByte (bytes : List UInt8) (rest : List Char) :
    decode (bytes.flatMap encodeByte ++ rest) = bytes ++ decode rest := by
  induction bytes with
  | nil => rfl
  | cons b bytes ih =>
    rw [List.flatMap_cons, List.append_assoc, decode_encodeByte, ih, List.cons_append]

/-- A character is decoded to its bytes, whether it was encoded or not. -/
theorem decode_encodeChar {set : EncodeSet} (h : set '%' = true) (c : Char) (rest : List Char) :
    decode (encodeChar set c ++ rest) = String.utf8EncodeChar c ++ decode rest := by
  rw [encodeChar]
  split
  next hplain =>
    refine decode_cons_of_ne ?_ rest
    rintro rfl
    simp [h] at hplain
  · exact decode_flatMap_encodeByte _ rest

/-- **Encoded characters are decoded to their bytes.** -/
theorem decode_encode {set : EncodeSet} (h : set '%' = true) (cs : List Char) :
    decode (encode set cs) = Text.encode (String.ofList cs) := by
  rw [Text.encode_ofList]
  induction cs with
  | nil => rfl
  | cons c cs ih =>
    have hcons : encode set (c :: cs) = encodeChar set c ++ encode set cs := rfl
    rw [hcons, decode_encodeChar h, ih, List.flatMap_cons]

/-- Nothing is decoded where no percent sign stands. -/
theorem decode_of_notMem {cs : List Char} (h : '%' ∉ cs) :
    decode cs = Text.encode (String.ofList cs) := by
  rw [Text.encode_ofList]
  induction cs with
  | nil => rfl
  | cons c cs ih =>
    rw [List.mem_cons, not_or] at h
    obtain ⟨hc, hcs⟩ := h
    rw [decode_cons_of_ne (Ne.symm hc), ih hcs, List.flatMap_cons]

end Url

end Inspection
