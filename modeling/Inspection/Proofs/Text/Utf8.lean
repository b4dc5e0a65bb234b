import Inspection.Text.Utf8

/-!
# Text — UTF-8, read back

A character is one to four bytes.  The first tells how many more there are and bounds the second;
what they say of the character together is its code point.

* `symbols_encode`: the bytes of a text decode to its characters, with no malformed place among
  them.
* `eq_encode_of_symbols`: no other bytes do.
-/

namespace Inspection.Text

/-! ### Leading bytes -/

/-- What a byte begins, by its number. -/
theorem lead_ofNat {n : Nat} (h : n < 256) : lead (UInt8.ofNat n) =
    if n < 0x80 then .whole (Char.ofNat n)
    else if n < 0xC2 then .stray
    else if n < 0xE0 then .opens { bits := n % 32, further := 0 }
    else if n = 0xE0 then .opens { bits := 0, further := 1, low := 0xA0 }
    else if n = 0xED then .opens { bits := 13, further := 1, high := 0x9F }
    else if n < 0xF0 then .opens { bits := n % 16, further := 1 }
    else if n = 0xF0 then .opens { bits := 0, further := 2, low := 0x90 }
    else if n < 0xF4 then .opens { bits := n % 8, further := 2 }
    else if n = 0xF4 then .opens { bits := 4, further := 2, high := 0x8F }
    else .stray := by
  have hn : (UInt8.ofNat n).toNat = n := UInt8.toNat_ofNat_of_lt h
  simp only [lead, UInt8.lt_iff_toNat_lt, ← UInt8.toNat_inj, hn, UInt8.reduceToNat]

theorem lead_of_two {n : Nat} (low : 0xC2 ≤ n) (high : n < 0xE0) :
    lead (UInt8.ofNat n) = .opens { bits := n % 32, further := 0 } := by
  rw [lead_ofNat (by omega), if_neg (by omega), if_neg (by omega), if_pos high]

theorem lead_of_three {n : Nat} (low : 0xE0 ≤ n) (high : n < 0xF0) :
    lead (UInt8.ofNat n) = .opens {
      bits := n % 16, further := 1
      low := if n = 0xE0 then 0xA0 else 0x80
      high := if n = 0xED then 0x9F else 0xBF } := by
  rw [lead_ofNat (by omega), if_neg (by omega), if_neg (by omega), if_neg (by omega)]
  by_cases h : n = 0xE0
  · subst h; rfl
  · by_cases h' : n = 0xED
    · subst h'; rfl
    · rw [if_neg h, if_neg h', if_pos high, if_neg h, if_neg h']

theorem lead_of_four {n : Nat} (low : 0xF0 ≤ n) (high : n ≤ 0xF4) :
    lead (UInt8.ofNat n) = .opens {
      bits := n % 8, further := 2
      low := if n = 0xF0 then 0x90 else 0x80
      high := if n = 0xF4 then 0x8F else 0xBF } := by
  rw [lead_ofNat (by omega), if_neg (by omega), if_neg (by omega), if_neg (by omega),
    if_neg (by omega), if_neg (by omega), if_neg (by omega)]
  by_cases h : n = 0xF0
  · subst h; rfl
  · by_cases h' : n = 0xF4
    · subst h'; rfl
    · rw [if_neg h, if_pos (by omega), if_neg h, if_neg h']

/-! ### Following bytes -/

theorem symbolsFrom_of_lead {b : UInt8} {p : Pending} (h : lead b = .opens p)
    (rest : List UInt8) : symbolsFrom none (b :: rest) = symbolsFrom (some p) rest := by
  rw [symbolsFrom, h]

/-- A following byte within its bounds brings six bits. -/
theorem within_bounds {p : Pending} {n : Nat} (low : p.low.toNat ≤ n + 128)
    (high : n + 128 ≤ p.high.toNat) (hn : n < 64) :
    (p.low ≤ UInt8.ofNat (n + 128) ∧ UInt8.ofNat (n + 128) ≤ p.high) ∧
      (UInt8.ofNat (n + 128)).toNat % 64 = n := by
  have hb : (UInt8.ofNat (n + 128)).toNat = n + 128 :=
    UInt8.toNat_ofNat_of_lt (show n + 128 < 256 by omega)
  rw [UInt8.le_iff_toNat_le, UInt8.le_iff_toNat_le, hb]
  exact ⟨⟨low, high⟩, by omega⟩

section

variable {p : Pending} {n : Nat} (low : p.low.toNat ≤ n + 128) (high : n + 128 ≤ p.high.toNat)
  (hn : n < 64) (rest : List UInt8)
include low high hn

/-- The last byte completes the character. -/
theorem symbolsFrom_of_last (h : p.further = 0) :
    symbolsFrom (some p) (UInt8.ofNat (n + 128) :: rest) =
      some (Char.ofNat (p.bits * 64 + n)) :: symbolsFrom none rest := by
  obtain ⟨hbounds, hbits⟩ := within_bounds low high hn
  rw [symbolsFrom, if_pos hbounds, hbits, h]

theorem symbolsFrom_of_further {further : Nat} (h : p.further = further + 1) :
    symbolsFrom (some p) (UInt8.ofNat (n + 128) :: rest) =
      symbolsFrom (some { bits := p.bits * 64 + n, further }) rest := by
  obtain ⟨hbounds, hbits⟩ := within_bounds low high hn
  rw [symbolsFrom, if_pos hbounds, hbits, h]

end

/-! ### Characters -/

/-- The code points of characters. -/
theorem toNat_valid (c : Char) : c.toNat < 0xD800 ∨ 0xDFFF < c.toNat ∧ c.toNat < 0x110000 := c.valid

section

variable {v : Nat} (rest : List UInt8)

theorem symbolsFrom_of_one (h : v < 0x80) :
    symbolsFrom none (UInt8.ofNat v :: rest) = some (Char.ofNat v) :: symbolsFrom none rest := by
  rw [symbolsFrom, lead_ofNat (by omega), if_pos h]

theorem symbolsFrom_of_two (low : 0x80 ≤ v) (high : v < 0x800) :
    symbolsFrom none
        (UInt8.ofNat (v / 64 % 32 + 192) :: UInt8.ofNat (v % 64 + 128) :: rest) =
      some (Char.ofNat v) :: symbolsFrom none rest := by
  have hbits : (v / 64 % 32 + 192) % 32 * 64 + v % 64 = v := by omega
  rw [symbolsFrom_of_lead (lead_of_two (by omega) (by omega)),
    symbolsFrom_of_last (Nat.le_add_left ..) (by simp; omega) (by omega) rest rfl, hbits]

/-- A surrogate is no character, so the second byte stays below its bound. -/
theorem symbolsFrom_of_three (low : 0x800 ≤ v) (high : v < 0x10000)
    (valid : v < 0xD800 ∨ 0xDFFF < v) :
    symbolsFrom none (UInt8.ofNat (v / 4096 % 16 + 224) :: UInt8.ofNat (v / 64 % 64 + 128) ::
        UInt8.ofNat (v % 64 + 128) :: rest) =
      some (Char.ofNat v) :: symbolsFrom none rest := by
  have hbits : ((v / 4096 % 16 + 224) % 16 * 64 + v / 64 % 64) * 64 + v % 64 = v := by omega
  rw [symbolsFrom_of_lead (lead_of_three (by omega) (by omega)),
    symbolsFrom_of_further ?_ ?_ (by omega) _ rfl]
  · rw [symbolsFrom_of_last (Nat.le_add_left ..) (by simp; omega) (by omega) rest rfl, hbits]
  · simp only
    split
    · simp; omega
    · simp
  · simp only
    split
    · simp; omega
    · simp; omega

theorem symbolsFrom_of_four (low : 0x10000 ≤ v) (high : v < 0x110000) :
    symbolsFrom none (UInt8.ofNat (v / 262144 % 8 + 240) :: UInt8.ofNat (v / 4096 % 64 + 128) ::
        UInt8.ofNat (v / 64 % 64 + 128) :: UInt8.ofNat (v % 64 + 128) :: rest) =
      some (Char.ofNat v) :: symbolsFrom none rest := by
  have hbits : (((v / 262144 % 8 + 240) % 8 * 64 + v / 4096 % 64) * 64 + v / 64 % 64) * 64 +
      v % 64 = v := by omega
  rw [symbolsFrom_of_lead (lead_of_four (by omega) (by omega)),
    symbolsFrom_of_further ?_ ?_ (by omega) _ rfl]
  · rw [symbolsFrom_of_further (Nat.le_add_left ..) (by simp; omega) (by omega) _ rfl,
      symbolsFrom_of_last (Nat.le_add_left ..) (by simp; omega) (by omega) rest rfl, hbits]
  · simp only
    split
    · simp; omega
    · simp
  · simp only
    split
    · simp; omega
    · simp; omega

end

/-- The bytes of a character are read back as the character. -/
theorem symbolsFrom_utf8EncodeChar (c : Char) (rest : List UInt8) :
    symbolsFrom none (String.utf8EncodeChar c ++ rest) = some c :: symbolsFrom none rest := by
  have hvalid := toNat_valid c
  have hc : c.val.toNat = c.toNat := rfl
  have hchar : some c :: symbolsFrom none rest =
      some (Char.ofNat c.toNat) :: symbolsFrom none rest := by rw [Char.ofNat_toNat]
  rw [hchar]
  unfold String.utf8EncodeChar
  simp only [hc]
  split
  · exact symbolsFrom_of_one rest (by omega)
  · split
    · exact symbolsFrom_of_two rest (by omega) (by omega)
    · split
      · exact symbolsFrom_of_three rest (by omega) (by omega) (by omega)
      · exact symbolsFrom_of_four rest (by omega) (by omega)

/-- **The bytes of a text are read back** as its characters. -/
theorem symbols_encode (s : String) : symbols (encode s) = s.toList.map some := by
  rw [symbols, encode]
  induction s.toList with
  | nil => rfl
  | cons c cs ih => rw [List.flatMap_cons, symbolsFrom_utf8EncodeChar, ih, List.map_cons]

theorem decode?_encode (s : String) : decode? (encode s) = some s := by
  have hall : ∀ cs : List Char, (cs.map some).mapM id = some cs := by
    intro cs
    induction cs with
    | nil => rfl
    | cons c cs ih => simp only [List.map_cons, List.mapM_cons, ih, id, bind, Option.bind_some, pure]
  rw [decode?, symbols_encode, hall, Option.map_some, String.ofList_toList]

/-! ### Well-formed bytes -/

/-- A character begun goes on with a byte within its bounds, if no symbol is malformed. -/
theorem exists_of_symbolsFrom_some {p : Pending} {bytes : List UInt8} {cs : List Char}
    (h : symbolsFrom (some p) bytes = cs.map some) (hlow : 0x80 ≤ p.low.toNat)
    (hhigh : p.high.toNat ≤ 0xBF) : ∃ n rest,
      bytes = UInt8.ofNat (n + 128) :: rest ∧ n < 64 ∧ p.low.toNat ≤ n + 128 ∧
        n + 128 ≤ p.high.toNat := by
  cases bytes with
  | nil => cases cs <;> cases h
  | cons b rest =>
    by_cases hb : p.low ≤ b ∧ b ≤ p.high
    · rw [UInt8.le_iff_toNat_le, UInt8.le_iff_toNat_le] at hb
      have hn : b.toNat - 128 + 128 = b.toNat := by omega
      refine ⟨b.toNat - 128, rest, ?_, by omega, by omega, by omega⟩
      rw [hn, UInt8.ofNat_toNat]
    · rw [symbolsFrom, if_neg hb] at h
      cases cs <;> cases h

theorem toNat_ofNat {v : Nat} (h : v < 0xD800 ∨ 0xDFFF < v ∧ v < 0x110000) :
    (Char.ofNat v).toNat = v := by
  rw [Char.ofNat, dif_pos h]
  rfl

/-- The bytes of a character by its code point. -/
theorem utf8EncodeChar_ofNat {v : Nat} (h : v < 0xD800 ∨ 0xDFFF < v ∧ v < 0x110000) :
    String.utf8EncodeChar (Char.ofNat v) =
      if v < 0x80 then [UInt8.ofNat v]
      else if v < 0x800 then [UInt8.ofNat (v / 64 % 32 + 192), UInt8.ofNat (v % 64 + 128)]
      else if v < 0x10000 then
        [UInt8.ofNat (v / 4096 % 16 + 224), UInt8.ofNat (v / 64 % 64 + 128),
          UInt8.ofNat (v % 64 + 128)]
      else
        [UInt8.ofNat (v / 262144 % 8 + 240), UInt8.ofNat (v / 4096 % 64 + 128),
          UInt8.ofNat (v / 64 % 64 + 128), UInt8.ofNat (v % 64 + 128)] := by
  have hv : (Char.ofNat v).val.toNat = v := toNat_ofNat h
  unfold String.utf8EncodeChar
  simp only [hv, Nat.lt_succ_iff.symm]

section

variable {n : Nat} {rest : List UInt8} {cs : List Char}

theorem exists_char_of_two (low : 0xC2 ≤ n) (high : n < 0xE0)
    (h : symbolsFrom none (UInt8.ofNat n :: rest) = cs.map some) :
    ∃ c more, UInt8.ofNat n :: rest = String.utf8EncodeChar c ++ more := by
  rw [symbolsFrom_of_lead (lead_of_two low high)] at h
  obtain ⟨n₁, rest, rfl, hn₁, -, -⟩ :=
    exists_of_symbolsFrom_some h (Nat.le_refl 0x80) (Nat.le_refl 0xBF)
  refine ⟨Char.ofNat (n % 32 * 64 + n₁), rest, ?_⟩
  have hfirst : (n % 32 * 64 + n₁) / 64 % 32 + 192 = n := by omega
  have hsecond : (n % 32 * 64 + n₁) % 64 = n₁ := by omega
  rw [utf8EncodeChar_ofNat (by omega), if_neg (by omega), if_pos (by omega), hfirst, hsecond]
  rfl

theorem exists_char_of_three (low : 0xE0 ≤ n) (high : n < 0xF0)
    (h : symbolsFrom none (UInt8.ofNat n :: rest) = cs.map some) :
    ∃ c more, UInt8.ofNat n :: rest = String.utf8EncodeChar c ++ more := by
  rw [symbolsFrom_of_lead (lead_of_three low high)] at h
  have hlow : (if n = 0xE0 then 0xA0 else 0x80 : UInt8).toNat =
      if n = 0xE0 then 0xA0 else 0x80 := by split <;> rfl
  have hhigh : (if n = 0xED then 0x9F else 0xBF : UInt8).toNat =
      if n = 0xED then 0x9F else 0xBF := by split <;> rfl
  obtain ⟨n₁, rest, rfl, hn₁, hlow₁, hhigh₁⟩ := exists_of_symbolsFrom_some h
    (by rw [hlow]; split <;> decide) (by rw [hhigh]; split <;> decide)
  rw [symbolsFrom_of_further hlow₁ hhigh₁ hn₁ _ rfl] at h
  obtain ⟨n₂, rest, rfl, hn₂, -, -⟩ :=
    exists_of_symbolsFrom_some h (Nat.le_refl 0x80) (Nat.le_refl 0xBF)
  simp only [hlow, hhigh] at hlow₁ hhigh₁
  refine ⟨Char.ofNat ((n % 16 * 64 + n₁) * 64 + n₂), rest, ?_⟩
  generalize hv : (n % 16 * 64 + n₁) * 64 + n₂ = v
  have hfirst : v / 4096 % 16 + 224 = n := by omega
  have hsecond : v / 64 % 64 = n₁ := by omega
  have hthird : v % 64 = n₂ := by omega
  -- The bounds on the second byte keep out what is too short, and surrogates.
  have hleast : 0x800 ≤ v := by split at hlow₁ <;> omega
  have hvalid : v < 0xD800 ∨ 0xDFFF < v := by split at hhigh₁ <;> omega
  rw [utf8EncodeChar_ofNat (by omega), if_neg (by omega), if_neg (by omega), if_pos (by omega),
    hfirst, hsecond, hthird]
  rfl

theorem exists_char_of_four (low : 0xF0 ≤ n) (high : n ≤ 0xF4)
    (h : symbolsFrom none (UInt8.ofNat n :: rest) = cs.map some) :
    ∃ c more, UInt8.ofNat n :: rest = String.utf8EncodeChar c ++ more := by
  rw [symbolsFrom_of_lead (lead_of_four low high)] at h
  have hlow : (if n = 0xF0 then 0x90 else 0x80 : UInt8).toNat =
      if n = 0xF0 then 0x90 else 0x80 := by split <;> rfl
  have hhigh : (if n = 0xF4 then 0x8F else 0xBF : UInt8).toNat =
      if n = 0xF4 then 0x8F else 0xBF := by split <;> rfl
  obtain ⟨n₁, rest, rfl, hn₁, hlow₁, hhigh₁⟩ := exists_of_symbolsFrom_some h
    (by rw [hlow]; split <;> decide) (by rw [hhigh]; split <;> decide)
  rw [symbolsFrom_of_further hlow₁ hhigh₁ hn₁ _ rfl] at h
  obtain ⟨n₂, rest, rfl, hn₂, hlow₂, hhigh₂⟩ :=
    exists_of_symbolsFrom_some h (Nat.le_refl 0x80) (Nat.le_refl 0xBF)
  rw [symbolsFrom_of_further hlow₂ hhigh₂ hn₂ _ rfl] at h
  obtain ⟨n₃, rest, rfl, hn₃, -, -⟩ :=
    exists_of_symbolsFrom_some h (Nat.le_refl 0x80) (Nat.le_refl 0xBF)
  simp only [hlow, hhigh] at hlow₁ hhigh₁
  refine ⟨Char.ofNat (((n % 8 * 64 + n₁) * 64 + n₂) * 64 + n₃), rest, ?_⟩
  generalize hv : ((n % 8 * 64 + n₁) * 64 + n₂) * 64 + n₃ = v
  have hfirst : v / 262144 % 8 + 240 = n := by omega
  have hsecond : v / 4096 % 64 = n₁ := by omega
  have hthird : v / 64 % 64 = n₂ := by omega
  have hfourth : v % 64 = n₃ := by omega
  have hleast : 0x10000 ≤ v := by split at hlow₁ <;> omega
  have hmost : v < 0x110000 := by split at hhigh₁ <;> omega
  rw [utf8EncodeChar_ofNat (by omega), if_neg (by omega), if_neg (by omega), if_neg (by omega),
    hfirst, hsecond, hthird, hfourth]
  rfl

end

/-- Bytes without a malformed place begin with those of a character. -/
theorem exists_utf8EncodeChar {b : UInt8} {rest : List UInt8} {cs : List Char}
    (h : symbolsFrom none (b :: rest) = cs.map some) :
    ∃ c more, b :: rest = String.utf8EncodeChar c ++ more := by
  obtain ⟨n, hn, rfl⟩ : ∃ n < 256, UInt8.ofNat n = b := ⟨b.toNat, b.toNat_lt, UInt8.ofNat_toNat⟩
  by_cases hone : n < 0x80
  · refine ⟨Char.ofNat n, rest, ?_⟩
    rw [utf8EncodeChar_ofNat (by omega), if_pos hone]
    rfl
  by_cases htwo : 0xC2 ≤ n ∧ n < 0xE0
  · exact exists_char_of_two htwo.1 htwo.2 h
  by_cases hthree : 0xE0 ≤ n ∧ n < 0xF0
  · exact exists_char_of_three hthree.1 hthree.2 h
  by_cases hfour : 0xF0 ≤ n ∧ n ≤ 0xF4
  · exact exists_char_of_four hfour.1 hfour.2 h
  -- What is left are the bytes that begin nothing.
  have hstray : lead (UInt8.ofNat n) = .stray := by
    rw [lead_ofNat hn, if_neg hone]
    by_cases hlow : n < 0xC2
    · rw [if_pos hlow]
    · rw [if_neg hlow, if_neg (by omega), if_neg (by omega), if_neg (by omega), if_neg (by omega),
        if_neg (by omega), if_neg (by omega), if_neg (by omega)]
  rw [symbolsFrom, hstray] at h
  cases cs <;> cases h

/-- **Bytes without a malformed place are those of a text.** -/
theorem eq_encode_of_symbols {bytes : List UInt8} {cs : List Char}
    (h : symbols bytes = cs.map some) : bytes = encode (String.ofList cs) := by
  rw [encode, String.toList_ofList]
  rw [symbols] at h
  induction cs generalizing bytes with
  | nil =>
    cases bytes with
    | nil => rfl
    | cons b rest =>
      obtain ⟨c, more, heq⟩ := exists_utf8EncodeChar h
      rw [heq, symbolsFrom_utf8EncodeChar] at h
      cases h
  | cons c cs ih =>
    cases bytes with
    | nil => cases h
    | cons b rest =>
      obtain ⟨c', more, heq⟩ := exists_utf8EncodeChar h
      rw [heq, symbolsFrom_utf8EncodeChar, List.map_cons] at h
      obtain ⟨hc, hmore⟩ := List.cons.inj h
      cases hc
      rw [heq, List.flatMap_cons, ih hmore]

end Inspection.Text
