import Inspection.Proofs.Json.Spelling

/-!
# Json — what tokens are read from

A text is read as tokens only if it spells them.  A string or a number may be well formed and have
no value, as one half of a surrogate pair or what is out of range; of all other tokens that are
read, what they were read from is a spelling.

* `escaped_of_pieced`: strings are spelled by their pieces, surrogate pairs put together.
* `lexeme_of_begin?`: a token that is read is spelled.
* `lexed_of_tokens`: so are the tokens of a text, with blanks between them.
-/

namespace Inspection

namespace Json.Token

open Text (Symbol)

/-! ### Strings -/

theorem hexValue?_eq_some {s : Symbol} {n : Nat} (h : hexValue? s = some n) :
    n < 16 ∧ ∃ c, s = some c := by
  obtain ⟨c, rfl, hc⟩ := Option.bind_eq_some_iff.mp h
  have hle : ∀ {a b : Char}, a ≤ b → a.toNat ≤ b.toNat := fun h => h
  refine ⟨?_, c, rfl⟩
  split at hc
  next hdigit =>
    cases hc
    have hbounds := Char.isDigit_iff_toNat.mp hdigit
    simp only [Char.reduceToNat] at hbounds ⊢
    omega
  split at hc
  next hlower =>
    cases hc
    have hbounds := And.intro (hle hlower.1) (hle hlower.2)
    simp only [Char.reduceToNat] at hbounds ⊢
    omega
  split at hc
  next hupper =>
    cases hc
    have hbounds := And.intro (hle hupper.1) (hle hupper.2)
    simp only [Char.reduceToNat] at hbounds ⊢
    omega
  next => cases hc

theorem hex4?_eq_some {a b c d : Symbol} {n : Nat} (h : hex4? a b c d = some n) :
    ∃ digits : List Char, [a, b, c, d] = digits.map some ∧ IsHex digits n := by
  have hall := h
  simp only [hex4?, bind, Option.bind_eq_some_iff] at h
  obtain ⟨_, ha, _, hb, _, hc, _, hd, -⟩ := h
  obtain ⟨-, a, rfl⟩ := hexValue?_eq_some ha
  obtain ⟨-, b, rfl⟩ := hexValue?_eq_some hb
  obtain ⟨-, c, rfl⟩ := hexValue?_eq_some hc
  obtain ⟨-, d, rfl⟩ := hexValue?_eq_some hd
  exact ⟨[a, b, c, d], rfl, a, b, c, d, rfl, hall⟩

/-- Four digits make 16 bits. -/
theorem IsHex.lt {digits : List Char} {n : Nat} (h : IsHex digits n) : n < 0x10000 := by
  obtain ⟨a, b, c, d, -, h⟩ := h
  simp only [hex4?, bind, Option.bind_eq_some_iff, pure, Option.some.injEq] at h
  obtain ⟨_, ha, _, hb, _, hc, _, hd, rfl⟩ := h
  have ha := (hexValue?_eq_some ha).1
  have hb := (hexValue?_eq_some hb).1
  have hc := (hexValue?_eq_some hc).1
  have hd := (hexValue?_eq_some hd).1
  omega

theorem shortEscape?_eq_some {s : Symbol} {c : Char} (h : shortEscape? s = some c) :
    ∃ e, s = some e ∧ (e, c) ∈ shortEscapes := by
  unfold shortEscape? at h
  split at h
  all_goals cases h
  all_goals exact ⟨_, rfl, by decide⟩

/-- The texts of some pieces, each well formed. -/
inductive Pieced : List Piece → List Char → Prop
  | done : Pieced [] []
  | plain {c : Char} {ps : List Piece} {text : List Char} (printable : 0x20 ≤ c.toNat)
      (unquoted : c ≠ '"') (unescaped : c ≠ '\\') (more : Pieced ps text) :
      Pieced (.char c :: ps) (c :: text)
  | short {e c : Char} {ps : List Piece} {text : List Char} (short : (e, c) ∈ shortEscapes)
      (more : Pieced ps text) : Pieced (.char c :: ps) ('\\' :: e :: text)
  | unit {n : Nat} {ps : List Piece} {digits text : List Char} (hex : IsHex digits n)
      (more : Pieced ps text) : Pieced (.unit n :: ps) ('\\' :: 'u' :: digits ++ text)

theorem map_onto_eq_some {p : Piece} {found : Option (List Piece × List Symbol)}
    {ps : List Piece} {rest : List Symbol} (h : found.map (onto p) = some (ps, rest)) :
    ∃ ps', found = some (ps', rest) ∧ ps = p :: ps' := by
  obtain ⟨⟨ps', rest'⟩, rfl, heq⟩ := Option.map_eq_some_iff.mp h
  cases heq
  exact ⟨ps', rfl, rfl⟩

/-- What is read up to the closing quote is the text of its pieces. -/
theorem pieced_of_pieces? {symbols rest : List Symbol} {ps : List Piece}
    (h : pieces? symbols = some (ps, rest)) (hwell : ∀ p ∈ ps, p ≠ .ill) :
    ∃ text : List Char, symbols = text.map some ++ some '"' :: rest ∧ Pieced ps text := by
  fun_induction pieces? symbols generalizing ps with
  | case1 =>
    cases h
    exact ⟨[], rfl, .done⟩
  | case2 a b c d more ih =>
    obtain ⟨n, hn, h⟩ := Option.bind_eq_some_iff.mp h
    obtain ⟨ps', hp, rfl⟩ := map_onto_eq_some h
    obtain ⟨digits, hdigits, hex⟩ := hex4?_eq_some hn
    obtain ⟨text, rfl, hpieced⟩ := ih hp (List.forall_mem_cons.mp hwell).2
    refine ⟨_, ?_, .unit hex hpieced⟩
    simp only [List.map_cons, List.cons_append, List.map_append, ← hdigits, List.nil_append]
  | case3 s more _ ih =>
    obtain ⟨c, hc, h⟩ := Option.bind_eq_some_iff.mp h
    obtain ⟨ps', hp, rfl⟩ := map_onto_eq_some h
    obtain ⟨e, rfl, he⟩ := shortEscape?_eq_some hc
    obtain ⟨text, rfl, hpieced⟩ := ih hp (List.forall_mem_cons.mp hwell).2
    exact ⟨_, rfl, .short he hpieced⟩
  | case5 c more hquote _ _ hc ih =>
    obtain ⟨ps', hp, rfl⟩ := map_onto_eq_some h
    obtain ⟨text, rfl, hpieced⟩ := ih hp (List.forall_mem_cons.mp hwell).2
    rw [not_or, Nat.not_lt] at hc
    exact ⟨_, rfl, .plain hc.1 hquote hc.2 hpieced⟩
  | case6 more ih =>
    obtain ⟨ps', -, rfl⟩ := map_onto_eq_some h
    exact absurd rfl (List.forall_mem_cons.mp hwell).1
  | case4 | case7 => cases h

/-- Pieces that have characters are all well formed. -/
theorem ne_ill_of_characters? {ps : List Piece} {cs : List Char} (h : characters? ps = some cs) :
    ∀ p ∈ ps, p ≠ .ill := by
  fun_induction characters? ps generalizing cs with
  | case1 => nofun
  | case2 c rest ih =>
    obtain ⟨cs, hcs, -⟩ := Option.map_eq_some_iff.mp h
    exact List.forall_mem_cons.mpr ⟨nofun, ih hcs⟩
  | case3 n _ m rest _ ih =>
    obtain ⟨cs, hcs, -⟩ := Option.map_eq_some_iff.mp h
    exact List.forall_mem_cons.mpr ⟨nofun, List.forall_mem_cons.mpr ⟨nofun, ih hcs⟩⟩
  | case7 n rest _ _ ih =>
    obtain ⟨cs, hcs, -⟩ := Option.map_eq_some_iff.mp h
    exact List.forall_mem_cons.mpr ⟨nofun, ih hcs⟩
  | case4 | case5 | case6 | case8 => cases h

/-- **Pieces that have characters** spell them. -/
theorem escaped_of_pieced {ps : List Piece} {cs text : List Char} (h : characters? ps = some cs)
    (hpieced : Pieced ps text) : Escaped cs text := by
  fun_induction characters? ps generalizing cs text with
  | case1 =>
    cases h
    cases hpieced
    exact .done
  | case2 c rest ih =>
    obtain ⟨cs, hcs, rfl⟩ := Option.map_eq_some_iff.mp h
    cases hpieced with
    | plain printable unquoted unescaped more =>
      exact .plain printable unquoted unescaped (ih hcs more)
    | short short more => exact .short short (ih hcs more)
  | case3 n hn m rest hm ih =>
    obtain ⟨cs, hcs, rfl⟩ := Option.map_eq_some_iff.mp h
    cases hpieced with
    | @unit _ _ first _ hexHigh more =>
      cases more with
      | @unit _ _ second text hexLow more =>
        have hhigh : 0xD800 + (n - 0xD800) = n := by omega
        have hlow : 0xDC00 + (m - 0xDC00) = m := by omega
        have hpair := Escaped.pair (show n - 0xD800 < 0x400 by omega)
          (show m - 0xDC00 < 0x400 by omega) (Text.toNat_ofNat (by omega)) (hhigh.symm ▸ hexHigh)
          (hlow.symm ▸ hexLow) (ih hcs more)
        simpa using hpair
  | case7 n rest hhigh hlow ih =>
    obtain ⟨cs, hcs, rfl⟩ := Option.map_eq_some_iff.mp h
    cases hpieced with
    | unit hex more =>
      have hlt := hex.lt
      have hcode : (Char.ofNat n).toNat = n := Text.toNat_ofNat (by omega)
      exact .unit (hcode.symm ▸ hex) (ih hcs more)
  | case4 | case5 | case6 | case8 => cases h

/-- A token that has a value, where it is of a kind that has. -/
def IsValued : Token → Prop
  | .number n => n.isSome
  | .string s => s.isSome
  | .malformed => False
  | _ => True

/-- **A string that is read** is spelled by what is read. -/
theorem lexeme_of_string? {symbols rest : List Symbol} {t : Token}
    (h : string? symbols = some (t, rest)) (hv : t.IsValued) : ∃ text : List Char,
      some '"' :: symbols = text.map some ++ rest ∧ Lexeme t text := by
  obtain ⟨⟨ps, rest'⟩, hp, heq⟩ := Option.map_eq_some_iff.mp h
  cases heq
  obtain ⟨s, hs⟩ := Option.isSome_iff_exists.mp hv
  obtain ⟨cs, hcs, rfl⟩ := Option.map_eq_some_iff.mp hs
  obtain ⟨text, rfl, hpieced⟩ := pieced_of_pieces? hp (ne_ill_of_characters? hcs)
  refine ⟨'"' :: (text ++ ['"']), by simp, ?_⟩
  rw [hs]
  refine .string ?_
  rw [String.toList_ofList]
  exact escaped_of_pieced hcs hpieced

/-! ### Numbers -/

theorem eq_digitChar_of_digit? {s : Symbol} {d : Nat} (h : digit? s = some d) :
    d < 10 ∧ s = some d.digitChar := by
  obtain ⟨c, rfl, hc⟩ := Option.bind_eq_some_iff.mp h
  rw [Text.digit?] at hc
  split at hc
  next hdigit =>
    have hbounds := Char.isDigit_iff_toNat.mp hdigit
    simp only [Char.reduceToNat] at hbounds hc
    cases hc
    refine ⟨by omega, congrArg some (Char.toNat_inj.mp ?_)⟩
    rw [Nat.toNat_digitChar_of_lt_ten (by omega)]
    omega
  next => cases hc

theorem digits_eq {symbols rest : List Symbol} {ds : List Nat} (h : digits symbols = (ds, rest)) :
    symbols = (writeDigits ds).map some ++ rest ∧ ∀ d ∈ ds, d < 10 := by
  induction symbols generalizing ds with
  | nil =>
    cases h
    exact ⟨rfl, nofun⟩
  | cons s symbols ih =>
    rw [digits] at h
    split at h
    next d hd =>
      cases h
      obtain ⟨hlt, rfl⟩ := eq_digitChar_of_digit? hd
      obtain ⟨heq, hall⟩ := ih rfl
      refine ⟨?_, List.forall_mem_cons.mpr ⟨hlt, hall⟩⟩
      rw [writeDigits, List.map_cons, List.map_cons, List.cons_append, ← writeDigits, ← heq]
    next =>
      cases h
      exact ⟨rfl, nofun⟩

theorem someDigits?_eq_some {symbols rest : List Symbol} {ds : List Nat}
    (h : someDigits? symbols = some (ds, rest)) :
    symbols = (writeDigits ds).map some ++ rest ∧ IsRun ds := by
  rw [someDigits?] at h
  split at h
  next => cases h
  next hne =>
    obtain ⟨heq, hall⟩ := digits_eq (Option.some.inj h)
    refine ⟨heq, fun hnil => ?_, hall⟩
    subst hnil
    exact hne _ (Option.some.inj h)

theorem whole?_eq_some {symbols rest : List Symbol} {ds : List Nat}
    (h : whole? symbols = some (ds, rest)) :
    symbols = (writeDigits ds).map some ++ rest ∧ IsRun ds ∧ (ds.head? = some 0 → ds = [0]) := by
  rw [whole?] at h
  split at h
  next => cases h
  next hne =>
    obtain ⟨heq, run⟩ := someDigits?_eq_some h
    refine ⟨heq, run, fun hzero => ?_⟩
    cases ds with
    | nil => cases hzero
    | cons d more =>
      cases hzero
      cases more with
      | nil => rfl
      | cons d more => exact absurd h (hne d more rest)

theorem fraction?_eq_some {symbols rest : List Symbol} {fraction : Option (List Nat)}
    (h : fraction? symbols = some (fraction, rest)) : ∃ text : List Char,
      symbols = text.map some ++ rest ∧ FractionText fraction text := by
  unfold fraction? at h
  split at h
  next more =>
    obtain ⟨⟨ds, rest'⟩, hds, heq⟩ := Option.map_eq_some_iff.mp h
    cases heq
    obtain ⟨rfl, run⟩ := someDigits?_eq_some hds
    exact ⟨_, rfl, .behind run⟩
  next =>
    cases h
    exact ⟨[], rfl, .absent⟩

theorem exponent?_eq_some {symbols rest : List Symbol} {exponent : Option (Bool × List Nat)}
    (h : exponent? symbols = some (exponent, rest)) : ∃ text : List Char,
      symbols = text.map some ++ rest ∧ ExponentText exponent text := by
  unfold exponent? at h
  split at h
  case h_7 =>
    cases h
    exact ⟨[], rfl, .absent⟩
  all_goals
    obtain ⟨⟨ds, rest'⟩, hds, heq⟩ := Option.map_eq_some_iff.mp h
    cases heq
    obtain ⟨rfl, run⟩ := someDigits?_eq_some hds
  · exact ⟨_, rfl, .plus (.inl rfl) run⟩
  · exact ⟨_, rfl, .plus (.inr rfl) run⟩
  · exact ⟨_, rfl, .minus (.inl rfl) run⟩
  · exact ⟨_, rfl, .minus (.inr rfl) run⟩
  · exact ⟨_, rfl, .plain (.inl rfl) run⟩
  · exact ⟨_, rfl, .plain (.inr rfl) run⟩

/-- **A number that is read** is spelled by what is read. -/
theorem lexeme_of_number? {negative : Bool} {symbols rest : List Symbol} {t : Token}
    (h : number? negative symbols = some (t, rest)) (hv : t.IsValued) : ∃ text : List Char,
      (if negative then [some '-'] else []) ++ symbols = text.map some ++ rest ∧ Lexeme t text := by
  obtain ⟨⟨l, rest'⟩, hl, heq⟩ := Option.map_eq_some_iff.mp h
  cases heq
  obtain ⟨n, hn⟩ := Option.isSome_iff_exists.mp hv
  simp only [literal?, bind, Option.bind_eq_some_iff, pure, Option.some.injEq, Prod.exists] at hl
  obtain ⟨whole, _, hw, fraction, _, hf, exponent, _, he, hlast⟩ := hl
  obtain ⟨rfl, rfl⟩ := Prod.mk.inj hlast
  obtain ⟨rfl, run, unpadded⟩ := whole?_eq_some hw
  obtain ⟨behind, rfl, hbehind⟩ := fraction?_eq_some hf
  obtain ⟨power, rfl, hpower⟩ := exponent?_eq_some he
  rw [hn]
  refine ⟨_, ?_, .number (.parts run unpadded hbehind hpower) hn⟩
  cases negative <;> simp

/-! ### Tokens -/

/-- **A token that is read** is spelled by what is read. -/
theorem lexeme_of_begin? {symbols rest : List Symbol} {t : Token}
    (h : begin? symbols = some (t, rest)) (hv : t.IsValued) : ∃ text : List Char,
      symbols = text.map some ++ rest ∧ Lexeme t text := by
  unfold begin? at h
  split at h
  case h_7 => exact lexeme_of_string? h hv
  case h_8 => exact lexeme_of_number? h hv
  case h_12 => exact lexeme_of_number? h hv
  all_goals cases h
  · exact ⟨_, rfl, .openArray⟩
  · exact ⟨_, rfl, .closeArray⟩
  · exact ⟨_, rfl, .openObject⟩
  · exact ⟨_, rfl, .closeObject⟩
  · exact ⟨_, rfl, .comma⟩
  · exact ⟨_, rfl, .colon⟩
  · exact ⟨_, rfl, .null⟩
  · exact ⟨_, rfl, .true⟩
  · exact ⟨_, rfl, .false⟩

end Json.Token

namespace Json

open Token

/-- What a text begins with before its first token are blanks. -/
theorem exists_blanks (symbols : List Text.Symbol) : ∃ gap : List Char,
    symbols = gap.map some ++ symbols.dropWhile isBlank ∧ Blanks gap := by
  induction symbols with
  | nil => exact ⟨[], rfl, nofun⟩
  | cons s symbols ih =>
    by_cases hs : isBlank s = true
    · obtain ⟨gap, heq, hblanks⟩ := ih
      cases s with
      | none => cases hs
      | some c =>
        refine ⟨c :: gap, ?_, List.forall_mem_cons.mpr ⟨hs, hblanks⟩⟩
        rw [List.dropWhile_cons_of_pos hs, List.map_cons, List.cons_append, ← heq]
    · exact ⟨[], by rw [List.dropWhile_cons_of_neg hs]; rfl, nofun⟩

/-- **The tokens of a text are spelled by it**, if all of them have values. -/
theorem lexed_of_tokens {symbols : List Text.Symbol} (h : ∀ t ∈ tokens symbols, t.IsValued) :
    ∃ text : List Char, symbols = text.map some ∧ Lexed (tokens symbols) text := by
  fun_induction tokens symbols with
  | case1 symbols hdrop =>
    obtain ⟨gap, hgap, hblanks⟩ := exists_blanks symbols
    rw [hdrop, List.append_nil] at hgap
    exact ⟨gap, hgap, .done hblanks⟩
  | case2 symbols s following hdrop t rest hbegin _ ih =>
    obtain ⟨ht, hrest⟩ := List.forall_mem_cons.mp h
    obtain ⟨gap, hgap, hblanks⟩ := exists_blanks symbols
    obtain ⟨text, htext, hlexeme⟩ := lexeme_of_begin? hbegin ht
    obtain ⟨more, hmore, hlexed⟩ := ih hrest
    refine ⟨gap ++ (text ++ more), ?_, .token hblanks hlexeme hlexed⟩
    rw [hgap, hdrop, htext, hmore, List.map_append, List.map_append]
  | case3 => exact (h _ List.mem_cons_self).elim

end Json

end Inspection
