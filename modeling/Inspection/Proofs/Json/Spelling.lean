import Inspection.Json.Token
import Inspection.Proofs.Text.Utf8

/-!
# Json — the spellings of tokens

What a document may look like, character by character, apart from how it is read: `Lexeme` relates
a token to its spellings, and `Lexed` tokens to the texts that spell them one after another, with
blanks between them at will.  A character of a string may stand for itself or be escaped in
whichever way, a number may be any literal that denotes it.

* `pieces?_of_escaped`, `literal?_of_spelling`: strings and literals are read from any spelling, and
  end where it does.
* `tokens_of_lexed`: so are the tokens of a document, as long as no two numbers stand side by side.
-/

namespace Inspection

namespace Json.Token

open Text (Symbol)

/-! ### Strings -/

/-- The characters that may stand behind a backslash, and what they stand for there. -/
def shortEscapes : List (Char × Char) :=
  [('"', '"'), ('\\', '\\'), ('/', '/'), ('b', '\x08'), ('f', '\x0c'), ('n', '\n'), ('r', '\r'),
    ('t', '\t')]

/-- Four hexadecimal digits with a value. -/
def IsHex (cs : List Char) (n : Nat) : Prop :=
  ∃ a b c d, cs = [a, b, c, d] ∧ hex4? (some a) (some b) (some c) (some d) = some n

/-- The spellings of a text between the quotes of a string. -/
inductive Escaped : List Char → List Char → Prop
  | done : Escaped [] []
  /-- A character for itself. -/
  | plain {c : Char} {cs text : List Char} (printable : 0x20 ≤ c.toNat) (unquoted : c ≠ '"')
      (unescaped : c ≠ '\\') (more : Escaped cs text) : Escaped (c :: cs) (c :: text)
  | short {e c : Char} {cs text : List Char} (short : (e, c) ∈ shortEscapes)
      (more : Escaped cs text) : Escaped (c :: cs) ('\\' :: e :: text)
  /-- A character by its code point. -/
  | unit {c : Char} {cs digits text : List Char} (hex : IsHex digits c.toNat)
      (more : Escaped cs text) : Escaped (c :: cs) ('\\' :: 'u' :: digits ++ text)
  /-- A character beyond 16 bits by a surrogate pair. -/
  | pair {c : Char} {cs first second text : List Char} {high low : Nat} (highBound : high < 0x400)
      (lowBound : low < 0x400) (code : c.toNat = 0x10000 + high * 0x400 + low)
      (hexHigh : IsHex first (0xD800 + high)) (hexLow : IsHex second (0xDC00 + low))
      (more : Escaped cs text) :
      Escaped (c :: cs) ('\\' :: 'u' :: first ++ '\\' :: 'u' :: second ++ text)

theorem pieces?_unit {digits : List Char} {n : Nat} (h : IsHex digits n) (rest : List Symbol) :
    pieces? (some '\\' :: some 'u' :: (digits.map some ++ rest)) =
      (pieces? rest).map (onto (.unit n)) := by
  obtain ⟨a, b, c, d, rfl, hn⟩ := h
  simp only [List.map_cons, List.map_nil, List.cons_append, List.nil_append]
  rw [pieces?, hn, Option.bind_some]

theorem pieces?_short {e c : Char} (h : (e, c) ∈ shortEscapes) (rest : List Symbol) :
    pieces? (some '\\' :: some e :: rest) = (pieces? rest).map (onto (.char c)) := by
  have hescapes : ∀ p ∈ shortEscapes, p.1 ≠ 'u' ∧ shortEscape? (some p.1) = some p.2 := by decide
  obtain ⟨hu, he⟩ := hescapes _ h
  rw [pieces?, he, Option.bind_some]
  intro _ _ _ _ _ hs _
  exact hu (Option.some.inj hs)

/-- A unit that is no surrogate is a character. -/
theorem characters?_unit {n : Nat} (h : n < 0xD800 ∨ 0xDFFF < n) (ps : List Piece) :
    characters? (.unit n :: ps) = (characters? ps).map (Char.ofNat n :: ·) := by
  rw [characters?.eq_def]
  simp only
  rw [if_neg (by omega), if_neg (by omega)]

theorem characters?_pair {high low : Nat} (hh : high < 0x400) (hl : low < 0x400)
    (ps : List Piece) : characters? (.unit (0xD800 + high) :: .unit (0xDC00 + low) :: ps) =
      (characters? ps).map (Char.ofNat (0x10000 + high * 0x400 + low) :: ·) := by
  rw [characters?, if_pos (by omega), if_pos (by omega), Nat.add_sub_cancel_left,
    Nat.add_sub_cancel_left]

/-- **A string ends where its spelling does**, and is what it spells. -/
theorem pieces?_of_escaped {cs text : List Char} (h : Escaped cs text) (rest : List Symbol) :
    ∃ ps, pieces? (text.map some ++ some '"' :: rest) = some (ps, rest) ∧
      characters? ps = some cs := by
  induction h with
  | done => exact ⟨[], rfl, rfl⟩
  | @plain c cs text printable unquoted unescaped _ ih =>
    obtain ⟨ps, hp, hc⟩ := ih
    refine ⟨.char c :: ps, ?_, by rw [characters?, hc]; rfl⟩
    rw [List.map_cons, List.cons_append, pieces?, hp, if_neg (by simp [unescaped]; omega)]
    · rfl
    · exact unquoted
    · exact fun _ _ _ _ _ _ h => unescaped h
    · exact fun _ _ _ h => unescaped h
  | @short e c cs text short _ ih =>
    obtain ⟨ps, hp, hc⟩ := ih
    refine ⟨.char c :: ps, ?_, by rw [characters?, hc]; rfl⟩
    rw [List.map_cons, List.map_cons, List.cons_append, List.cons_append, pieces?_short short, hp]
    rfl
  | @unit c cs digits text hex _ ih =>
    obtain ⟨ps, hp, hc⟩ := ih
    refine ⟨.unit c.toNat :: ps, ?_, ?_⟩
    · simp only [List.cons_append, List.map_cons, List.map_append, List.append_assoc]
      rw [pieces?_unit hex, hp]
      rfl
    · have hvalid := Text.toNat_valid c
      rw [characters?_unit (by omega), hc, Char.ofNat_toNat]
      rfl
  | @pair c cs first second text high low highBound lowBound code hexHigh hexLow _ ih =>
    obtain ⟨ps, hp, hc⟩ := ih
    refine ⟨.unit (0xD800 + high) :: .unit (0xDC00 + low) :: ps, ?_, ?_⟩
    · simp only [List.cons_append, List.map_cons, List.map_append, List.append_assoc]
      rw [pieces?_unit hexHigh, pieces?_unit hexLow, hp]
      rfl
    · rw [characters?_pair highBound lowBound, hc, ← code, Char.ofNat_toNat]
      rfl

/-! ### Numbers -/

/-- Digits, of which there is at least one. -/
structure IsRun (ds : List Nat) : Prop where
  nonempty : ds ≠ []
  decimal : ∀ d ∈ ds, d < 10

/-- The writing of digits. -/
def writeDigits (ds : List Nat) : List Char := ds.map Nat.digitChar

/-- The spellings of the part behind the point. -/
inductive FractionText : Option (List Nat) → List Char → Prop
  | absent : FractionText none []
  | behind {ds : List Nat} (run : IsRun ds) : FractionText (some ds) ('.' :: writeDigits ds)

/-- The spellings of the exponent. -/
inductive ExponentText : Option (Bool × List Nat) → List Char → Prop
  | absent : ExponentText none []
  | plain {e : Char} {ds : List Nat} (mark : e = 'e' ∨ e = 'E') (run : IsRun ds) :
      ExponentText (some (false, ds)) (e :: writeDigits ds)
  | plus {e : Char} {ds : List Nat} (mark : e = 'e' ∨ e = 'E') (run : IsRun ds) :
      ExponentText (some (false, ds)) (e :: '+' :: writeDigits ds)
  | minus {e : Char} {ds : List Nat} (mark : e = 'e' ∨ e = 'E') (run : IsRun ds) :
      ExponentText (some (true, ds)) (e :: '-' :: writeDigits ds)

/-- The spellings of a literal.  The digits before the point begin with no zero, but for zero
itself. -/
inductive LiteralText : NumberLiteral → List Char → Prop
  | parts {negative : Bool} {whole : List Nat} {fraction : Option (List Nat)}
      {exponent : Option (Bool × List Nat)} {behind power : List Char} (run : IsRun whole)
      (unpadded : whole.head? = some 0 → whole = [0]) (fractionText : FractionText fraction behind)
      (exponentText : ExponentText exponent power) :
      LiteralText ⟨negative, whole, fraction, exponent⟩
        ((if negative then ['-'] else []) ++ (writeDigits whole ++ (behind ++ power)))

/-- A number before this ends. -/
def EndsNumber (rest : List Symbol) : Prop :=
  ∀ s ∈ rest.head?, digit? s = none ∧ s ≠ some '.' ∧ s ≠ some 'e' ∧ s ≠ some 'E'

/-- Digits before this end. -/
def EndsRun (rest : List Symbol) : Prop := ∀ s ∈ rest.head?, digit? s = none

theorem EndsNumber.run {rest : List Symbol} (h : EndsNumber rest) : EndsRun rest :=
  fun s hs => (h s hs).1

theorem digit?_digitChar {d : Nat} (h : d < 10) : digit? (some d.digitChar) = some d :=
  Text.digit?_digitChar h

theorem digits_append {ds : List Nat} (h : ∀ d ∈ ds, d < 10) {rest : List Symbol}
    (hr : EndsRun rest) : digits ((writeDigits ds).map some ++ rest) = (ds, rest) := by
  induction ds with
  | nil =>
    cases rest with
    | nil => rfl
    | cons s rest =>
      have hs : digit? s = none := hr s rfl
      simp only [writeDigits, List.map_nil, List.nil_append, digits, hs]
  | cons d ds ih =>
    have ih := ih fun d hd => h d (List.mem_cons_of_mem _ hd)
    unfold writeDigits at ih ⊢
    simp only [List.map_cons, List.cons_append, digits, digit?_digitChar (h d List.mem_cons_self),
      ih]

theorem someDigits?_append {ds : List Nat} (run : IsRun ds) {rest : List Symbol}
    (hr : EndsRun rest) : someDigits? ((writeDigits ds).map some ++ rest) = some (ds, rest) := by
  rw [someDigits?, digits_append run.decimal hr]
  cases ds with
  | nil => exact absurd rfl run.nonempty
  | cons d ds => rfl

theorem whole?_append {ds : List Nat} (run : IsRun ds) (unpadded : ds.head? = some 0 → ds = [0])
    {rest : List Symbol} (hr : EndsRun rest) :
    whole? ((writeDigits ds).map some ++ rest) = some (ds, rest) := by
  rw [whole?, someDigits?_append run hr]
  split
  next heq =>
    cases heq
    cases unpadded rfl
  next => rfl

theorem fraction?_append {fraction : Option (List Nat)} {behind : List Char}
    (h : FractionText fraction behind) {rest : List Symbol} (hr : EndsRun rest)
    (hpoint : ∀ s ∈ rest.head?, s ≠ some '.') :
    fraction? (behind.map some ++ rest) = some (fraction, rest) := by
  cases h with
  | absent =>
    rw [List.map_nil, List.nil_append, fraction?]
    rintro rest' rfl
    exact hpoint _ rfl rfl
  | behind run =>
    rw [List.map_cons, List.cons_append, fraction?, someDigits?_append run hr]
    rfl

/-- A run begins with a digit. -/
theorem writeDigits_eq_cons {ds : List Nat} (run : IsRun ds) :
    ∃ d c text, d < 10 ∧ c = d.digitChar ∧ writeDigits ds = c :: text := by
  cases ds with
  | nil => exact absurd rfl run.nonempty
  | cons d ds => exact ⟨d, _, _, run.decimal d List.mem_cons_self, rfl, rfl⟩

theorem exponent?_of_unsigned {e c : Char} (mark : e = 'e' ∨ e = 'E') (plus : c ≠ '+')
    (minus : c ≠ '-') (rest : List Symbol) : exponent? (some e :: some c :: rest) =
      (someDigits? (some c :: rest)).map fun (ds, rest) => (some (false, ds), rest) := by
  rcases mark with rfl | rfl
  all_goals
    rw [exponent?]
    · rintro _ h
      exact plus (Option.some.inj (List.cons.inj h).1)
    · rintro _ h
      exact minus (Option.some.inj (List.cons.inj h).1)

theorem exponent?_append {exponent : Option (Bool × List Nat)} {power : List Char}
    (h : ExponentText exponent power) {rest : List Symbol} (hr : EndsNumber rest) :
    exponent? (power.map some ++ rest) = some (exponent, rest) := by
  cases h with
  | absent =>
    have he : ∀ more, rest ≠ some 'e' :: more := by
      rintro more rfl
      exact (hr _ rfl).2.2.1 rfl
    have hE : ∀ more, rest ≠ some 'E' :: more := by
      rintro more rfl
      exact (hr _ rfl).2.2.2 rfl
    rw [List.map_nil, List.nil_append, exponent?]
    all_goals first | exact fun _ => he _ | exact fun _ => hE _
  | plain mark run =>
    obtain ⟨d, c, text, hd, hc, ht⟩ := writeDigits_eq_cons run
    have hdigits := someDigits?_append run hr.run
    have hplus : c ≠ '+' := by
      rintro rfl
      cases hc.symm ▸ digit?_digitChar hd
    have hminus : c ≠ '-' := by
      rintro rfl
      cases hc.symm ▸ digit?_digitChar hd
    rw [ht, List.map_cons, List.cons_append] at hdigits
    rw [ht, List.map_cons, List.map_cons, List.cons_append, List.cons_append,
      exponent?_of_unsigned mark hplus hminus, hdigits]
    rfl
  | plus mark run =>
    rcases mark with rfl | rfl
    all_goals
      rw [List.map_cons, List.map_cons, List.cons_append, List.cons_append, exponent?,
        someDigits?_append run hr.run]
      rfl
  | minus mark run =>
    rcases mark with rfl | rfl
    all_goals
      rw [List.map_cons, List.map_cons, List.cons_append, List.cons_append, exponent?,
        someDigits?_append run hr.run]
      rfl

/-- Behind the point there are digits, and no more before the exponent. -/
theorem ends_of_fractionText {fraction : Option (List Nat)} {behind : List Char}
    (h : FractionText fraction behind) {rest : List Symbol} (hr : EndsRun rest) :
    EndsRun (behind.map some ++ rest) := by
  cases h with
  | absent => exact hr
  | behind =>
    rintro _ ⟨⟩
    rfl

theorem ends_of_exponentText {exponent : Option (Bool × List Nat)} {power : List Char}
    (h : ExponentText exponent power) {rest : List Symbol} (hr : EndsNumber rest) :
    ∀ s ∈ (power.map some ++ rest).head?, digit? s = none ∧ s ≠ some '.' := by
  have hmark : ∀ {e : Char}, e = 'e' ∨ e = 'E' → digit? (some e) = none ∧ some e ≠ some '.' := by
    rintro e (rfl | rfl) <;> decide
  cases h with
  | absent => exact fun s hs => ⟨(hr s hs).1, (hr s hs).2.1⟩
  | plain mark =>
    rintro _ ⟨⟩
    exact hmark mark
  | plus mark =>
    rintro _ ⟨⟩
    exact hmark mark
  | minus mark =>
    rintro _ ⟨⟩
    exact hmark mark

/-- What begins with a digit is a number. -/
theorem begin?_digitChar (rest : List Symbol) : ∀ d : Fin 10,
    begin? (some (Nat.digitChar d) :: rest) = number? false (some (Nat.digitChar d) :: rest)
  | 0 | 1 | 2 | 3 | 4 | 5 | 6 | 7 | 8 | 9 => rfl

/-- **A number ends where its spelling does**, and is the literal that is spelled. -/
theorem begin?_literal {l : NumberLiteral} {text : List Char} (h : LiteralText l text)
    {rest : List Symbol} (hr : EndsNumber rest) :
    begin? (text.map some ++ rest) = some (.number l.value?, rest) := by
  cases h with
  | @parts negative whole fraction exponent behind power run unpadded hf he =>
    have hpower := ends_of_exponentText he hr
    have hbehind := ends_of_fractionText hf fun s hs => (hpower s hs).1
    have hliteral : number? negative ((writeDigits whole ++ (behind ++ power)).map some ++ rest) =
        some (.number (NumberLiteral.value? ⟨negative, whole, fraction, exponent⟩), rest) := by
      simp only [List.map_append, List.append_assoc]
      rw [number?, literal?, whole?_append run unpadded hbehind]
      simp only [bind, Option.bind_some]
      rw [fraction?_append hf (fun s hs => (hpower s hs).1) fun s hs => (hpower s hs).2]
      simp only [Option.bind_some]
      rw [exponent?_append he hr]
      rfl
    cases negative with
    | true => exact hliteral
    | false =>
      obtain ⟨d, c, digits, hd, rfl, ht⟩ := writeDigits_eq_cons run
      simp only [Bool.false_eq_true, if_false, List.nil_append, ht, List.cons_append,
        List.map_cons] at hliteral ⊢
      rw [← hliteral]
      exact begin?_digitChar _ ⟨d, hd⟩

/-! ### Tokens -/

/-- The spellings of a token. -/
inductive Lexeme : Token → List Char → Prop
  | openArray : Lexeme .openArray ['[']
  | closeArray : Lexeme .closeArray [']']
  | openObject : Lexeme .openObject ['\x7b']
  | closeObject : Lexeme .closeObject ['\x7d']
  | comma : Lexeme .comma [',']
  | colon : Lexeme .colon [':']
  | null : Lexeme .null ['n', 'u', 'l', 'l']
  | true : Lexeme (.bool true) ['t', 'r', 'u', 'e']
  | false : Lexeme (.bool false) ['f', 'a', 'l', 's', 'e']
  | number {l : NumberLiteral} {n : Number} {text : List Char} (literal : LiteralText l text)
      (value : l.value? = some n) : Lexeme (.number (some n)) text
  | string {s : String} {text : List Char} (escaped : Escaped s.toList text) :
      Lexeme (.string (some s)) ('"' :: (text ++ ['"']))

/-- Whether a token is a number. -/
def isNumber : Token → Bool
  | .number _ => .true
  | _ => .false

/-- **A token ends where its spelling does**, if no number goes on behind it. -/
theorem begin?_lexeme {t : Token} {text : List Char} (h : Lexeme t text) {rest : List Symbol}
    (hr : t.isNumber = .true → EndsNumber rest) :
    begin? (text.map some ++ rest) = some (t, rest) := by
  cases h with
  | number literal value => rw [begin?_literal literal (hr rfl), value]
  | @string s text escaped =>
    obtain ⟨ps, hp, hc⟩ := pieces?_of_escaped escaped rest
    simp only [List.map_cons, List.map_append, List.map_nil, List.cons_append, List.append_assoc,
      List.nil_append]
    rw [begin?, string?, hp, Option.map_some]
    simp only [hc, Option.map_some, String.ofList_toList]
  | _ => rfl

/-- Every spelling begins with something else than a blank, and with something that ends a number
unless it is one itself. -/
theorem lexeme_eq_cons {t : Token} {text : List Char} (h : Lexeme t text) : ∃ c more,
    text = c :: more ∧ isBlank (some c) = .false ∧
      (t.isNumber = .false → ∀ rest, EndsNumber (some c :: rest)) := by
  have hdigit : ∀ d : Fin 10, isBlank (some (Nat.digitChar d)) = .false := by decide
  cases h with
  | @number l n text literal value =>
    cases literal with
    | @parts negative whole fraction exponent behind power run =>
      obtain ⟨d, c, digits, hd, rfl, ht⟩ := writeDigits_eq_cons run
      cases negative with
      | true => exact ⟨'-', _, rfl, rfl, nofun⟩
      | false =>
        refine ⟨d.digitChar, digits ++ (behind ++ power), ?_, hdigit ⟨d, hd⟩, nofun⟩
        rw [ht]
        rfl
  | _ => exact ⟨_, _, rfl, rfl, fun _ _ s hs => by cases hs; decide⟩

end Json.Token

namespace Json

open Token

/-- Blanks between tokens. -/
def Blanks (gap : List Char) : Prop := ∀ c ∈ gap, isBlank (some c) = true

/-- The texts that spell some tokens, one after another, with blanks at will. -/
inductive Lexed : List Token → List Char → Prop
  | done {gap : List Char} (blanks : Blanks gap) : Lexed [] gap
  | token {t : Token} {ts : List Token} {gap text rest : List Char} (blanks : Blanks gap)
      (lexeme : Lexeme t text) (more : Lexed ts rest) : Lexed (t :: ts) (gap ++ (text ++ rest))

/-- No two numbers stand side by side. -/
def NumbersApart : List Token → Prop
  | [] => True
  | t :: ts => (t.isNumber = true → ∀ t' ∈ ts.head?, t'.isNumber = false) ∧ NumbersApart ts

theorem dropWhile_isBlank_append {gap : List Char} (h : Blanks gap) (rest : List Text.Symbol) :
    (gap.map some ++ rest).dropWhile isBlank = rest.dropWhile isBlank := by
  refine List.dropWhile_append_of_pos fun s hs => ?_
  obtain ⟨c, hc, rfl⟩ := List.mem_map.mp hs
  exact h c hc

theorem tokens_of_blanks {gap : List Char} (h : Blanks gap) : tokens (gap.map some) = [] := by
  have hdrop := dropWhile_isBlank_append h []
  rw [List.append_nil] at hdrop
  unfold tokens
  split
  next => rfl
  next heq => rw [hdrop] at heq; cases heq

/-- Blanks, a token, and the rest. -/
theorem tokens_of_begin {gap : List Char} (h : Blanks gap) {s : Text.Symbol}
    (hs : isBlank s = false) {more rest : List Text.Symbol} {t : Token}
    (hb : begin? (s :: more) = some (t, rest)) :
    tokens (gap.map some ++ (s :: more)) = t :: tokens rest := by
  have hdrop := dropWhile_isBlank_append h (s :: more)
  rw [List.dropWhile_cons_of_neg (by simp [hs])] at hdrop
  rw [tokens]
  split
  next heq => rw [hdrop] at heq; cases heq
  next heq =>
    rw [hdrop] at heq
    cases heq
    split
    next hn => rw [hb] at hn; cases hn; rfl
    next hn => rw [hb] at hn; cases hn

theorem endsNumber_of_blank {c : Char} (h : isBlank (some c) = true) (rest : List Text.Symbol) :
    EndsNumber (some c :: rest) := by
  rintro _ ⟨⟩
  simp only [isBlank, Bool.or_eq_true, decide_eq_true_eq, Option.some.injEq] at h
  rcases h with ((rfl | rfl) | rfl) | rfl <;> decide

theorem endsNumber_of_blanks {gap : List Char} (h : Blanks gap) {rest : List Text.Symbol}
    (hr : EndsNumber rest) : EndsNumber (gap.map some ++ rest) := by
  cases gap with
  | nil => exact hr
  | cons c gap => exact endsNumber_of_blank (h c List.mem_cons_self) _

/-- What comes next ends a number, unless it is one. -/
theorem endsNumber_of_lexed {ts : List Token} {text : List Char} (h : Lexed ts text)
    (hn : ∀ t ∈ ts.head?, t.isNumber = false) : EndsNumber (text.map some) := by
  cases h with
  | done blanks =>
    rw [← List.append_nil (List.map ..)]
    exact endsNumber_of_blanks blanks nofun
  | token blanks lexeme =>
    obtain ⟨c, more, rfl, -, hends⟩ := lexeme_eq_cons lexeme
    rw [List.map_append]
    exact endsNumber_of_blanks blanks (hends (hn _ rfl) _)

/-- **The tokens of a text** are those that it spells. -/
theorem tokens_of_lexed {ts : List Token} {text : List Char} (h : Lexed ts text)
    (apart : NumbersApart ts) : tokens (text.map some) = ts := by
  induction h with
  | done blanks => exact tokens_of_blanks blanks
  | @token t ts gap text rest blanks lexeme more ih =>
    obtain ⟨c, text', rfl, hc, -⟩ := lexeme_eq_cons lexeme
    have hbegin := begin?_lexeme lexeme fun hn => endsNumber_of_lexed more (apart.1 hn)
    rw [List.map_append, List.map_append]
    rw [List.map_cons, List.cons_append] at hbegin ⊢
    rw [tokens_of_begin blanks hc hbegin, ih apart.2]

end Json

end Inspection
