import Inspection.Json.Number
import Inspection.Text.Utf8

/-!
# Json — tokens

The lexical level of a document.  A token is the longest beginning of the text that makes one; a
text that begins with none ends the list with `malformed`.

A string or number may be well formed and still denote nothing: a lone surrogate, bytes that are no
UTF-8, a number out of range.  That is an error only to whoever wants its value, so such tokens
carry `none`.

* `begin?_length`: a token takes up part of the text.
-/

namespace Inspection.Json

open Text (Symbol)

/-- The tokens of a document. -/
inductive Token
  | openArray
  | closeArray
  | openObject
  | closeObject
  | comma
  | colon
  | null
  | bool (value : Bool)
  | number (value : Option Number)
  | string (value : Option String)
  | malformed

namespace Token

/-- The blanks between tokens. -/
def isBlank (s : Symbol) : Bool :=
  s = some ' ' || s = some '\n' || s = some '\t' || s = some '\r'

/-! ### Strings -/

/-- A place of a string: a character, a UTF-16 unit that an escape gives, or bytes that form no
character. -/
inductive Piece
  | char (c : Char)
  | unit (n : Nat)
  | ill

/-- The value of a hexadecimal digit. -/
def hexValue? (s : Symbol) : Option Nat :=
  s.bind fun c =>
    if c.isDigit then some (c.toNat - '0'.toNat)
    else if 'a' ≤ c ∧ c ≤ 'f' then some (c.toNat - 'a'.toNat + 10)
    else if 'A' ≤ c ∧ c ≤ 'F' then some (c.toNat - 'A'.toNat + 10)
    else none

/-- The value of four hexadecimal digits. -/
def hex4? (a b c d : Symbol) : Option Nat := do
  let a ← hexValue? a
  let b ← hexValue? b
  let c ← hexValue? c
  let d ← hexValue? d
  return ((a * 16 + b) * 16 + c) * 16 + d

/-- The character of a short escape. -/
def shortEscape? (s : Symbol) : Option Char :=
  match s with
  | some '"' => some '"'
  | some '\\' => some '\\'
  | some '/' => some '/'
  | some 'b' => some '\x08'
  | some 'f' => some '\x0c'
  | some 'n' => some '\n'
  | some 'r' => some '\r'
  | some 't' => some '\t'
  | _ => none

/-- Puts a piece before others. -/
def onto (p : Piece) (found : List Piece × List Symbol) : List Piece × List Symbol :=
  (p :: found.1, found.2)

/-- The pieces of a string up to the closing quote, and what follows it. -/
def pieces? : List Symbol → Option (List Piece × List Symbol)
  | some '"' :: rest => some ([], rest)
  | some '\\' :: some 'u' :: a :: b :: c :: d :: rest =>
    (hex4? a b c d).bind fun n => (pieces? rest).map (onto (.unit n))
  | some '\\' :: s :: rest =>
    (shortEscape? s).bind fun c => (pieces? rest).map (onto (.char c))
  | some c :: rest =>
    if c.toNat < 0x20 ∨ c = '\\' then none else (pieces? rest).map (onto (.char c))
  | none :: rest => (pieces? rest).map (onto .ill)
  | [] => none

/-- The characters of some pieces.  Two units of a surrogate pair make one character; any other
surrogate makes none. -/
def characters? : List Piece → Option (List Char)
  | [] => some []
  | .char c :: rest => (characters? rest).map (c :: ·)
  | .unit n :: rest =>
    if 0xD800 ≤ n ∧ n < 0xDC00 then
      match rest with
      | .unit m :: rest =>
        if 0xDC00 ≤ m ∧ m < 0xE000 then
          (characters? rest).map
            (Char.ofNat (0x10000 + (n - 0xD800) * 0x400 + (m - 0xDC00)) :: ·)
        else none
      | _ => none
    else if 0xDC00 ≤ n ∧ n < 0xE000 then none
    else (characters? rest).map (Char.ofNat n :: ·)
  | .ill :: _ => none

/-! ### Numbers -/

/-- The decimal digit of a symbol. -/
def digit? (s : Symbol) : Option Nat := s.bind Text.digit?

/-- The digits that a text begins with, and the rest. -/
def digits : List Symbol → List Nat × List Symbol
  | [] => ([], [])
  | s :: rest =>
    match digit? s with
    | some d => (d :: (digits rest).1, (digits rest).2)
    | none => ([], s :: rest)

/-- Digits of which there is at least one. -/
def someDigits? (text : List Symbol) : Option (List Nat × List Symbol) :=
  match digits text with
  | ([], _) => none
  | found => some found

/-- The digits before the point: a zero alone, or a run that does not begin with zero. -/
def whole? (text : List Symbol) : Option (List Nat × List Symbol) :=
  match someDigits? text with
  | some (0 :: _ :: _, _) => none
  | found => found

/-- The point and the digits behind it, if there is a point. -/
def fraction? : List Symbol → Option (Option (List Nat) × List Symbol)
  | some '.' :: rest => (someDigits? rest).map fun (ds, rest) => (some ds, rest)
  | text => some (none, text)

/-- The exponent, if there is one. -/
def exponent? : List Symbol → Option (Option (Bool × List Nat) × List Symbol)
  | some 'e' :: some '+' :: rest | some 'E' :: some '+' :: rest =>
    (someDigits? rest).map fun (ds, rest) => (some (false, ds), rest)
  | some 'e' :: some '-' :: rest | some 'E' :: some '-' :: rest =>
    (someDigits? rest).map fun (ds, rest) => (some (true, ds), rest)
  | some 'e' :: rest | some 'E' :: rest =>
    (someDigits? rest).map fun (ds, rest) => (some (false, ds), rest)
  | text => some (none, text)

/-- The literal that a text begins with, after its sign, and the rest. -/
def literal? (negative : Bool) (text : List Symbol) :
    Option (NumberLiteral × List Symbol) := do
  let (whole, text) ← whole? text
  let (fraction, text) ← fraction? text
  let (exponent, text) ← exponent? text
  return ({ negative, whole, fraction, exponent }, text)

/-! ### Tokens -/

/-- A string token, the opening quote being read. -/
def string? (text : List Symbol) : Option (Token × List Symbol) :=
  (pieces? text).map fun (pieces, rest) => (.string ((characters? pieces).map String.ofList), rest)

/-- A number token, the sign being read. -/
def number? (negative : Bool) (text : List Symbol) : Option (Token × List Symbol) :=
  (literal? negative text).map fun (literal, rest) => (.number literal.value?, rest)

/-- The token that a text begins with, and the rest of the text. -/
def begin? : List Symbol → Option (Token × List Symbol)
  | some '[' :: rest => some (.openArray, rest)
  | some ']' :: rest => some (.closeArray, rest)
  | some '\x7b' :: rest => some (.openObject, rest)
  | some '\x7d' :: rest => some (.closeObject, rest)
  | some ',' :: rest => some (.comma, rest)
  | some ':' :: rest => some (.colon, rest)
  | some '"' :: rest => string? rest
  | some '-' :: rest => number? true rest
  | some 'n' :: some 'u' :: some 'l' :: some 'l' :: rest => some (.null, rest)
  | some 't' :: some 'r' :: some 'u' :: some 'e' :: rest => some (.bool true, rest)
  | some 'f' :: some 'a' :: some 'l' :: some 's' :: some 'e' :: rest => some (.bool false, rest)
  | text => number? false text

theorem digits_length (text : List Symbol) : (digits text).2.length ≤ text.length := by
  induction text with
  | nil => simp [digits]
  | cons s rest ih =>
    simp only [digits]
    split
    · simp only [List.length_cons]
      omega
    · exact Nat.le_refl _

theorem someDigits?_length {text rest : List Symbol} {ds : List Nat}
    (h : someDigits? text = some (ds, rest)) : rest.length < text.length := by
  cases text with
  | nil => simp [someDigits?, digits] at h
  | cons s text =>
    have tail := digits_length text
    simp only [someDigits?, digits] at h
    cases hd : digit? s with
    | none => simp [hd] at h
    | some d =>
      simp only [hd, Option.some.injEq, Prod.mk.injEq] at h
      rw [← h.2, List.length_cons]
      omega

theorem whole?_length {text rest : List Symbol} {ds : List Nat}
    (h : whole? text = some (ds, rest)) : rest.length < text.length := by
  unfold whole? at h
  split at h
  · simp at h
  · exact someDigits?_length h

theorem fraction?_length {text rest : List Symbol} {ds : Option (List Nat)}
    (h : fraction? text = some (ds, rest)) : rest.length ≤ text.length := by
  unfold fraction? at h
  split at h
  · obtain ⟨⟨found, rest'⟩, hf, he⟩ := Option.map_eq_some_iff.mp h
    have := someDigits?_length hf
    cases he
    simp only [List.length_cons]
    omega
  · cases h
    exact Nat.le_refl _

theorem exponent?_length {text rest : List Symbol} {e : Option (Bool × List Nat)}
    (h : exponent? text = some (e, rest)) : rest.length ≤ text.length := by
  unfold exponent? at h
  split at h <;>
    first
    | (obtain ⟨⟨found, rest'⟩, hf, he⟩ := Option.map_eq_some_iff.mp h
       have := someDigits?_length hf
       cases he
       simp only [List.length_cons]
       omega)
    | (cases h; exact Nat.le_refl _)

theorem number?_length {negative : Bool} {text rest : List Symbol} {t : Token}
    (h : number? negative text = some (t, rest)) : rest.length < text.length := by
  obtain ⟨⟨literal, rest'⟩, hl, he⟩ := Option.map_eq_some_iff.mp h
  cases he
  simp only [literal?, bind, Option.bind_eq_some_iff, pure, Option.some.injEq, Prod.exists] at hl
  obtain ⟨w, t₁, hw, f, t₂, hf, e, t₃, he, hr⟩ := hl
  have h₁ := whole?_length hw
  have h₂ := fraction?_length hf
  have h₃ := exponent?_length he
  cases hr
  omega

theorem pieces?_length {text rest : List Symbol} {ps : List Piece}
    (h : pieces? text = some (ps, rest)) : rest.length < text.length := by
  fun_induction pieces? text generalizing ps rest with
  | case1 rest' => cases h; simp
  | case2 a b c d rest' ih =>
    obtain ⟨n, -, h⟩ := Option.bind_eq_some_iff.mp h
    obtain ⟨found, hf, he⟩ := Option.map_eq_some_iff.mp h
    cases he
    have := ih hf
    simp only [List.length_cons]
    omega
  | case3 s rest' _ ih =>
    obtain ⟨n, -, h⟩ := Option.bind_eq_some_iff.mp h
    obtain ⟨found, hf, he⟩ := Option.map_eq_some_iff.mp h
    cases he
    have := ih hf
    simp only [List.length_cons]
    omega
  | case4 => simp at h
  | case5 c rest' _ _ _ _ ih =>
    obtain ⟨found, hf, he⟩ := Option.map_eq_some_iff.mp h
    cases he
    have := ih hf
    simp only [List.length_cons]
    omega
  | case6 rest' ih =>
    obtain ⟨found, hf, he⟩ := Option.map_eq_some_iff.mp h
    cases he
    have := ih hf
    simp only [List.length_cons]
    omega
  | case7 => simp at h

theorem begin?_length {text rest : List Symbol} {t : Token}
    (h : begin? text = some (t, rest)) : rest.length < text.length := by
  unfold begin? at h
  split at h <;>
    first
    | (cases h; simp only [List.length_cons]; omega)
    | exact Nat.lt_succ_of_lt (number?_length h)
    | exact number?_length h
    | (obtain ⟨⟨ps, rest'⟩, hp, he⟩ := Option.map_eq_some_iff.mp h
       have := pieces?_length hp
       cases he
       simp only [List.length_cons]
       omega)

end Token

/-- The tokens of a text. -/
def tokens (text : List Symbol) : List Token :=
  match h : text.dropWhile Token.isBlank with
  | [] => []
  | s :: following =>
    match next : Token.begin? (s :: following) with
    | some (t, rest) =>
      have : rest.length < text.length := by
        have := Token.begin?_length next
        have := (List.dropWhile_sublist Token.isBlank (l := text)).length_le
        rw [h] at this
        omega
      t :: tokens rest
    | none => [.malformed]
termination_by text.length

end Inspection.Json
