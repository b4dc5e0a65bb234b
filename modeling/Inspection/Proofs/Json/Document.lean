import Inspection.Json.Decode
import Inspection.Proofs.Json.Spelling

/-!
# Json — the texts of a value

The tokens of a value follow from its shape, and a text spells the value if it spells its tokens,
with blanks between them at will.  Whoever reads such a text gets the draft of the value, whole.

* `run_tokenize`: the machine goes over the tokens of a value as over one.
* `ofText_of_spelled`: the draft of a text is that of the value that it spells.
-/

namespace Inspection.Json

open Token

/-! ### The tokens and the draft of a value -/

mutual

/-- The tokens of a value. -/
def tokenize : Json → List Token
  | .null => [.null]
  | .bool b => [.bool b]
  | .number n => [.number (some n)]
  | .string s => [.string (some s)]
  | .array [] => [.openArray, .closeArray]
  | .array (item :: rest) => .openArray :: (tokenize item ++ (tokenizeItems rest ++ [.closeArray]))
  | .object [] => [.openObject, .closeObject]
  | .object ((key, value) :: rest) =>
    .openObject :: .string (some key) :: .colon ::
      (tokenize value ++ (tokenizeFields rest ++ [.closeObject]))

/-- The tokens of the further items of an array. -/
def tokenizeItems : List Json → List Token
  | [] => []
  | item :: rest => .comma :: (tokenize item ++ tokenizeItems rest)

/-- The tokens of the further fields of an object. -/
def tokenizeFields : List (String × Json) → List Token
  | [] => []
  | (key, value) :: rest =>
    .comma :: .string (some key) :: .colon :: (tokenize value ++ tokenizeFields rest)

end

mutual

/-- The draft of a value, whole. -/
def draft : Json → Draft
  | .null => .null
  | .bool b => .bool b
  | .number n => .number (some n)
  | .string s => .string (some s)
  | .array items => .array (draftItems items) true
  | .object fields => .object (draftFields fields) true none

/-- The drafts of the items of an array. -/
def draftItems : List Json → List Draft
  | [] => []
  | item :: rest => draft item :: draftItems rest

/-- The drafts of the fields of an object. -/
def draftFields : List (String × Json) → List (Option String × Draft)
  | [] => []
  | (key, value) :: rest => (some key, draft value) :: draftFields rest

end

/-- A text that spells a value, with blanks between the tokens at will. -/
def Spelled (v : Json) (text : List Char) : Prop := Lexed v.tokenize text

@[simp]
theorem draftItems_eq_map (items : List Json) : draftItems items = items.map draft := by
  induction items with
  | nil => rfl
  | cons item rest ih => rw [draftItems, ih, List.map_cons]

@[simp]
theorem draftFields_eq_map (fields : List (String × Json)) :
    draftFields fields = fields.map fun e => (some e.1, e.2.draft) := by
  induction fields with
  | nil => rfl
  | cons e rest ih => rw [draftFields, ih, List.map_cons]

/-! ### Numbers in the tokens of a value -/

mutual

/-- Behind a value there is no number, and within it numbers are parted. -/
theorem apart_tokenize : ∀ (v : Json) {ts : List Token}, NumbersApart ts →
    (∀ t ∈ ts.head?, t.isNumber = false) → NumbersApart (tokenize v ++ ts)
  | .null, _, h, _ | .bool _, _, h, _ | .string _, _, h, _ => ⟨nofun, h⟩
  | .number _, _, h, hn => ⟨fun _ => hn, h⟩
  | .array [], _, h, _ | .object [], _, h, _ => ⟨nofun, nofun, h⟩
  | .array (item :: rest), ts, h, _ => by
    have hrest : NumbersApart (tokenizeItems rest ++ .closeArray :: ts) ∧
        ∀ t ∈ (tokenizeItems rest ++ .closeArray :: ts).head?, t.isNumber = false :=
      apart_tokenizeItems rest ⟨nofun, h⟩ (by rintro _ ⟨⟩; rfl)
    rw [tokenize, List.cons_append, List.append_assoc, List.append_assoc, List.singleton_append]
    exact ⟨nofun, apart_tokenize item hrest.1 hrest.2⟩
  | .object ((key, value) :: rest), ts, h, _ => by
    have hrest : NumbersApart (tokenizeFields rest ++ .closeObject :: ts) ∧
        ∀ t ∈ (tokenizeFields rest ++ .closeObject :: ts).head?, t.isNumber = false :=
      apart_tokenizeFields rest ⟨nofun, h⟩ (by rintro _ ⟨⟩; rfl)
    rw [tokenize, List.cons_append, List.cons_append, List.cons_append, List.append_assoc,
      List.append_assoc, List.singleton_append]
    exact ⟨nofun, nofun, nofun, apart_tokenize value hrest.1 hrest.2⟩

theorem apart_tokenizeItems : ∀ (items : List Json) {ts : List Token}, NumbersApart ts →
    (∀ t ∈ ts.head?, t.isNumber = false) → NumbersApart (tokenizeItems items ++ ts) ∧
      ∀ t ∈ (tokenizeItems items ++ ts).head?, t.isNumber = false
  | [], _, h, hn => ⟨h, hn⟩
  | item :: rest, ts, h, hn => by
    have hrest := apart_tokenizeItems rest h hn
    rw [tokenizeItems, List.cons_append, List.append_assoc]
    exact ⟨⟨nofun, apart_tokenize item hrest.1 hrest.2⟩, by rintro _ ⟨⟩; rfl⟩

theorem apart_tokenizeFields : ∀ (fields : List (String × Json)) {ts : List Token},
    NumbersApart ts → (∀ t ∈ ts.head?, t.isNumber = false) →
      NumbersApart (tokenizeFields fields ++ ts) ∧
        ∀ t ∈ (tokenizeFields fields ++ ts).head?, t.isNumber = false
  | [], _, h, hn => ⟨h, hn⟩
  | (key, value) :: rest, ts, h, hn => by
    have hrest := apart_tokenizeFields rest h hn
    rw [tokenizeFields, List.cons_append, List.cons_append, List.cons_append, List.append_assoc]
    exact ⟨⟨nofun, nofun, nofun, apart_tokenize value hrest.1 hrest.2⟩, by rintro _ ⟨⟩; rfl⟩

end

/-! ### The machine on the tokens of a value -/

namespace Draft

/-- The first item of an array is read as a value in that array. -/
theorem run_itemOrClose (frames : List Frame) (v : Json) (ts : List Token) :
    run frames .itemOrClose (tokenize v ++ ts) =
      run (.array [] :: frames) .value (tokenize v ++ ts) := by
  cases v with
  | array items => cases items <;> rfl
  | object fields =>
    cases fields with
    | nil => rfl
    | cons e rest => rfl
  | _ => rfl

mutual

/-- **The tokens of a value** are read as its draft, whatever follows. -/
theorem run_tokenize : ∀ (v : Json) (frames : List Frame) (ts : List Token),
    run frames .value (tokenize v ++ ts) =
      run (settle frames v.draft).1 (settle frames v.draft).2 ts
  | .null, _, _ | .bool _, _, _ | .number _, _, _ | .string _, _, _ => rfl
  | .array [], _, _ | .object [], _, _ => rfl
  | .array (item :: rest), frames, ts => by
    rw [tokenize, List.cons_append, List.append_assoc, List.append_assoc, List.singleton_append]
    change run frames .itemOrClose _ = _
    rw [run_itemOrClose, run_tokenize item]
    exact run_tokenizeItems rest frames [item.draft] ts
  | .object ((key, value) :: rest), frames, ts => by
    rw [tokenize, List.cons_append, List.cons_append, List.cons_append, List.append_assoc,
      List.append_assoc, List.singleton_append]
    change run (.object [] (some key) :: frames) .value _ = _
    rw [run_tokenize value]
    exact run_tokenizeFields rest frames [(some key, value.draft)] ts

theorem run_tokenizeItems : ∀ (items : List Json) (frames : List Frame) (done : List Draft)
    (ts : List Token), run frames (.itemEnd done) (tokenizeItems items ++ .closeArray :: ts) =
      run (settle frames (.array (done.reverse ++ draftItems items) true)).1
        (settle frames (.array (done.reverse ++ draftItems items) true)).2 ts
  | [], frames, done, ts => by
    rw [draftItems, List.append_nil]
    rfl
  | item :: rest, frames, done, ts => by
    have hdone : (item.draft :: done).reverse ++ draftItems rest =
        done.reverse ++ draftItems (item :: rest) := by
      rw [List.reverse_cons, List.append_assoc, List.singleton_append, draftItems]
    rw [tokenizeItems, List.cons_append, List.append_assoc]
    change run (.array done :: frames) .value _ = _
    rw [run_tokenize item, ← hdone]
    exact run_tokenizeItems rest frames (item.draft :: done) ts

theorem run_tokenizeFields : ∀ (fields : List (String × Json)) (frames : List Frame)
    (done : List (Option String × Draft)) (ts : List Token),
    run frames (.fieldEnd done) (tokenizeFields fields ++ .closeObject :: ts) =
      run (settle frames (.object (done.reverse ++ draftFields fields) true none)).1
        (settle frames (.object (done.reverse ++ draftFields fields) true none)).2 ts
  | [], frames, done, ts => by
    rw [draftFields, List.append_nil]
    rfl
  | (key, value) :: rest, frames, done, ts => by
    have hdone : ((some key, value.draft) :: done).reverse ++ draftFields rest =
        done.reverse ++ draftFields ((key, value) :: rest) := by
      rw [List.reverse_cons, List.append_assoc, List.singleton_append, draftFields]
    rw [tokenizeFields, List.cons_append, List.cons_append, List.cons_append, List.append_assoc]
    change run (.object done (some key) :: frames) .value _ = _
    rw [run_tokenize value, ← hdone]
    exact run_tokenizeFields rest frames ((some key, value.draft) :: done) ts

end

/-- **The draft of a text** is that of the value that it spells, and the text ends with it. -/
theorem ofTokens_of_spelled {v : Json} {text : List Char} (h : Spelled v text) :
    ofTokens (tokens (text.map some)) = ⟨v.draft, true⟩ := by
  have hapart : NumbersApart (tokenize v ++ []) := apart_tokenize v trivial nofun
  rw [List.append_nil] at hapart
  have hrun := run_tokenize v [] []
  rw [List.append_nil] at hrun
  rw [tokens_of_lexed h hapart, ofTokens, hrun]
  rfl

theorem ofText_of_spelled {v : Json} {text : String} (h : Spelled v text.toList) :
    ofText text = ⟨v.draft, true⟩ := ofTokens_of_spelled h

theorem ofBytes_of_spelled {v : Json} {text : String} (h : Spelled v text.toList) :
    ofBytes (Text.encode text) = ⟨v.draft, true⟩ := by
  rw [ofBytes, Text.symbols_encode]
  exact ofTokens_of_spelled h

end Draft

/-! ### What is written is a spelling -/

namespace Lexed

theorem behind {gap text : List Char} (h : Blanks gap) {ts : List Token} (ht : Lexed ts text) :
    Lexed ts (gap ++ text) := by
  have happend : ∀ {gap' : List Char}, Blanks gap' → Blanks (gap ++ gap') := fun h' c hc =>
    (List.mem_append.mp hc).elim (h c) (h' c)
  cases ht with
  | done blanks => exact .done (happend blanks)
  | token blanks lexeme more =>
    rw [← List.append_assoc]
    exact .token (happend blanks) lexeme more

theorem cons {t : Token} {text : List Char} (h : Lexeme t text) {ts : List Token}
    {rest : List Char} (hr : Lexed ts rest) : Lexed (t :: ts) (text ++ rest) := by
  rw [← List.nil_append (text ++ rest)]
  exact .token nofun h hr

end Lexed

/-- A layout of nothing but blanks. -/
structure Layout.IsBlank (layout : Layout) : Prop where
  newline : ∀ depth, Blanks (layout.newline depth)
  gap : Blanks layout.gap

theorem isBlank_compact : Layout.IsBlank .compact := ⟨fun _ => nofun, nofun⟩

theorem isBlank_pretty : Layout.IsBlank .pretty := by
  refine ⟨fun depth c hc => ?_, fun c hc => ?_⟩
  · rcases List.mem_cons.mp hc with rfl | hc
    · rfl
    · rw [List.eq_of_mem_replicate hc]
      rfl
  · rw [List.mem_singleton.mp hc]
    rfl

/-! #### Strings -/

/-- What is written for a character is a spelling of it. -/
theorem escaped_escape (c : Char) {cs text : List Char} (h : Escaped cs text) :
    Escaped (c :: cs) (escape c ++ text) := by
  have hhex : ∀ n : Fin 0x20, hex4? (some '0') (some '0') (some (hexDigit (n / 16)))
      (some (hexDigit (n % 16))) = some n.val := by decide
  unfold escape
  split
  next hc => subst hc; exact .short (by decide) h
  split
  next hc => subst hc; exact .short (by decide) h
  split
  next hc => subst hc; exact .short (by decide) h
  split
  next hc => subst hc; exact .short (by decide) h
  split
  next hc => subst hc; exact .short (by decide) h
  split
  next hc => subst hc; exact .short (by decide) h
  split
  next hc => subst hc; exact .short (by decide) h
  split
  next hlow => exact .unit ⟨_, _, _, _, rfl, hhex ⟨c.toNat, hlow⟩⟩ h
  next hquote hslash _ _ _ _ _ hlow =>
    exact .plain (Nat.not_lt.mp hlow) hquote hslash h

theorem escaped_flatMap : ∀ cs : List Char, Escaped cs (cs.flatMap escape)
  | [] => .done
  | c :: cs => by
    rw [List.flatMap_cons]
    exact escaped_escape c (escaped_flatMap cs)

theorem lexeme_string (s : String) : Lexeme (.string (some s)) (writeString s) :=
  .string (escaped_flatMap s.toList)

/-! #### Numbers -/

theorem takeUp_append {d m : Nat} : ∀ {ds : List Nat} {before : Nat},
    NumberLiteral.takeUp before ds = (m, []) → m * 10 + d < NumberLiteral.bound →
      NumberLiteral.takeUp before (ds ++ [d]) = (m * 10 + d, [])
  | [], before, h, hd => by
    cases h
    rw [List.nil_append, NumberLiteral.takeUp, if_pos hd]
    rfl
  | e :: ds, before, h, hd => by
    rw [NumberLiteral.takeUp] at h
    rw [List.cons_append, NumberLiteral.takeUp]
    split at h
    next hlow =>
      rw [if_pos hlow]
      exact takeUp_append h hd
    next => cases h

/-- A number is written with digits that begin with no zero, and taken up from them again. -/
theorem exists_digits (n : Nat) : ∃ ds, IsRun ds ∧ (ds.head? = some 0 → n = 0 ∧ ds = [0]) ∧
    writeDigits ds = Nat.toDigits 10 n ∧
      (n < NumberLiteral.bound → NumberLiteral.takeUp 0 ds = (n, [])) := by
  induction n using Nat.strongRecOn with
  | _ n ih =>
    rw [Text.toDigits_step]
    by_cases h : n < 10
    · refine ⟨[n], ⟨by simp, by simpa using h⟩, by simp, ?_, fun hb => ?_⟩
      · rw [if_pos h, Nat.mod_eq_of_lt h]
        rfl
      · rw [NumberLiteral.takeUp, if_pos (by omega)]
        simp [NumberLiteral.takeUp]
    · obtain ⟨ds, run, hzero, hwrite, htake⟩ := ih (n / 10) (by omega)
      obtain ⟨d, ds, rfl⟩ := List.exists_cons_of_ne_nil run.nonempty
      refine ⟨(d :: ds) ++ [n % 10], ⟨by simp, fun d' hd => ?_⟩, fun hd => ?_, ?_, fun hb => ?_⟩
      · rcases List.mem_append.mp hd with hd | hd
        · exact run.decimal d' hd
        · rw [List.mem_singleton.mp hd]
          omega
      · have := (hzero hd).1
        omega
      · rw [if_neg h, ← hwrite]
        simp [writeDigits]
      · have hlow : n / 10 < NumberLiteral.bound := by omega
        have happend := takeUp_append (htake hlow) (d := n % 10) (by omega)
        rw [happend]
        congr 1
        omega

/-- Integers of 64 bits, signed or not. -/
def IsWord (i : Int) : Prop := -9223372036854775808 ≤ i ∧ i < 18446744073709551616

/-- **An integer is a literal** that denotes it. -/
theorem lexeme_integer {i : Int} (h : IsWord i) :
    Lexeme (.number (some (.integer i))) (Text.integer i).toList := by
  have hbound : NumberLiteral.bound = 18446744073709551616 := rfl
  obtain ⟨hlow, hhigh⟩ := h
  cases i with
  | ofNat n =>
    have hn : (n : Int) = .ofNat n := rfl
    obtain ⟨ds, run, hzero, hwrite, htake⟩ := exists_digits n
    have hvalue : NumberLiteral.value? ⟨false, ds, none, none⟩ = some (.integer n) := by
      rw [NumberLiteral.value?, htake (by omega)]
      rfl
    have htext : (Text.integer (.ofNat n)).toList = [] ++ (writeDigits ds ++ ([] ++ [])) := by
      rw [hwrite, Text.integer, Text.toList_natural]
      simp
    rw [htext]
    exact .number (.parts run (fun h => (hzero h).2) .absent .absent) hvalue
  | negSucc n =>
    obtain ⟨ds, run, hzero, hwrite, htake⟩ := exists_digits (n + 1)
    have hvalue : NumberLiteral.value? ⟨true, ds, none, none⟩ = some (.integer (.negSucc n)) := by
      simp only [NumberLiteral.value?, htake (show n + 1 < NumberLiteral.bound by omega), if_true]
      rw [if_pos ⟨Nat.succ_pos n, by omega⟩]
      rfl
    have htext : (Text.integer (.negSucc n)).toList = ['-'] ++ (writeDigits ds ++ ([] ++ [])) := by
      rw [hwrite, Text.integer, String.toList_append, Text.toList_natural]
      simp
    rw [htext]
    exact .number (.parts run (fun h => (hzero h).2) .absent .absent) hvalue

/-! #### Values -/

mutual

/-- Every number of a value is an integer of 64 bits. -/
def InWords : Json → Prop
  | .number (.integer i) => IsWord i
  | .number (.double _) => False
  | .array items => InWordsItems items
  | .object fields => InWordsFields fields
  | _ => True

/-- So it is in every item. -/
def InWordsItems : List Json → Prop
  | [] => True
  | item :: rest => InWords item ∧ InWordsItems rest

/-- So it is in the value of every field. -/
def InWordsFields : List (String × Json) → Prop
  | [] => True
  | (_, value) :: rest => InWords value ∧ InWordsFields rest

end

theorem inWords_array {items : List Json} :
    (Json.array items).InWords ↔ ∀ v ∈ items, v.InWords := by
  change InWordsItems items ↔ _
  induction items with
  | nil => exact ⟨fun _ => nofun, fun _ => trivial⟩
  | cons v rest ih => rw [InWordsItems, List.forall_mem_cons, ih]

theorem inWords_object {fs : List (String × Json)} :
    (Json.object fs).InWords ↔ ∀ e ∈ fs, e.2.InWords := by
  change InWordsFields fs ↔ _
  induction fs with
  | nil => exact ⟨fun _ => nofun, fun _ => trivial⟩
  | cons e rest ih => rw [InWordsFields, List.forall_mem_cons, ih]

theorem inWords_natural {n : Nat} (h : n < UInt64.size) : (natural n).InWords := by
  have hsize : UInt64.size = 18446744073709551616 := rfl
  constructor <;> omega

theorem inWords_optional {α : Type} {write : α → Json} (h : ∀ a, (write a).InWords) :
    ∀ o : Option α, (Json.optional write o).InWords
  | none => trivial
  | some a => h a

mutual

/-- **What is written for a value spells it**, in every layout of blanks. -/
theorem lexed_write {layout : Layout} (hl : layout.IsBlank) : ∀ {v : Json}, v.InWords →
    ∀ (depth : Nat) {ts : List Token} {text : List Char}, Lexed ts text →
      Lexed (tokenize v ++ ts) (write layout depth v ++ text)
  | .null, _, _, _, _, h => .cons .null h
  | .bool true, _, _, _, _, h => .cons .true h
  | .bool false, _, _, _, _, h => .cons .false h
  | .number (.integer _), hw, _, _, _, h => .cons (lexeme_integer hw) h
  | .string s, _, _, _, _, h => .cons (lexeme_string s) h
  | .array [], _, _, _, _, h => .cons .openArray (.cons .closeArray h)
  | .object [], _, _, _, _, h => .cons .openObject (.cons .closeObject h)
  | .array (item :: rest), hw, depth, ts, text, h => by
    have hclose := (Lexed.cons .closeArray h).behind (hl.newline depth)
    have hitem := lexed_write hl hw.1 (depth + 1)
      (lexed_writeItems hl hw.2 (depth + 1) hclose)
    have hopen := Lexed.cons .openArray (hitem.behind (hl.newline (depth + 1)))
    simpa [tokenize, write] using hopen
  | .object ((key, value) :: rest), hw, depth, ts, text, h => by
    have hclose := (Lexed.cons .closeObject h).behind (hl.newline depth)
    have hvalue := lexed_write hl hw.1 (depth + 1)
      (lexed_writeFields hl hw.2 (depth + 1) hclose)
    have hkey := Lexed.cons (lexeme_string key) (Lexed.cons .colon (hvalue.behind hl.gap))
    have hopen := Lexed.cons .openObject (hkey.behind (hl.newline (depth + 1)))
    simpa [tokenize, write] using hopen

theorem lexed_writeItems {layout : Layout} (hl : layout.IsBlank) : ∀ {items : List Json},
    InWordsItems items → ∀ (depth : Nat) {ts : List Token} {text : List Char}, Lexed ts text →
      Lexed (tokenizeItems items ++ ts) (writeItems layout depth items ++ text)
  | [], _, _, _, _, h => h
  | item :: rest, hw, depth, ts, text, h => by
    have hitem := lexed_write hl hw.1 depth (lexed_writeItems hl hw.2 depth h)
    have hcomma := Lexed.cons .comma (hitem.behind (hl.newline depth))
    simpa [tokenizeItems, writeItems] using hcomma

theorem lexed_writeFields {layout : Layout} (hl : layout.IsBlank) :
    ∀ {fields : List (String × Json)}, InWordsFields fields → ∀ (depth : Nat) {ts : List Token}
      {text : List Char}, Lexed ts text →
        Lexed (tokenizeFields fields ++ ts) (writeFields layout depth fields ++ text)
  | [], _, _, _, _, h => h
  | (key, value) :: rest, hw, depth, ts, text, h => by
    have hvalue := lexed_write hl hw.1 depth (lexed_writeFields hl hw.2 depth h)
    have hkey := Lexed.cons (lexeme_string key) (Lexed.cons .colon (hvalue.behind hl.gap))
    have hcomma := Lexed.cons .comma (hkey.behind (hl.newline depth))
    simpa [tokenizeFields, writeFields] using hcomma

end

theorem spelled_write {layout : Layout} (hl : layout.IsBlank) {v : Json} (h : v.InWords) :
    Spelled v (write layout 0 v) := by
  have hwrite : Lexed (tokenize v ++ []) (write layout 0 v ++ []) :=
    lexed_write hl h 0 (.done nofun)
  rwa [List.append_nil, List.append_nil] at hwrite

theorem spelled_compact {v : Json} (h : v.InWords) : Spelled v v.compact.toList := by
  rw [compact, String.toList_ofList]
  exact spelled_write isBlank_compact h

theorem spelled_pretty {v : Json} (h : v.InWords) : Spelled v v.pretty.toList := by
  rw [pretty, String.toList_ofList]
  exact spelled_write isBlank_pretty h

end Inspection.Json
