import Inspection.Proofs.Check
import Inspection.Proofs.Json.Scanned
import Inspection.Proofs.Json.Sorted

/-!
# Json — documents that are read

Bytes are read as a value only if they denote it: the machine that builds drafts comes to the end
of a document with nothing but the tokens of its draft behind it, and these are the tokens of a
value if the draft has one.

* `stepsTo_of_run`: a step puts a token behind those that were read.
* `behind_of_run`: a run that comes to the end has read the tokens of its draft.
* `exists_of_ofDraft?`: the tokens of a draft that has a value are those of a value.
* `read_eq_ok`: bytes are read exactly if they denote a value.
-/

namespace Inspection.Json

open Token

namespace Draft

/-! ### The tokens of a draft -/

mutual

/-- The tokens of a draft, as those of a value. -/
def tokenize : Draft → List Token
  | .null => [.null]
  | .bool b => [.bool b]
  | .number n => [.number n]
  | .string s => [.string s]
  | .array items _ => .openArray :: ((tokenizeItems items).tail ++ [.closeArray])
  | .object fields _ _ => .openObject :: ((tokenizeFields fields).tail ++ [.closeObject])
  | .broken => [.malformed]

/-- The tokens of items, a comma before each. -/
def tokenizeItems : List Draft → List Token
  | [] => []
  | item :: rest => .comma :: (tokenize item ++ tokenizeItems rest)

/-- The tokens of fields, a comma before each. -/
def tokenizeFields : List (Option String × Draft) → List Token
  | [] => []
  | (key, value) :: rest =>
    .comma :: .string key :: .colon :: (tokenize value ++ tokenizeFields rest)

end

theorem tokenizeItems_append (items more : List Draft) :
    tokenizeItems (items ++ more) = tokenizeItems items ++ tokenizeItems more := by
  induction items with
  | nil => rfl
  | cons item rest ih => simp [tokenizeItems, ih]

theorem tokenizeFields_append (fields more : List (Option String × Draft)) :
    tokenizeFields (fields ++ more) = tokenizeFields fields ++ tokenizeFields more := by
  induction fields with
  | nil => rfl
  | cons e rest ih => simp [tokenizeFields, ih]

theorem tokenizeItems_reverse_cons (d : Draft) (done : List Draft) :
    tokenizeItems (d :: done).reverse = tokenizeItems done.reverse ++ .comma :: tokenize d := by
  rw [List.reverse_cons, tokenizeItems_append, tokenizeItems, tokenizeItems, List.append_nil]

theorem tokenizeFields_reverse_cons (key : Option String) (d : Draft)
    (done : List (Option String × Draft)) : tokenizeFields ((key, d) :: done).reverse =
      tokenizeFields done.reverse ++ .comma :: .string key :: .colon :: tokenize d := by
  rw [List.reverse_cons, tokenizeFields_append, tokenizeFields, tokenizeFields, List.append_nil]

/-! ### The tokens behind the machine -/

/-- The tokens of items that were read, the last first, and of what follows them. -/
def itemsThen (done : List Draft) (more : List Token) : List Token :=
  (tokenizeItems done.reverse ++ more).tail

/-- The tokens of fields that were read, the last first, and of what follows them. -/
def fieldsThen (done : List (Option String × Draft)) (more : List Token) : List Token :=
  (tokenizeFields done.reverse ++ more).tail

/-- The tokens of a container begun, up to the value that comes next. -/
def behindFrame : Frame → List Token
  | .array done => .openArray :: itemsThen done [.comma]
  | .object done key => .openObject :: fieldsThen done [.comma, .string key, .colon]

/-- The tokens of the containers begun. -/
def behindFrames : List Frame → List Token
  | [] => []
  | frame :: frames => behindFrames frames ++ behindFrame frame

/-- The tokens since the last container that waits for a value. -/
def behindAwaiting : Awaiting → List Token
  | .value => []
  | .itemOrClose => [.openArray]
  | .itemEnd done => .openArray :: itemsThen done []
  | .keyOrClose => [.openObject]
  | .key done => .openObject :: fieldsThen done [.comma]
  | .colon done key => .openObject :: fieldsThen done [.comma, .string key]
  | .fieldEnd done => .openObject :: fieldsThen done []
  | .finish document => document.tokenize

/-- The tokens that the machine has read. -/
def behind (frames : List Frame) (awaiting : Awaiting) : List Token :=
  behindFrames frames ++ behindAwaiting awaiting

theorem itemsThen_append {done : List Draft} (more rest : List Token) (h : done ≠ [] ∨ more ≠ []) :
    itemsThen done (more ++ rest) = itemsThen done more ++ rest := by
  have hne : tokenizeItems done.reverse ++ more ≠ [] := by
    rcases h with h | h
    · obtain ⟨d, done, rfl⟩ := List.exists_cons_of_ne_nil h
      rw [tokenizeItems_reverse_cons]
      simp
    · simp [h]
  rw [itemsThen, ← List.append_assoc, List.tail_append_of_ne_nil hne, itemsThen]

theorem fieldsThen_append {done : List (Option String × Draft)} (more rest : List Token)
    (h : done ≠ [] ∨ more ≠ []) :
    fieldsThen done (more ++ rest) = fieldsThen done more ++ rest := by
  have hne : tokenizeFields done.reverse ++ more ≠ [] := by
    rcases h with h | h
    · obtain ⟨⟨key, d⟩, done, rfl⟩ := List.exists_cons_of_ne_nil h
      rw [tokenizeFields_reverse_cons]
      simp
    · simp [h]
  rw [fieldsThen, ← List.append_assoc, List.tail_append_of_ne_nil hne, fieldsThen]

theorem itemsThen_cons (d : Draft) (done : List Draft) :
    itemsThen (d :: done) [] = itemsThen done [.comma] ++ d.tokenize := by
  rw [← itemsThen_append _ _ (.inr (List.cons_ne_nil _ _)), itemsThen, tokenizeItems_reverse_cons,
    List.append_nil]
  rfl

theorem fieldsThen_cons (key : Option String) (d : Draft) (done : List (Option String × Draft)) :
    fieldsThen ((key, d) :: done) [] =
      fieldsThen done [.comma, .string key, .colon] ++ d.tokenize := by
  rw [← fieldsThen_append _ _ (.inr (List.cons_ne_nil _ _)), fieldsThen,
    tokenizeFields_reverse_cons, List.append_nil]
  rfl

/-- Where an item or a field ends there is one, and where the document ends no container is open. -/
def IsProper (frames : List Frame) : Awaiting → Prop
  | .itemEnd done => done ≠ []
  | .fieldEnd done => done ≠ []
  | .finish _ => frames = []
  | _ => True

theorem isProper_settle (frames : List Frame) (d : Draft) :
    IsProper (settle frames d).1 (settle frames d).2 := by
  match frames with
  | [] => rfl
  | .array _ :: _ | .object .. :: _ => exact List.cons_ne_nil _ _

/-- A value goes behind what was read before it. -/
theorem behind_settle (frames : List Frame) (d : Draft) :
    behind (settle frames d).1 (settle frames d).2 = behindFrames frames ++ d.tokenize := by
  match frames with
  | [] => rfl
  | .array done :: frames =>
    rw [settle, behind, behindAwaiting, itemsThen_cons, behindFrames, behindFrame,
      List.append_assoc]
    rfl
  | .object done key :: frames =>
    rw [settle, behind, behindAwaiting, fieldsThen_cons, behindFrames, behindFrame,
      List.append_assoc]
    rfl

theorem tokenize_of_ofToken? {t : Token} {d : Draft} (h : ofToken? t = some d) :
    d.tokenize = [t] := by
  cases t <;> cases h <;> rfl

theorem stop_complete (frames : List Frame) (awaiting : Awaiting) :
    (stop frames awaiting).complete = false := by
  cases awaiting <;> rfl

theorem stop_ne (frames : List Frame) (awaiting : Awaiting) (d : Draft) :
    stop frames awaiting ≠ ⟨d, true⟩ := fun h => by
  have hcomplete := stop_complete frames awaiting
  rw [h] at hcomplete
  cases hcomplete

/-- What the machine goes on with behind a token, if it comes to the end of a document. -/
def StepsTo (frames : List Frame) (awaiting : Awaiting) (t : Token) (ts : List Token) (d : Draft) :
    Prop :=
  ∃ frames' awaiting', run frames' awaiting' ts = ⟨d, true⟩ ∧ IsProper frames' awaiting' ∧
    behind frames' awaiting' = behind frames awaiting ++ [t]

/-- A step that ends a value. -/
theorem stepsTo_settle {frames : List Frame} {awaiting : Awaiting} {t : Token} {ts : List Token}
    {d value : Draft} (h : run (settle frames value).1 (settle frames value).2 ts = ⟨d, true⟩)
    (htokens : behindAwaiting awaiting ++ [t] = value.tokenize) :
    StepsTo frames awaiting t ts d := by
  refine ⟨_, _, h, isProper_settle frames value, ?_⟩
  rw [behind_settle, behind, List.append_assoc, htokens]

/-- **One step** of the machine, if it comes to the end of a document: the token goes behind those
that were read. -/
theorem stepsTo_of_run {frames : List Frame} {awaiting : Awaiting} {t : Token} {ts : List Token}
    {d : Draft} (h : run frames awaiting (t :: ts) = ⟨d, true⟩) (proper : IsProper frames awaiting) :
    StepsTo frames awaiting t ts d := by
  -- A token that only opens, parts or names something goes behind the containers begun.
  have hmoves : ∀ {frames' : List Frame} {awaiting' : Awaiting},
      run frames' awaiting' ts = ⟨d, true⟩ → IsProper frames' awaiting' →
        behind frames' awaiting' = behindFrames frames ++ (behindAwaiting awaiting ++ [t]) →
          StepsTo frames awaiting t ts d := fun hrun hproper hbehind =>
    ⟨_, _, hrun, hproper, by rw [hbehind, behind, List.append_assoc]⟩
  rw [run.eq_def] at h
  simp only at h
  split at h
  case h_1 => exact hmoves h trivial rfl
  case h_2 => exact hmoves h trivial rfl
  case h_3 =>
    split at h
    next value hvalue => exact stepsTo_settle h (tokenize_of_ofToken? hvalue).symm
    next => exact absurd h (stop_ne _ _ _)
  case h_4 => exact stepsTo_settle h rfl
  case h_5 => exact hmoves h trivial (List.append_assoc ..)
  case h_6 => exact hmoves h trivial (List.append_assoc ..)
  case h_7 =>
    split at h
    next value hvalue =>
      have hitem : itemsThen [value] [] = [t] := by
        rw [itemsThen_cons, tokenize_of_ofToken? hvalue]
        rfl
      exact hmoves h (List.cons_ne_nil _ _)
        (congrArg (behindFrames frames ++ Token.openArray :: ·) hitem)
    next => exact absurd h (stop_ne _ _ _)
  case h_8 done =>
    have hcomma : itemsThen done [.comma] = itemsThen done [] ++ [.comma] :=
      itemsThen_append [] [.comma] (.inl proper)
    exact hmoves h trivial ((List.append_nil _).trans
      (congrArg (behindFrames frames ++ Token.openArray :: ·) hcomma))
  case h_9 done => exact stepsTo_settle h (by simp [behindAwaiting, itemsThen, tokenize])
  case h_10 => exact stepsTo_settle h rfl
  case h_11 => exact hmoves h trivial rfl
  case h_12 => cases h
  case h_13 done key =>
    have hkey : fieldsThen done [.comma, .string key] = fieldsThen done [.comma] ++ [.string key] :=
      fieldsThen_append [.comma] [.string key] (.inr (List.cons_ne_nil _ _))
    exact hmoves h trivial (congrArg (behindFrames frames ++ Token.openObject :: ·) hkey)
  case h_14 done key =>
    have hcolon : fieldsThen done [.comma, .string key, .colon] =
        fieldsThen done [.comma, .string key] ++ [.colon] :=
      fieldsThen_append [.comma, .string key] [.colon] (.inr (List.cons_ne_nil _ _))
    exact hmoves h trivial ((List.append_nil _).trans
      (congrArg (behindFrames frames ++ Token.openObject :: ·) hcolon))
  case h_15 done =>
    have hcomma : fieldsThen done [.comma] = fieldsThen done [] ++ [.comma] :=
      fieldsThen_append [] [.comma] (.inl proper)
    exact hmoves h trivial (congrArg (behindFrames frames ++ Token.openObject :: ·) hcomma)
  case h_16 done => exact stepsTo_settle h (by simp [behindAwaiting, fieldsThen, tokenize])
  case h_17 => exact absurd h (stop_ne _ _ _)

/-- **A run** that comes to the end of a document has read the tokens of its draft. -/
theorem behind_of_run {frames : List Frame} {awaiting : Awaiting} {ts : List Token} {d : Draft}
    (h : run frames awaiting ts = ⟨d, true⟩) (proper : IsProper frames awaiting) :
    behind frames awaiting ++ ts = d.tokenize := by
  induction ts generalizing frames awaiting with
  | nil =>
    by_cases hfinish : ∃ document, awaiting = .finish document
    · obtain ⟨document, rfl⟩ := hfinish
      obtain rfl : frames = [] := proper
      obtain rfl : document = d := congrArg Reading.draft h
      exact List.append_nil _
    · rw [run.eq_2 _ _ fun document he => hfinish ⟨document, he⟩] at h
      exact absurd h (stop_ne _ _ _)
  | cons t ts ih =>
    obtain ⟨frames', awaiting', hrun, hproper, hbehind⟩ := stepsTo_of_run h proper
    rw [List.append_cons, ← hbehind]
    exact ih hrun hproper

theorem tokenize_of_ofTokens {ts : List Token} {d : Draft} (h : ofTokens ts = ⟨d, true⟩) :
    d.tokenize = ts :=
  (behind_of_run h trivial).symm

end Draft

/-! ### Values that are read -/

theorem tokenize_array (items : List Json) :
    tokenize (.array items) = .openArray :: ((tokenizeItems items).tail ++ [.closeArray]) := by
  cases items with
  | nil => rfl
  | cons item rest => simp [tokenize, tokenizeItems]

theorem tokenize_object (fields : List (String × Json)) :
    tokenize (.object fields) = .openObject :: ((tokenizeFields fields).tail ++ [.closeObject]) := by
  cases fields with
  | nil => rfl
  | cons e rest => simp [tokenize, tokenizeFields]

theorem ofDraft?_array {depth : Nat} {items : List Draft} {closed : Bool} {w : Json}
    (h : ofDraft? depth (.array items closed) = some w) :
    ∃ n ws, depth = n + 1 ∧ ofItems? n items = some ws ∧ w = .array ws := by
  cases closed with
  | false => cases depth <;> cases h
  | true =>
    cases depth with
    | zero => cases h
    | succ n =>
      rw [ofDraft?] at h
      obtain ⟨ws, hws, rfl⟩ := Option.map_eq_some_iff.mp h
      exact ⟨n, ws, rfl, hws, rfl⟩

theorem ofDraft?_object {depth : Nat} {fields : List (Option String × Draft)} {closed : Bool}
    {stray : Option Draft} {w : Json} (h : ofDraft? depth (.object fields closed stray) = some w) :
    ∃ n ws, depth = n + 1 ∧ ofFields? n fields = some ws ∧ w = .object (Entries.sort ws) := by
  cases closed with
  | false => cases depth <;> cases h
  | true =>
    cases depth with
    | zero => cases h
    | succ n =>
      rw [ofDraft?] at h
      obtain ⟨ws, hws, rfl⟩ := Option.map_eq_some_iff.mp h
      exact ⟨n, ws, rfl, hws, rfl⟩

theorem ofDraft?_scalar {depth : Nat} {d : Draft} {w : Json} (h : ofDraft? depth d = some w)
    (harray : ∀ items closed, d ≠ .array items closed)
    (hobject : ∀ fields closed stray, d ≠ .object fields closed stray) :
    w.IsScalar ∧ w.tokenize = d.tokenize := by
  cases d with
  | array items closed => exact absurd rfl (harray items closed)
  | object fields closed stray => exact absurd rfl (hobject fields closed stray)
  | null | bool =>
    rw [ofDraft?] at h
    cases h
    exact ⟨trivial, rfl⟩
  | number | string =>
    rw [ofDraft?] at h
    obtain ⟨_, rfl, rfl⟩ := Option.map_eq_some_iff.mp h
    exact ⟨trivial, rfl⟩
  | broken => cases depth <;> cases h

mutual

/-- **The value of a draft** is, in order, a value that has the tokens of the draft. -/
theorem exists_of_ofDraft? : ∀ (d : Draft) {depth : Nat} {w : Json}, ofDraft? depth d = some w →
    ∃ v : Json, v.Within depth ∧ v.sorted = w ∧ v.tokenize = d.tokenize
  | .array items closed, _, _, h => by
    obtain ⟨n, ws, rfl, hws, rfl⟩ := ofDraft?_array h
    obtain ⟨vs, hvs, rfl, htokens⟩ := exists_of_ofItems? items hws
    exact ⟨.array vs, hvs, rfl, by rw [tokenize_array, htokens, Draft.tokenize]⟩
  | .object fields closed stray, _, _, h => by
    obtain ⟨n, ws, rfl, hws, rfl⟩ := ofDraft?_object h
    obtain ⟨vs, hvs, rfl, htokens⟩ := exists_of_ofFields? fields hws
    exact ⟨.object vs, hvs, rfl, by rw [tokenize_object, htokens, Draft.tokenize]⟩
  | .null, _, w, h | .bool _, _, w, h | .number _, _, w, h | .string _, _, w, h
  | .broken, _, w, h => by
    obtain ⟨hscalar, htokens⟩ := ofDraft?_scalar h nofun nofun
    exact ⟨w, hscalar.within, hscalar.sorted_eq, htokens⟩

theorem exists_of_ofItems? : ∀ (ds : List Draft) {depth : Nat} {ws : List Json},
    ofItems? depth ds = some ws → ∃ vs : List Json, WithinItems depth vs ∧ sortedItems vs = ws ∧
      tokenizeItems vs = Draft.tokenizeItems ds
  | [], _, _, h => ⟨[], trivial, Option.some.inj h, rfl⟩
  | d :: rest, _, _, h => by
    obtain ⟨w, hw, hrest⟩ := Option.bind_eq_some_iff.mp h
    obtain ⟨ws, hws, rfl⟩ := Option.map_eq_some_iff.mp hrest
    obtain ⟨v, hv, rfl, htokens⟩ := exists_of_ofDraft? d hw
    obtain ⟨vs, hvs, rfl, hmore⟩ := exists_of_ofItems? rest hws
    exact ⟨v :: vs, ⟨hv, hvs⟩, rfl, by rw [tokenizeItems, htokens, hmore, Draft.tokenizeItems]⟩

theorem exists_of_ofFields? : ∀ (ds : List (Option String × Draft)) {depth : Nat}
    {ws : List (String × Json)}, ofFields? depth ds = some ws → ∃ vs : List (String × Json),
      WithinFields depth vs ∧ sortedFields vs = ws ∧ tokenizeFields vs = Draft.tokenizeFields ds
  | [], _, _, h => ⟨[], trivial, Option.some.inj h, rfl⟩
  | (key, d) :: rest, _, _, h => by
    obtain ⟨key, rfl, hvalue⟩ := Option.bind_eq_some_iff.mp h
    obtain ⟨w, hw, hrest⟩ := Option.bind_eq_some_iff.mp hvalue
    obtain ⟨ws, hws, rfl⟩ := Option.map_eq_some_iff.mp hrest
    obtain ⟨v, hv, rfl, htokens⟩ := exists_of_ofDraft? d hw
    obtain ⟨vs, hvs, rfl, hmore⟩ := exists_of_ofFields? rest hws
    exact ⟨(key, v) :: vs, ⟨hv, hvs⟩, rfl,
      by rw [tokenizeFields, htokens, hmore, Draft.tokenizeFields]⟩

end

/-! ### Documents -/

/-- Bytes that are a document of a value: they spell it, and it is not too deep. -/
def Denotes (bytes : List UInt8) (v : Json) : Prop :=
  ∃ text : String, bytes = Text.encode text ∧ Spelled v text.toList ∧ v.Within depthLimit

mutual

/-- The tokens of a value have values. -/
theorem isValued_tokenize : ∀ v : Json, ∀ t ∈ tokenize v, t.IsValued
  | .null | .bool _ | .number _ | .string _ => List.forall_mem_singleton.mpr (by trivial)
  | .array items => by
    rw [tokenize_array]
    refine List.forall_mem_cons.mpr ⟨trivial, List.forall_mem_append.mpr ⟨fun t ht => ?_, ?_⟩⟩
    · exact isValued_tokenizeItems items t (List.mem_of_mem_tail ht)
    · exact List.forall_mem_singleton.mpr trivial
  | .object fields => by
    rw [tokenize_object]
    refine List.forall_mem_cons.mpr ⟨trivial, List.forall_mem_append.mpr ⟨fun t ht => ?_, ?_⟩⟩
    · exact isValued_tokenizeFields fields t (List.mem_of_mem_tail ht)
    · exact List.forall_mem_singleton.mpr trivial

theorem isValued_tokenizeItems : ∀ items : List Json, ∀ t ∈ tokenizeItems items, t.IsValued
  | [] => nofun
  | item :: rest => List.forall_mem_cons.mpr ⟨trivial,
      List.forall_mem_append.mpr ⟨isValued_tokenize item, isValued_tokenizeItems rest⟩⟩

theorem isValued_tokenizeFields : ∀ fields : List (String × Json),
    ∀ t ∈ tokenizeFields fields, t.IsValued
  | [] => nofun
  | (_, value) :: rest => List.forall_mem_cons.mpr ⟨trivial, List.forall_mem_cons.mpr ⟨rfl,
      List.forall_mem_cons.mpr ⟨trivial,
        List.forall_mem_append.mpr ⟨isValued_tokenize value, isValued_tokenizeFields rest⟩⟩⟩⟩

end

theorem finish_eq_ok {α : Type} {decode : Decoder α} {reading : Draft.Reading} {a : α} :
    Decoder.finish decode reading = .ok a ↔
      decode reading.draft = .ok a ∧ reading.complete = true := by
  rw [Decoder.finish, Check.bind_eq_ok]
  constructor
  · rintro ⟨b, hb, hcomplete⟩
    split at hcomplete
    next hc =>
      cases hcomplete
      exact ⟨hb, hc⟩
    next => cases hcomplete
  · rintro ⟨ha, hcomplete⟩
    exact ⟨a, ha, if_pos hcomplete⟩

/-- **Reading** gives the value in order that the bytes denote, and nothing where they denote
none. -/
theorem read_eq_ok {bytes : List UInt8} {w : Json} :
    read bytes = .ok w ↔ ∃ v, Denotes bytes v ∧ v.sorted = w := by
  constructor
  · intro h
    obtain ⟨hdecode, hcomplete⟩ := finish_eq_ok.mp h
    rw [decode] at hdecode
    cases hvalue : ofDraft? depthLimit (Draft.ofBytes bytes).draft with
    | none =>
      rw [hvalue] at hdecode
      cases hdecode
    | some w' =>
      rw [hvalue] at hdecode
      cases hdecode
      obtain ⟨v, hwithin, hsorted, htokens⟩ := exists_of_ofDraft? _ hvalue
      have hread : Draft.ofBytes bytes = ⟨(Draft.ofBytes bytes).draft, true⟩ := by
        rw [← hcomplete]
      -- The tokens of the bytes are those of the draft, and so those of the value.
      have htokenize : tokens (Text.symbols bytes) = v.tokenize :=
        (htokens.trans (Draft.tokenize_of_ofTokens hread)).symm
      obtain ⟨text, hsymbols, hlexed⟩ := lexed_of_tokens (htokenize ▸ isValued_tokenize v)
      refine ⟨v, ⟨String.ofList text, Text.eq_encode_of_symbols hsymbols, ?_, hwithin⟩, hsorted⟩
      rw [String.toList_ofList, Spelled, ← htokenize]
      exact hlexed
  · rintro ⟨v, ⟨text, rfl, hspelled, hwithin⟩, rfl⟩
    exact read_of_spelled hwithin hspelled

end Inspection.Json
