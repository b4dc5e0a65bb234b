import Inspection.Proofs.Check
import Inspection.Proofs.Text.Pieces
import Inspection.Target

/-!
# Target — what specifications are written as

A text is cut at its commas, and blanks around the tokens and empty tokens are left out.  A token
is read when what stands before its first colon is the name of a category; the segments behind it
are kept as they are, and written again they give the token (`Target.read_eq_ok`).  So reading a
text is finding the targets that its tokens are the writing of (`read_eq_ok`), and the first token
that is none is the error (`read_eq_error`).

* `read_grammar`: which texts are read, as what, and that what was read may be written again in any
  order that keeps the order within every category.
-/

namespace Inspection

/-- Whether writing a qualifier keeps its segments apart. -/
def Qualifier.IsWritten : Qualifier → Prop
  | .flag => True
  | .value text => ':' ∉ text.toList
  | .parts segments => 2 ≤ segments.length ∧ ∀ segment ∈ segments, ':' ∉ segment.toList

theorem Qualifier.isWritten_ofSegments {segments : List String}
    (h : ∀ segment ∈ segments, ':' ∉ segment.toList) : (ofSegments segments).IsWritten := by
  match segments with
  | [] => trivial
  | [text] => exact h text (by simp)
  | first :: second :: rest => exact ⟨by simp, h⟩

theorem Qualifier.segments_ofSegments : ∀ ss : List String, (ofSegments ss).segments = ss
  | [] | [_] | _ :: _ :: _ => rfl

theorem Qualifier.ofSegments_segments {q : Qualifier} (h : q.IsWritten) :
    ofSegments q.segments = q := by
  match q with
  | .flag | .value _ => rfl
  | .parts (_ :: _ :: _) => rfl
  | .parts [] | .parts [_] => simp [IsWritten] at h

theorem Qualifier.notMem_of_isWritten {q : Qualifier} (h : q.IsWritten) {segment : String}
    (hs : segment ∈ q.segments) : ':' ∉ segment.toList := by
  match q with
  | .flag => cases hs
  | .value text =>
    rw [List.mem_singleton.mp hs]
    exact h
  | .parts segments => exact h.2 segment hs

theorem Category.notMem_name : ∀ c : Category, ':' ∉ c.name.toList
  | .setup | .basic | .profile | .metric | .config | .dbinfo | .log | .teardown => by decide

namespace Target

/-! ### One target -/

/-- What stands before the first colon of a token. -/
def nameOf (token : String) : String := String.ofList (token.toList.takeWhile (· ≠ ':'))

/-- The name of a token is its first piece. -/
theorem pieces_eq_cons (token : String) :
    ∃ segments, Text.pieces ':' token = nameOf token :: segments := by
  obtain ⟨rest, hr⟩ := Text.split_eq_takeWhile_cons ':' token.toList
  exact ⟨rest.map String.ofList, by rw [Text.pieces, hr, List.map_cons, nameOf]⟩

theorem pieces_render {t : Target} (h : t.2.IsWritten) :
    Text.pieces ':' t.render = t.1.name :: t.2.segments := by
  refine Text.pieces_intercalate (by simp) fun p hp => ?_
  rcases List.mem_cons.mp hp with rfl | hp
  · exact t.1.notMem_name
  · exact Qualifier.notMem_of_isWritten h hp

theorem nameOf_render {t : Target} (h : t.2.IsWritten) : nameOf t.render = t.1.name := by
  obtain ⟨segments, hp⟩ := pieces_eq_cons t.render
  rw [pieces_render h] at hp
  exact (List.cons.inj hp).1.symm

/-- **A token is read as the target that it is the writing of.** -/
theorem read_eq_ok {token : String} {t : Target} :
    read token = .ok t ↔ t.2.IsWritten ∧ t.render = token := by
  constructor
  · intro h
    obtain ⟨segments, hp⟩ := pieces_eq_cons token
    have hfree : ∀ segment ∈ segments, ':' ∉ segment.toList := fun segment hs =>
      Text.notMem_of_mem_pieces (hp ▸ List.mem_cons_of_mem _ hs)
    simp only [read, hp] at h
    split at h
    next c hc =>
      cases h
      refine ⟨Qualifier.isWritten_ofSegments hfree, ?_⟩
      rw [render, Qualifier.segments_ofSegments, Category.name_of_ofName? hc, ← hp]
      exact Text.intercalate_pieces ':' token
    · cases h
  · rintro ⟨hw, rfl⟩
    simp only [read, pieces_render hw, Category.ofName?_name, Qualifier.ofSegments_segments hw]

/-- A token whose name is no category's is not read. -/
theorem read_eq_error {token : String} {e : TargetError} :
    read token = .error e ↔
      (∀ c : Category, nameOf token ≠ c.name) ∧ e = .unsupported (nameOf token) := by
  obtain ⟨segments, hp⟩ := pieces_eq_cons token
  simp only [read, hp]
  cases hc : Category.ofName? (nameOf token) with
  | some c =>
    refine ⟨nofun, fun h => ?_⟩
    exact absurd (Category.name_of_ofName? hc).symm (h.1 c)
  | none =>
    refine ⟨fun h => ⟨fun c hn => ?_, (Except.error.inj h).symm⟩, fun h => by rw [h.2]⟩
    rw [hn, Category.ofName?_name] at hc
    cases hc

theorem exists_read_eq_ok {token : String} :
    (∃ t, read token = .ok t) ↔ ∃ c : Category, nameOf token = c.name := by
  cases h : read token with
  | ok t =>
    obtain ⟨hw, rfl⟩ := read_eq_ok.mp h
    exact iff_of_true ⟨t, rfl⟩ ⟨t.1, nameOf_render hw⟩
  | error e =>
    refine iff_of_false nofun ?_
    rintro ⟨c, hc⟩
    exact (read_eq_error.mp h).1 c hc

/-! ### Tokens -/

/-- The tokens of a text are trimmed, and free of commas. -/
theorem of_mem_tokens {text token : String} (h : token ∈ tokens text) :
    ',' ∉ token.toList ∧ Text.trim token = token ∧ token ≠ "" := by
  obtain ⟨hm, hne⟩ := List.mem_filter.mp h
  obtain ⟨piece, hp, rfl⟩ := List.mem_map.mp hm
  exact ⟨fun hc => Text.notMem_of_mem_pieces hp (Text.mem_of_mem_trim hc), Text.trim_trim piece,
    of_decide_eq_true hne⟩

/-- Tokens come back from their joining. -/
theorem tokens_intercalate {ts : List String}
    (h : ∀ t ∈ ts, ',' ∉ t.toList ∧ Text.trim t = t ∧ t ≠ "") :
    tokens (String.intercalate "," ts) = ts := by
  by_cases hts : ts = []
  · subst hts
    decide
  · have hpieces : Text.pieces ',' (String.intercalate "," ts) = ts :=
      Text.pieces_intercalate hts fun t ht => (h t ht).1
    have htrim : ts.map Text.trim = ts :=
      (List.map_congr_left fun t ht => (h t ht).2.1).trans (List.map_id' ts)
    rw [tokens, hpieces, htrim, List.filter_eq_self]
    exact fun t ht => decide_eq_true (h t ht).2.2

theorem mapM_read_eq_ok {tokens : List String} {targets : List Target} :
    tokens.mapM read = .ok targets ↔
      tokens = targets.map render ∧ ∀ t ∈ targets, t.2.IsWritten := by
  rw [Check.mapM_eq_ok]
  constructor
  · intro h
    induction h with
    | nil => exact ⟨rfl, by simp⟩
    | cons ht _ ih =>
      obtain ⟨hw, rfl⟩ := read_eq_ok.mp ht
      obtain ⟨rfl, hws⟩ := ih
      exact ⟨rfl, List.forall_mem_cons.mpr ⟨hw, hws⟩⟩
  · rintro ⟨rfl, hws⟩
    rw [List.forall₂_map_left_iff, List.forall₂_same]
    exact fun t ht => read_eq_ok.mpr ⟨hws t ht, rfl⟩

end Target

namespace TargetSpec

/-! ### Specifications -/

theorem qualifiers_eq_filter (ts : List Target) (c : Category) :
    (ofTargets ts).qualifiers c = (ts.filter (·.1 = c)).map (·.2) := by
  rw [qualifiers_ofTargets]
  induction ts with
  | nil => rfl
  | cons t ts ih => by_cases h : t.1 = c <;> simp [h, ih]

/-- **A text is read as the targets that its tokens are the writing of.** -/
theorem read_eq_ok {text : String} {spec : TargetSpec} :
    read text = .ok spec ↔ ∃ targets : List Target,
      Target.tokens text = targets.map Target.render ∧ (∀ t ∈ targets, t.2.IsWritten) ∧
        ofTargets targets = spec := by
  simp only [read, Check.map_eq_ok, Target.mapM_read_eq_ok, and_assoc]

theorem mem_qualifiers_ofTargets {ts : List Target} {c : Category} {q : Qualifier} :
    q ∈ (ofTargets ts).qualifiers c ↔ (c, q) ∈ ts := by
  rw [qualifiers_ofTargets, List.mem_filterMap]
  constructor
  · rintro ⟨⟨d, r⟩, hm, he⟩
    obtain ⟨rfl, hr⟩ := Option.ite_none_right_eq_some.mp he
    cases hr
    exact hm
  · exact fun h => ⟨(c, q), h, if_pos rfl⟩

theorem contains_ofTargets {ts : List Target} {c : Category} :
    (ofTargets ts).contains c = true ↔ ∃ t ∈ ts, t.1 = c := by
  rw [contains, Bool.not_eq_true', List.isEmpty_eq_false_iff_exists_mem]
  constructor
  · rintro ⟨q, hq⟩
    exact ⟨(c, q), mem_qualifiers_ofTargets.mp hq, rfl⟩
  · rintro ⟨⟨d, q⟩, hm, rfl⟩
    exact ⟨q, mem_qualifiers_ofTargets.mpr hm⟩

/-- What was read may be written again, in any order that keeps the order within a category. -/
theorem read_intercalate {text : String} {ts more : List Target}
    (htokens : Target.tokens text = ts.map Target.render) (hw : ∀ t ∈ ts, t.2.IsWritten)
    (hsame : ∀ c, (ofTargets more).qualifiers c = (ofTargets ts).qualifiers c) :
    read (String.intercalate "," (more.map Target.render)) = .ok (ofTargets ts) := by
  -- Every target that is written again is one that was read.
  have hmem : ∀ t ∈ more, t ∈ ts := fun t ht =>
    mem_qualifiers_ofTargets.mp (hsame t.1 ▸ mem_qualifiers_ofTargets.mpr ht)
  refine read_eq_ok.mpr ⟨more, Target.tokens_intercalate ?_, fun t ht => hw t (hmem t ht),
    TargetSpec.ext hsame⟩
  intro token hm
  obtain ⟨t, ht, rfl⟩ := List.mem_map.mp hm
  exact Target.of_mem_tokens (htokens ▸ List.mem_map_of_mem (hmem t ht))

theorem choice?_eq (spec : TargetSpec) (c : Category) :
    spec.choice? c = (spec.qualifiers c).find? (· ≠ .flag) := by
  have hflag : (fun q : Qualifier => !q.isFlag) = fun q => decide (q ≠ .flag) := by
    funext q
    cases q <;> simp [Qualifier.isFlag]
  rw [choice?, hflag]

/-- **The grammar of specifications.**  The tokens of a text are its pieces between commas, trimmed,
without the empty ones.  The text is read exactly if every token has the name of a category before
its first colon, and what the first other token has there is the error otherwise.  What is read
are the targets that the tokens are the writing of, segment by segment, in order: a category is
there if a token names it, categories come in their order and once, and the first qualifier that
says something counts.  The targets written again, as long as the order within every category is
kept, are read as the same. -/
theorem read_grammar (text : String) :
    (∃ pieces, pieces ≠ [] ∧ (∀ p ∈ pieces, ',' ∉ p.toList) ∧
      text = String.intercalate "," pieces ∧
      Target.tokens text = (pieces.map Text.trim).filter (· ≠ "")) ∧
    ((∃ spec, read text = .ok spec) ↔
      ∀ token ∈ Target.tokens text, ∃ c : Category, Target.nameOf token = c.name) ∧
    (∀ before token after, Target.tokens text = before ++ token :: after →
      (∀ b ∈ before, ∃ c : Category, Target.nameOf b = c.name) →
      (∀ c : Category, Target.nameOf token ≠ c.name) →
      read text = .error (.unsupported (Target.nameOf token))) ∧
    ∀ spec, read text = .ok spec →
      (∃ targets : List Target, Target.tokens text = targets.map Target.render ∧
        (∀ t ∈ targets, t.2.IsWritten) ∧
        ∀ c, spec.qualifiers c = (targets.filter (·.1 = c)).map (·.2)) ∧
      (∀ c, spec.contains c = true ↔
        ∃ token ∈ Target.tokens text, Target.nameOf token = c.name) ∧
      (∀ c, c ∈ spec.categories ↔ spec.contains c = true) ∧
      spec.categories.Sublist
        [.setup, .basic, .profile, .metric, .config, .dbinfo, .log, .teardown] ∧
      (∀ c, spec.choice? c = (spec.qualifiers c).find? (· ≠ .flag)) ∧
      ∀ targets : List Target,
        (∀ c, (targets.filter (·.1 = c)).map (·.2) = spec.qualifiers c) →
        read (String.intercalate "," (targets.map Target.render)) = .ok spec := by
  refine ⟨⟨Text.pieces ',' text, Text.pieces_ne_nil _ _, fun p hp => Text.notMem_of_mem_pieces hp,
    (Text.intercalate_pieces ',' text).symm, rfl⟩, ?_, fun before token after ht hb hn => ?_,
    fun spec h => ?_⟩
  · simp only [read, Check.map_eq_ok, ← Target.exists_read_eq_ok, ← Check.exists_mapM_eq_ok]
    exact ⟨fun ⟨_, ts, h, _⟩ => ⟨ts, h⟩, fun ⟨ts, h⟩ => ⟨_, ts, h, rfl⟩⟩
  · rw [read, ht]
    exact Check.map_eq_error.mpr (Check.mapM_eq_error after
      (Target.read_eq_error.mpr ⟨hn, rfl⟩) fun b hm => Target.exists_read_eq_ok.mpr (hb b hm))
  · obtain ⟨ts, htokens, hw, rfl⟩ := read_eq_ok.mp h
    refine ⟨⟨ts, htokens, hw, qualifiers_eq_filter ts⟩, fun c => ?_, fun c => ?_,
      List.filter_sublist, choice?_eq _, fun more hmore => ?_⟩
    · rw [contains_ofTargets, htokens]
      constructor
      · rintro ⟨t, ht, rfl⟩
        exact ⟨t.render, List.mem_map_of_mem ht, Target.nameOf_render (hw t ht)⟩
      · rintro ⟨_, hm, hn⟩
        obtain ⟨t, ht, rfl⟩ := List.mem_map.mp hm
        exact ⟨t, ht, Category.name_injective ((Target.nameOf_render (hw t ht)).symm.trans hn)⟩
    · rw [categories, List.mem_filter]
      exact and_iff_right c.mem_all
    · refine read_intercalate htokens hw fun c => ?_
      rw [qualifiers_eq_filter, hmore]

/-- Targets with an empty segment, a blank one and one that says nothing. -/
def mixedTargets : List Target :=
  [(.log, .parts ["a", "", " b"]), (.basic, .flag), (.dbinfo, .value ""), (.log, .flag)]

/-- The order across categories may change, and a blank before a colon is no part of a name. -/
theorem read_grammar_mixed :
    read " log:a:: b ,\u2003basic,,dbinfo:,log" = .ok (ofTargets mixedTargets) ∧
      (ofTargets mixedTargets).categories = [.basic, .dbinfo, .log] ∧
      read "dbinfo:,log:a:: b,log,basic" = .ok (ofTargets mixedTargets) ∧
      read "basic,log :1h,nothing" = .error (.unsupported "log ") := by
  have h : read " log:a:: b ,\u2003basic,,dbinfo:,log" = .ok (ofTargets mixedTargets) := rfl
  refine ⟨h, rfl, ?_, ?_⟩
  · refine ((read_grammar _).2.2.2 _ h).2.2.2.2.2
      [(.dbinfo, .value ""), (.log, .parts ["a", "", " b"]), (.log, .flag), (.basic, .flag)]
      fun c => ?_
    cases c <;> rfl
  · exact (read_grammar _).2.2.1 ["basic"] "log :1h" ["nothing"] (by decide)
      (fun b hb => ⟨.basic, by rw [List.mem_singleton.mp hb]; decide⟩)
      (fun c => by cases c <;> decide)

end TargetSpec

end Inspection
