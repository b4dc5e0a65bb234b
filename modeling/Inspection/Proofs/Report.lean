import Inspection.Plan.Basic
import Inspection.Report
import Mathlib.Data.List.Nodup
import Mathlib.Data.List.Perm.Basic

/-!
# Report — accounts

When a report accounts for a plan whose operations ended in given ways (`Report.AccountsFor`), and
when two reports differ only in the order in which failures are listed (`Report.Alike`).  Of an
operation that died the record says only what is told of the death, which need not be the same
another time; so alikeness is up to a relation of failures, and `Failure.Alike` overlooks it.

* `GroupStatus.ofOutcomes_eq`: a group is recorded with the failures of its operations, one each.
* `Report.entries_ofEnds`: of groups that are reported one after another, none takes the place of
  another.
* `Report.ofEnds_accounts`: what is reported so accounts for the plan.
* `Report.AccountsFor.alike`: reports that account for the same are alike.
* `Outcome.Alike.failures`: and so they are, up to what is told of deaths, for outcomes that are.
-/

namespace Inspection

/-! ### Sums -/

namespace Arithmetic

theorem sum_perm {ns ms : List Nat} (h : ns.Perm ms) : sum ns = sum ms := h.sum_nat

theorem sum_eq_zero {ns : List Nat} : sum ns = 0 ↔ ∀ n ∈ ns, n = 0 :=
  List.sum_eq_zero_iff_forall_eq_nat

end Arithmetic

/-! ### Entries -/

/-- Where no two entries have one key, an entry is found by its key. -/
theorem Entries.find?_eq_some_iff {κ α : Type} [DecidableEq κ] {entries : List (κ × α)}
    (h : (entries.map (·.1)).Nodup) {key : κ} {entry : κ × α} :
    entries.find? (·.1 = key) = some entry ↔ entry ∈ entries ∧ entry.1 = key := by
  constructor
  · intro hf
    exact ⟨List.mem_of_find?_eq_some hf, by simpa using List.find?_some hf⟩
  · rintro ⟨hm, rfl⟩
    cases hf : entries.find? (·.1 = entry.1) with
    | none => exact absurd (decide_eq_true rfl) (List.find?_eq_none.mp hf _ hm)
    | some other =>
      have hkey : other.1 = entry.1 := by simpa using List.find?_some hf
      rw [List.inj_on_of_nodup_map h (List.mem_of_find?_eq_some hf) hm hkey]

theorem Entries.insert_perm {α : Type} {key : String} (value : α) {entries : List (String × α)}
    (h : key ∉ entries.map (·.1)) : (insert key value entries).Perm ((key, value) :: entries) := by
  induction entries with
  | nil => exact .refl _
  | cons entry rest ih =>
    rw [List.map_cons, List.mem_cons, not_or] at h
    rw [insert, if_neg h.1]
    split
    · exact .refl _
    · exact ((ih h.2).cons entry).trans (.swap _ _ _)

namespace Keyed

variable {α : Type}

theorem keys_nodup (k : Keyed α) : k.keys.Nodup := by
  refine List.pairwise_map.mpr (k.ascending.imp fun h he => ?_)
  exact String.lt_irrefl _ (he ▸ h)

theorem find?_eq_some_iff {k : Keyed α} {key : String} {value : α} :
    k.find? key = some value ↔ (key, value) ∈ k.entries := by
  rw [find?, Option.map_eq_some_iff]
  simp only [Entries.find?_eq_some_iff k.keys_nodup]
  constructor
  · rintro ⟨entry, ⟨hm, rfl⟩, rfl⟩
    exact hm
  · intro hm
    exact ⟨_, ⟨hm, rfl⟩, rfl⟩

theorem find?_eq_none_iff {k : Keyed α} {key : String} : k.find? key = none ↔ key ∉ k.keys := by
  rw [find?, Option.map_eq_none_iff, List.find?_eq_none, keys, List.mem_map]
  constructor
  · rintro hn ⟨entry, hm, rfl⟩
    exact hn entry hm (decide_eq_true rfl)
  · intro hn entry hm he
    exact hn ⟨entry, hm, of_decide_eq_true he⟩

/-- Keys stand in one order only. -/
theorem keys_eq_of_mem_iff {k m : Keyed α} (h : ∀ key, key ∈ k.keys ↔ key ∈ m.keys) :
    k.keys = m.keys := by
  have hperm := (List.perm_ext_iff_of_nodup k.keys_nodup m.keys_nodup).mpr h
  have hk : k.keys.Pairwise (· < ·) := List.pairwise_map.mpr k.ascending
  have hm : m.keys.Pairwise (· < ·) := List.pairwise_map.mpr m.ascending
  refine hperm.eq_of_pairwise (fun a b _ _ hab hba => ?_) hk hm
  exact absurd (String.lt_trans hab hba) (String.lt_irrefl _)

end Keyed

/-! ### Groups -/

theorem Plan.map_groups (p : Plan) : p.groups.map (·.1) = Category.all := by
  simp [Plan.groups, Function.comp_def]

theorem Plan.eq_group_of_mem {p : Plan} {c : Category} {os : List Operation}
    (h : (c, os) ∈ p.groups) : os = p.group c := by
  obtain ⟨d, -, he⟩ := List.mem_map.mp h
  cases he
  rfl

/-- The record of an operation that ended so, if it failed. -/
def Operation.failure? (o : Operation) : Outcome → Option Failure
  | .success => none
  | .failure (.collection (.preparation cause)) =>
    some ⟨o.label, "Preparation failed: " ++ cause, true⟩
  | .failure error => some ⟨o.label, error.message, false⟩
  | .death text => some ⟨"unknown", text, false⟩

theorem Operation.failure?_eq (o : Operation) (x : Outcome) :
    o.failure? x = Failure.ofOutcome? o.label x := by
  cases x with
  | success => rfl
  | death => rfl
  | failure error =>
    cases error with
    | hook text => rfl
    | sink error => rfl
    | collection error => cases error <;> rfl

theorem Operation.failure?_isSome (o : Operation) (x : Outcome) :
    (o.failure? x).isSome = true ↔ x ≠ .success := by
  rw [failure?_eq]
  cases x <;> simp [Failure.ofOutcome?]

/-- Two outcomes differ at most in what is told of a death. -/
inductive Outcome.Alike : Outcome → Outcome → Prop
  | refl (x : Outcome) : Alike x x
  | death (text text' : String) : Alike (.death text) (.death text')

/-- Two failures differ at most in what is told of a death. -/
inductive Failure.Alike : Failure → Failure → Prop
  | refl (f : Failure) : Alike f f
  | lost (text text' : String) : Alike (.lost text) (.lost text')

/-- Operations that ended alike have failures that are. -/
theorem Outcome.Alike.failures {x y : Outcome} (h : x.Alike y) (o : Operation) :
    Option.Rel Failure.Alike (o.failure? x) (o.failure? y) := by
  cases h with
  | refl =>
    cases o.failure? x with
    | none => exact .none
    | some f => exact .some (.refl f)
  | death text text' => exact .some (.lost text text')

/-- What an operation is told as, and how it ended. -/
def Operation.told (e : Operation × Outcome) : String × Outcome := (e.1.label, e.2)

namespace GroupStatus

/-- A status accounts for operations that ended so. -/
structure AccountsFor (s : GroupStatus) (ended : List (Operation × Outcome)) : Prop where
  total : s.total = ended.length
  failed : s.failed = ended.countP (·.2 ≠ .success)
  /-- One record for each that failed, in any order. -/
  failures : s.failures.Perm (ended.filterMap fun (o, x) => o.failure? x)
  state : s.state = .error ↔ 0 < s.failed
  succeeded : s.succeeded + s.failed = s.total

/-- Two statuses differ only in the order of the failures, which are the same as told. -/
structure Alike (same : Failure → Failure → Prop) (s t : GroupStatus) : Prop where
  state : s.state = t.state
  total : s.total = t.total
  failed : s.failed = t.failed
  failures : ∃ fs, s.failures.Perm fs ∧ List.Forall₂ same fs t.failures

/-- The failures among some ends. -/
def failuresOf (ends : List (String × Outcome)) : List Failure :=
  ends.filterMap fun e => Failure.ofOutcome? e.1 e.2

theorem foldl_record (ends : List (String × Outcome)) (s : GroupStatus) :
    ends.foldl record s =
      ⟨if (failuresOf ends).isEmpty then s.state else .error, s.total,
        s.failed + (failuresOf ends).length, s.failures ++ failuresOf ends⟩ := by
  induction ends generalizing s with
  | nil => simp [failuresOf]
  | cons e ends ih =>
    rw [List.foldl_cons, ih]
    unfold failuresOf record
    rw [List.filterMap_cons]
    cases Failure.ofOutcome? e.1 e.2 with
    | none => rfl
    | some f =>
      simp [add]
      omega

/-- A group is recorded with the failures of its operations, one each. -/
theorem ofOutcomes_eq (ends : List (String × Outcome)) : ofOutcomes ends =
    ⟨if (failuresOf ends).isEmpty then .success else .error, ends.length,
      (failuresOf ends).length, failuresOf ends⟩ := by
  simp [ofOutcomes, foldl_record, start]

theorem ofOutcomes_accounts {ends : List (String × Outcome)} {ended : List (Operation × Outcome)}
    (h : ends.Perm (ended.map Operation.told)) : (ofOutcomes ends).AccountsFor ended := by
  have hfailures : (failuresOf ends).Perm (ended.filterMap fun (o, x) => o.failure? x) := by
    refine (h.filterMap _).trans (.of_eq ?_)
    simp [List.filterMap_map, Operation.failure?_eq, Operation.told, Function.comp_def]
  have hle : (failuresOf ends).length ≤ ends.length := List.length_filterMap_le ..
  rw [ofOutcomes_eq]
  refine ⟨?_, ?_, hfailures, ?_, Nat.sub_add_cancel hle⟩
  · simpa using h.length_eq
  · rw [hfailures.length_eq, List.length_filterMap_eq_countP]
    refine List.countP_congr fun e _ => ?_
    simp [Operation.failure?_isSome]
  · cases failuresOf ends <;> simp

section

variable {s t : GroupStatus} {ended ended' : List (Operation × Outcome)}

theorem AccountsFor.of_perm (h : s.AccountsFor ended) (hperm : ended.Perm ended') :
    s.AccountsFor ended' where
  total := h.total.trans hperm.length_eq
  failed := h.failed.trans (hperm.countP_eq _)
  failures := h.failures.trans (hperm.filterMap _)
  state := h.state
  succeeded := h.succeeded

/-- As many have failed as there are failures. -/
theorem AccountsFor.failed_eq (h : s.AccountsFor ended) : s.failed = s.failures.length := by
  rw [h.failed, h.failures.length_eq, List.length_filterMap_eq_countP]
  refine List.countP_congr fun e _ => ?_
  simp [Operation.failure?_isSome]

/-- Statuses that account for failures that are the same are alike. -/
theorem AccountsFor.alike {same : Failure → Failure → Prop} (hs : s.AccountsFor ended)
    (ht : t.AccountsFor ended')
    (h : List.Forall₂ (fun e e' => Option.Rel same (e.1.failure? e.2) (e'.1.failure? e'.2))
      ended ended') : s.Alike same t := by
  have hsame : List.Forall₂ same (ended.filterMap fun (o, x) => o.failure? x)
      (ended'.filterMap fun (o, x) => o.failure? x) := List.rel_filterMap (fun _ _ => id) h
  have hfailures : ∃ fs, s.failures.Perm fs ∧ List.Forall₂ same fs t.failures := by
    have hcomp : Relation.Comp (List.Forall₂ same) List.Perm
        (ended.filterMap fun (o, x) => o.failure? x) t.failures := ⟨_, hsame, ht.failures.symm⟩
    rw [List.forall₂_comp_perm_eq_perm_comp_forall₂] at hcomp
    obtain ⟨fs, hperm, hfs⟩ := hcomp
    exact ⟨fs, hs.failures.trans hperm, hfs⟩
  have hfailed : s.failed = t.failed := by
    obtain ⟨fs, hperm, hfs⟩ := hfailures
    rw [hs.failed_eq, ht.failed_eq, hperm.length_eq, hfs.length_eq]
  refine ⟨?_, by rw [hs.total, ht.total, h.length_eq], hfailed, hfailures⟩
  have hstate : s.state = .error ↔ t.state = .error := by rw [hs.state, ht.state, hfailed]
  cases hs : s.state <;> cases ht : t.state <;> simp [hs, ht] at hstate ⊢

end

end GroupStatus

/-! ### Reports -/

namespace Report

/-- A report accounts for a plan whose operations ended so, by their groups. -/
structure AccountsFor (r : Report) (p : Plan) (ended : Category → List (Operation × Outcome)) :
    Prop where
  /-- Every operation ended in one way. -/
  operations : ∀ c, ((ended c).map (·.1)).Perm (p.group c)
  /-- The groups that have operations are reported, each under the name of its category. -/
  named : ∀ name, name ∈ r.groups.keys ↔ ∃ c, c.name = name ∧ p.group c ≠ []
  group : ∀ c, p.group c ≠ [] → ∃ s, r.group? c = some s ∧ s.AccountsFor (ended c)
  total : r.total = p.size
  isSuccess : r.isSuccess = true ↔ r.failed = 0

/-- Two reports differ only in the order of the failures, which are the same as told. -/
structure Alike (same : Failure → Failure → Prop) (r t : Report) : Prop where
  inspectionId : r.inspectionId = t.inspectionId
  started : r.started = t.started
  keys : r.groups.keys = t.groups.keys
  group : ∀ c, Option.Rel (GroupStatus.Alike same) (r.group? c) (t.group? c)

/-- A report with what came of some groups, one after another.  Empty ones are not reported. -/
def ofEnds (r : Report) (gs : List (Category × List (String × Outcome))) : Report :=
  gs.foldl (fun r g => if g.2.isEmpty then r else r.insert g.1 (GroupStatus.ofOutcomes g.2)) r

@[simp] theorem ofEnds_inspectionId (r : Report) (gs : List (Category × List (String × Outcome))) :
    (r.ofEnds gs).inspectionId = r.inspectionId := by
  unfold ofEnds
  induction gs generalizing r with
  | nil => rfl
  | cons g gs ih =>
    rw [List.foldl_cons, ih]
    split <;> rfl

@[simp] theorem ofEnds_started (r : Report) (gs : List (Category × List (String × Outcome))) :
    (r.ofEnds gs).started = r.started := by
  unfold ofEnds
  induction gs generalizing r with
  | nil => rfl
  | cons g gs ih =>
    rw [List.foldl_cons, ih]
    split <;> rfl

/-- What is reported of a group. -/
def entryOf (g : Category × List (String × Outcome)) : String × GroupStatus :=
  (g.1.name, GroupStatus.ofOutcomes g.2)

/-- Of groups that are reported one after another, none takes the place of another. -/
theorem entries_ofEnds {r : Report} {gs : List (Category × List (String × Outcome))}
    (hnodup : (gs.map (·.1)).Nodup) (hnew : ∀ g ∈ gs, g.1.name ∉ r.groups.keys) :
    (r.ofEnds gs).groups.entries.Perm
      ((gs.filter (!·.2.isEmpty)).map entryOf ++ r.groups.entries) := by
  induction gs generalizing r with
  | nil => exact .refl _
  | cons g gs ih =>
    rw [List.map_cons, List.nodup_cons] at hnodup
    rw [List.forall_mem_cons] at hnew
    rw [ofEnds, List.foldl_cons]
    by_cases hempty : g.2.isEmpty
    · rw [if_pos hempty, List.filter_cons_of_neg (by simpa using hempty)]
      exact ih hnodup.2 hnew.2
    · rw [if_neg hempty, List.filter_cons_of_pos (by simpa using hempty)]
      have hinsert : (r.insert g.1 (GroupStatus.ofOutcomes g.2)).groups.entries.Perm
          (entryOf g :: r.groups.entries) := Entries.insert_perm _ hnew.1
      refine (ih hnodup.2 fun g' hg hm => ?_).trans ((hinsert.append_left _).trans List.perm_middle)
      rcases List.mem_cons.mp ((hinsert.map (·.1)).mem_iff.mp hm) with he | hm
      · exact hnodup.1 (List.mem_map.mpr ⟨g', hg, Category.name_injective he⟩)
      · exact hnew.2 g' hg hm

/-- Without failures is what has no failures. -/
theorem isSuccess_iff {r : Report}
    (h : ∀ s ∈ r.groups.values, (s.state = .error ↔ 0 < s.failed)) :
    r.isSuccess = true ↔ r.failed = 0 := by
  rw [isSuccess, failed, Arithmetic.sum_eq_zero, List.forall_mem_map, List.all_eq_true]
  refine forall₂_congr fun s hs => ?_
  have := h s hs
  cases hstate : s.state <;> simp [hstate] at this ⊢ <;> omega

section

variable {p : Plan} {now : Instant} {ended : Category → List (Operation × Outcome)}
  {gs : List (Category × List (String × Outcome))} (hcategories : gs.map (·.1) = Category.all)
include hcategories

theorem entries_start (id : String) : ((start id now).ofEnds gs).groups.entries.Perm
    ((gs.filter (!·.2.isEmpty)).map entryOf) := by
  have hnodup : (gs.map (·.1)).Nodup := by
    rw [hcategories]
    decide
  simpa [start, Keyed.empty] using
    entries_ofEnds (r := start id now) hnodup (by simp [start, Keyed.empty, Keyed.keys])

theorem mem_entries_start {id : String} {entry : String × GroupStatus} :
    entry ∈ ((start id now).ofEnds gs).groups.entries ↔ ∃ g ∈ gs, g.2 ≠ [] ∧ entryOf g = entry := by
  rw [(entries_start hcategories id).mem_iff, List.mem_map]
  simp [and_assoc]

/-- The groups that are left out would add nothing. -/
theorem total_start (id : String) :
    ((start id now).ofEnds gs).total = Arithmetic.sum (gs.map (·.2.length)) := by
  have hsum : ∀ gs : List (Category × List (String × Outcome)),
      Arithmetic.sum ((gs.filter (!·.2.isEmpty)).map (·.2.length)) =
        Arithmetic.sum (gs.map (·.2.length)) := by
    intro gs
    induction gs with
    | nil => rfl
    | cons g gs ih =>
      cases hg : g.2 with
      | nil => simpa [hg, Arithmetic.sum] using ih
      | cons e ends => simpa [hg, Arithmetic.sum] using ih
  rw [total, Keyed.values, List.map_map, ← hsum gs,
    Arithmetic.sum_perm ((entries_start hcategories id).map _), List.map_map]
  refine congrArg Arithmetic.sum (List.map_congr_left fun g _ => ?_)
  simp [entryOf, GroupStatus.ofOutcomes_eq]

/-- What is reported of groups one after another, each of which ended so, accounts for the plan. -/
theorem ofEnds_accounts (hops : ∀ c, ((ended c).map (·.1)).Perm (p.group c))
    (hends : ∀ g ∈ gs, g.2.Perm ((ended g.1).map Operation.told)) :
    ((start p.inspectionId now).ofEnds gs).AccountsFor p ended := by
  have hlength : ∀ g ∈ gs, g.2.length = (p.group g.1).length := by
    intro g hg
    rw [(hends g hg).length_eq, ← (hops g.1).length_eq, List.length_map, List.length_map]
  have hempty : ∀ g ∈ gs, (g.2 ≠ [] ↔ p.group g.1 ≠ []) := by
    intro g hg
    rw [← List.length_pos_iff, hlength g hg, List.length_pos_iff]
  have hexists : ∀ c, ∃ g ∈ gs, g.1 = c := by
    intro c
    exact List.mem_map.mp (hcategories ▸ Category.mem_all c)
  refine ⟨hops, fun name => ?_, fun c hc => ?_, ?_, isSuccess_iff fun s hs => ?_⟩
  · rw [Keyed.keys, List.mem_map]
    constructor
    · rintro ⟨entry, he, rfl⟩
      obtain ⟨g, hg, hsome, rfl⟩ := (mem_entries_start hcategories).mp he
      exact ⟨g.1, rfl, (hempty g hg).mp hsome⟩
    · rintro ⟨c, rfl, hc⟩
      obtain ⟨g, hg, rfl⟩ := hexists c
      exact ⟨entryOf g, (mem_entries_start hcategories).mpr ⟨g, hg, (hempty g hg).mpr hc, rfl⟩, rfl⟩
  · obtain ⟨g, hg, rfl⟩ := hexists c
    have hm : entryOf g ∈ ((start p.inspectionId now).ofEnds gs).groups.entries :=
      (mem_entries_start hcategories).mpr ⟨g, hg, (hempty g hg).mpr hc, rfl⟩
    exact ⟨_, Keyed.find?_eq_some_iff.mpr hm, GroupStatus.ofOutcomes_accounts (hends g hg)⟩
  · calc _ = Arithmetic.sum (gs.map (·.2.length)) := total_start hcategories _
      _ = Arithmetic.sum (gs.map fun g => (p.group g.1).length) :=
        congrArg Arithmetic.sum (List.map_congr_left hlength)
      _ = p.size := by
        rw [Plan.size, ← hcategories, List.map_map]
        rfl
  · obtain ⟨entry, he, rfl⟩ := List.mem_map.mp hs
    obtain ⟨g, hg, -, rfl⟩ := (mem_entries_start hcategories).mp he
    exact (GroupStatus.ofOutcomes_accounts (hends g hg)).state

end

section

variable {r t : Report} {p : Plan} {ended ended' : Category → List (Operation × Outcome)}

theorem AccountsFor.of_perm (h : r.AccountsFor p ended) (hperm : ∀ c, (ended c).Perm (ended' c)) :
    r.AccountsFor p ended' where
  operations c := ((hperm c).symm.map _).trans (h.operations c)
  named := h.named
  group c hc := by
    obtain ⟨s, hs, haccounts⟩ := h.group c hc
    exact ⟨s, hs, haccounts.of_perm (hperm c)⟩
  total := h.total
  isSuccess := h.isSuccess

theorem AccountsFor.group?_eq_none (h : r.AccountsFor p ended) {c : Category}
    (hc : p.group c = []) : r.group? c = none := by
  refine Keyed.find?_eq_none_iff.mpr fun hm => ?_
  obtain ⟨d, hd, hsome⟩ := (h.named _).mp hm
  exact hsome (Category.name_injective hd ▸ hc)

/-- Reports that account for failures that are the same are alike. -/
theorem AccountsFor.alike {same : Failure → Failure → Prop} (hr : r.AccountsFor p ended)
    (ht : t.AccountsFor p ended')
    (h : ∀ c, List.Forall₂
      (fun e e' => Option.Rel same (e.1.failure? e.2) (e'.1.failure? e'.2)) (ended c) (ended' c))
    (hid : r.inspectionId = t.inspectionId) (hstarted : r.started = t.started) :
    r.Alike same t where
  inspectionId := hid
  started := hstarted
  keys := Keyed.keys_eq_of_mem_iff fun name => (hr.named name).trans (ht.named name).symm
  group c := by
    by_cases hc : p.group c = []
    · rw [hr.group?_eq_none hc, ht.group?_eq_none hc]
      exact .none
    · obtain ⟨s, hs, hs'⟩ := hr.group c hc
      obtain ⟨u, hu, hu'⟩ := ht.group c hc
      rw [hs, hu]
      exact .some (hs'.alike hu' (h c))

end

end Report

end Inspection
