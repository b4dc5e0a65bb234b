import Inspection.Path

/-!
# Path — what lies in a directory

A text is a *name* when it is a single component.  A path *lies in* a directory when its
components are those of the directory and one name more: it is a file right in the directory,
whatever stands before.

* `components_join_name`: a name joined to a directory adds one component.
* `liesIn_join_iff`: a text that ends in a name, joined to a directory, lies in it exactly when
  what comes before the name leads back to the directory.
* `isName_append`: what ends long enough is a name, as long as no slash is in it.
-/

namespace Inspection.Path

/-- A text that is one component: not empty, neither of the dots, and free of separators. -/
structure IsName (s : String) : Prop where
  nonempty : s ≠ ""
  notHere : s ≠ "."
  notUp : s ≠ ".."
  free : '/' ∉ s.toList

instance (s : String) : Decidable (IsName s) :=
  decidable_of_iff (s ≠ "" ∧ s ≠ "." ∧ s ≠ ".." ∧ '/' ∉ s.toList)
    ⟨fun ⟨hne, hh, hu, hf⟩ => ⟨hne, hh, hu, hf⟩, fun ⟨hne, hh, hu, hf⟩ => ⟨hne, hh, hu, hf⟩⟩

/-- The components of a path are those of a directory and one name more. -/
def LiesIn (directory path : String) : Prop :=
  ∃ name, IsName name ∧ components path = components directory ++ [.normal name]

/-! ### Components by pieces -/

/-- The pieces of a path, each with whether it is a component. -/
def marked : List (List Char) → List (Bool × List Char)
  | [] => []
  | first :: rest =>
    (!first.isEmpty, first) :: rest.map fun piece => (!piece.isEmpty && piece != ['.'], piece)

/-- The components of a path by its characters. -/
def componentsOf (cs : List Char) : List Component :=
  (if cs.head? = some '/' then [.root] else []) ++
    ((marked (Text.split '/' cs)).filter (·.1)).map fun piece => component piece.2

theorem components_eq (path : String) : components path = componentsOf path.toList := by
  simp only [components, componentsOf, isAbsolute, decide_eq_true_eq]
  rfl

theorem marked_append {pieces : List (List Char)} (h : pieces ≠ []) (more : List (List Char)) :
    marked (pieces ++ more) =
      marked pieces ++ more.map fun piece => (!piece.isEmpty && piece != ['.'], piece) := by
  cases pieces with
  | nil => exact absurd rfl h
  | cons first rest => simp [marked]

theorem head?_append_slash {cs : List Char} (h : cs ≠ []) (rest : List Char) :
    (cs ++ '/' :: rest).head? = cs.head? := by
  cases cs with
  | nil => exact absurd rfl h
  | cons c cs => rfl

/-- A slash at the end of a path says nothing. -/
theorem componentsOf_append_slash {cs : List Char} (h : cs ≠ []) :
    componentsOf (cs ++ ['/']) = componentsOf cs := by
  unfold componentsOf
  rw [head?_append_slash h, Text.split_append, marked_append (Text.split_ne_nil '/' cs)]
  simp [Text.split]

namespace IsName

variable {name : String} (hn : IsName name)
include hn

theorem toList_ne_nil : name.toList ≠ [] :=
  fun e => hn.nonempty (String.toList_eq_nil_iff.mp e)

theorem toList_ne_here : name.toList ≠ ['.'] :=
  fun e => hn.notHere (String.toList_injective e)

theorem component_eq : component name.toList = .normal name := by
  have hup : name.toList ≠ ['.', '.'] := fun e => hn.notUp (String.toList_injective e)
  rw [component, if_neg hn.toList_ne_here, if_neg hup, String.ofList_toList]

theorem isAbsolute_eq : isAbsolute name = false := by
  rw [isAbsolute, decide_eq_false_iff_not]
  exact fun h => hn.free (List.mem_of_mem_head? h)

theorem componentsOf_eq : componentsOf name.toList = [.normal name] := by
  have hhead : name.toList.head? ≠ some '/' := fun h => hn.free (List.mem_of_mem_head? h)
  rw [componentsOf, if_neg hhead, Text.split_of_notMem hn.free]
  simp [marked, hn.toList_ne_nil, hn.component_eq]

/-- A name behind a slash is one component more. -/
theorem componentsOf_append (cs : List Char) :
    componentsOf (cs ++ '/' :: name.toList) = componentsOf (cs ++ ['/']) ++ [.normal name] := by
  have hhead : (cs ++ '/' :: name.toList).head? = (cs ++ ['/']).head? := by cases cs <;> rfl
  unfold componentsOf
  rw [hhead, Text.split_append, Text.split_append, Text.split_of_notMem hn.free,
    marked_append (Text.split_ne_nil '/' cs), marked_append (Text.split_ne_nil '/' cs)]
  simp [Text.split, hn.component_eq, hn.toList_ne_nil, hn.toList_ne_here]

end IsName

/-! ### Joining -/

/-- A directory with the slash that stands before what is joined to it. -/
def slashed (cs : List Char) : List Char :=
  if cs.isEmpty ∨ cs.getLast? = some '/' then cs else cs ++ ['/']

/-- Nothing, or something that ends in a slash. -/
def Leads (cs : List Char) : Prop := cs = [] ∨ ∃ front, cs = front ++ ['/']

theorem leads_slashed (cs : List Char) : Leads (slashed cs) := by
  by_cases h : cs = []
  · subst h
    exact .inl rfl
  · by_cases hl : cs.getLast? = some '/'
    · obtain ⟨front, rfl⟩ := List.getLast?_eq_some_iff.mp hl
      exact .inr ⟨front, by simp [slashed]⟩
    · exact .inr ⟨cs, by simp [slashed, h, hl]⟩

theorem slashed_of_leads {cs : List Char} (h : Leads cs) : slashed cs = cs := by
  rcases h with rfl | ⟨front, rfl⟩
  · rfl
  · simp [slashed]

theorem Leads.append {cs more : List Char} (h : Leads cs) (hm : Leads more) :
    Leads (cs ++ more) := by
  rcases hm with rfl | ⟨front, rfl⟩
  · rwa [List.append_nil]
  · exact .inr ⟨cs ++ front, (List.append_assoc ..).symm⟩

theorem componentsOf_slashed (cs : List Char) : componentsOf (slashed cs) = componentsOf cs := by
  by_cases h : cs = []
  · subst h
    rfl
  · by_cases hl : cs.getLast? = some '/'
    · simp [slashed, hl]
    · simpa [slashed, h, hl] using componentsOf_append_slash h

theorem toList_join (directory : String) {further : String} (h : isAbsolute further = false) :
    (join directory further).toList = slashed directory.toList ++ further.toList := by
  unfold join slashed
  rw [if_neg (by simp [h])]
  split <;> simp

/-- Joining nothing leads nowhere. -/
theorem components_join_empty (directory : String) :
    components (join directory "") = components directory := by
  rw [components_eq, components_eq, toList_join directory rfl]
  simpa using componentsOf_slashed directory.toList

/-- **A name joined to a directory** is one component behind those of the directory. -/
theorem components_join_name (directory : String) {name : String} (hn : IsName name) :
    components (join directory name) = components directory ++ [.normal name] := by
  rw [components_eq, components_eq, toList_join directory hn.isAbsolute_eq,
    ← componentsOf_slashed directory.toList]
  rcases leads_slashed directory.toList with he | ⟨front, he⟩
  · rw [he]
    exact hn.componentsOf_eq
  · rw [he, List.append_assoc]
    exact hn.componentsOf_append front

theorem liesIn_join_name (directory : String) {name : String} (hn : IsName name) :
    LiesIn directory (join directory name) :=
  ⟨name, hn, components_join_name directory hn⟩

/-! ### Texts of several components -/

/-- The part of a text up to its last slash. -/
def lead (s : String) : String := String.ofList (s.toList.reverse.dropWhile (· ≠ '/')).reverse

/-- The part of a text behind its last slash. -/
def last (s : String) : String := String.ofList (s.toList.reverse.takeWhile (· ≠ '/')).reverse

theorem lead_append_last (s : String) : lead s ++ last s = s := by
  apply String.toList_injective
  simp only [lead, last, String.toList_append, String.toList_ofList]
  rw [← List.reverse_append, List.takeWhile_append_dropWhile, List.reverse_reverse]

theorem slash_notMem_last (s : String) : '/' ∉ (last s).toList := by
  intro h
  simp only [last, String.toList_ofList, List.mem_reverse] at h
  simpa using List.all_eq_true.mp List.all_takeWhile _ h

/-- What stands before the last slash of a text leads somewhere. -/
theorem leads_lead (s : String) : Leads (lead s).toList := by
  rw [lead, String.toList_ofList]
  cases h : s.toList.reverse.dropWhile (· ≠ '/') with
  | nil => exact .inl rfl
  | cons c rest =>
    have hc : c = '/' := by
      have hfirst := List.head?_dropWhile_not (· ≠ '/') s.toList.reverse
      rw [h] at hfirst
      simpa using hfirst
    subst hc
    exact .inr ⟨rest.reverse, List.reverse_cons⟩

theorem lead_eq_empty {s : String} (h : '/' ∉ s.toList) : lead s = "" := by
  rcases leads_lead s with he | ⟨front, he⟩
  · exact String.toList_eq_nil_iff.mp he
  · refine absurd ?_ h
    rw [← lead_append_last s, String.toList_append, he]
    simp

/-- Up to its last slash, a text leads from a directory to the directory itself. -/
def LeadsBack (directory text : String) : Prop :=
  components (join directory (lead text)) = components directory

theorem leadsBack_of_slash_notMem (directory : String) {text : String} (h : '/' ∉ text.toList) :
    LeadsBack directory text := by
  rw [LeadsBack, lead_eq_empty h]
  exact components_join_empty directory

/-- An ending of three characters or more rules out the dots. -/
theorem isName_append {before ending : String} (hb : '/' ∉ before.toList)
    (he : '/' ∉ ending.toList) (hlong : 2 < ending.length) : IsName (before ++ ending) := by
  have hlength : 2 < (before ++ ending).length := by
    rw [String.length_append]
    exact Nat.lt_add_left _ hlong
  have hne : ∀ short : String, short.length ≤ 2 → before ++ ending ≠ short := by
    rintro short hshort rfl
    exact Nat.not_le.mpr hlength hshort
  refine ⟨hne "" (by decide), hne "." (by decide), hne ".." (by decide), fun hm => ?_⟩
  rw [String.toList_append, List.mem_append] at hm
  exact hm.elim hb he

/-- Joining what leads somewhere and a name is joining one after the other. -/
theorem join_append (directory : String) {before name : String} (hb : Leads before.toList)
    (hn : IsName name) : join directory (before ++ name) = join (join directory before) name := by
  apply String.toList_injective
  rw [toList_join _ hn.isAbsolute_eq]
  -- An absolute text replaces the directory, on either side.
  by_cases ha : isAbsolute before = true
  · have hboth : isAbsolute (before ++ name) = true := by
      rw [isAbsolute, decide_eq_true_eq] at ha ⊢
      rw [String.toList_append, List.head?_append, ha]
      rfl
    rw [join_absolute ha, join_absolute hboth, slashed_of_leads hb, String.toList_append]
  · rw [Bool.not_eq_true] at ha
    have hboth : isAbsolute (before ++ name) = false := by
      rcases hb with he | ⟨front, he⟩
      · rw [String.toList_eq_nil_iff.mp he, String.empty_append]
        exact hn.isAbsolute_eq
      · rw [isAbsolute, decide_eq_false_iff_not] at ha ⊢
        rw [String.toList_append, List.head?_append]
        simpa [he] using ha
    rw [toList_join _ ha, toList_join _ hboth,
      slashed_of_leads ((leads_slashed _).append hb), String.toList_append, List.append_assoc]

/-- **A text that ends in a name**, joined to a directory, lies in it exactly when the part before
the name leads back to the directory. -/
theorem liesIn_join_iff (directory text : String) {ending : String}
    (hn : IsName (last text ++ ending)) :
    LiesIn directory (join directory (text ++ ending)) ↔ LeadsBack directory text := by
  have hsplit : text ++ ending = lead text ++ (last text ++ ending) := by
    rw [← String.append_assoc, lead_append_last]
  -- What stands behind the last slash is one name, so all hangs on what stands before.
  rw [LiesIn, LeadsBack, hsplit, join_append directory (leads_lead text) hn,
    components_join_name _ hn]
  constructor
  · rintro ⟨name, -, h⟩
    exact (List.append_inj' h rfl).1
  · intro h
    exact ⟨_, hn, by rw [h]⟩

end Inspection.Path
