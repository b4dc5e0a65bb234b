import Inspection.Proofs.Url.Percent
import Inspection.Url.Basic

/-!
# Url — a segment put behind a path

A text becomes one segment of a path, and the segment is decoded to the text, as long as it has no
character that the writing of URLs leaves out.  Such characters are left out before dots are looked
for, so a text with one may say something else or stand for another place.

* `decode_segmentOf`: the segment of a text is decoded to the text.
* `push_segmentOf`: a text that is not points alone is put behind a path as its segment.
* `appendSegment_eq`: appending a text puts there the segment of what is kept of it.
-/

namespace Inspection.Url

/-! ### Dots -/

theorem toLower_cases (c : Char) :
    c.toLower = c ∨ 65 ≤ c.toNat ∧ c.toNat ≤ 90 ∧ c.toLower.toNat = c.toNat + 32 := by
  unfold Char.toLower
  split
  next hcap =>
    obtain ⟨hlow, hhigh⟩ := hcap
    have hlow' : 65 ≤ c.toNat := UInt32.le_iff_toNat_le.mp hlow
    have hhigh' : c.toNat ≤ 90 := UInt32.le_iff_toNat_le.mp hhigh
    refine .inr ⟨hlow', hhigh', ?_⟩
    have hsum : (c.val + ('a'.val - 'A'.val)).toNat = (c.toNat + 32) % UInt32.size :=
      UInt32.toNat_add c.val 32
    exact hsum.trans (Nat.mod_eq_of_lt (by simp [UInt32.size]; omega))
  · exact .inl rfl

theorem eq_of_toLower {c d : Char} (h : c.toLower = d) (hd : d.toNat < 97) : c = d := by
  rcases toLower_cases c with hc | ⟨hlow, -, hc⟩
  · exact hc.symm.trans h
  · rw [h] at hc
    omega

theorem eq_of_toLower_e {c : Char} (h : c.toLower = 'e') : c = 'e' ∨ c = 'E' := by
  rcases toLower_cases c with hc | ⟨-, -, hc⟩
  · exact .inl (hc.symm.trans h)
  · rw [h] at hc
    exact .inr (Char.toNat_inj.mp (Nat.add_right_cancel (hc.symm.trans rfl)))

/-- A point, plain or encoded, is decoded to the byte of a point. -/
theorem decode_of_point {segment point more : List Char}
    (hpoint : point = ['.'] ∨ point = ['%', '2', 'e'])
    (h : segment.map Char.toLower = point ++ more) :
    ∃ rest, rest.map Char.toLower = more ∧ decode segment = 0x2E :: decode rest := by
  rcases hpoint with rfl | rfl
  · obtain ⟨a, rest, rfl, ha, hrest⟩ := List.map_eq_cons_iff.mp h
    refine ⟨rest, hrest, ?_⟩
    rw [eq_of_toLower ha (by decide), decode_cons_of_ne (by decide)]
    rfl
  · obtain ⟨a, _, rfl, ha, h⟩ := List.map_eq_cons_iff.mp h
    obtain ⟨b, _, rfl, hb, h⟩ := List.map_eq_cons_iff.mp h
    obtain ⟨c, rest, rfl, hc, hrest⟩ := List.map_eq_cons_iff.mp h
    refine ⟨rest, hrest, ?_⟩
    rw [eq_of_toLower ha (by decide), eq_of_toLower hb (by decide)]
    rcases eq_of_toLower_e hc with rfl | rfl <;> rfl

theorem decode_of_isDot {segment : List Char} (h : isDot segment = true) :
    decode segment = Text.encode "." := by
  simp only [isDot, List.mem_cons, List.not_mem_nil, or_false, decide_eq_true_eq] at h
  obtain ⟨rest, hrest, hd⟩ : ∃ rest, rest.map Char.toLower = [] ∧
      decode segment = 0x2E :: decode rest := by
    rcases h with h | h
    · exact decode_of_point (.inl rfl) h
    · exact decode_of_point (.inr rfl) h
  rw [hd, List.map_eq_nil_iff.mp hrest]
  rfl

theorem decode_of_isDoubleDot {segment : List Char} (h : isDoubleDot segment = true) :
    decode segment = Text.encode ".." := by
  simp only [isDoubleDot, List.mem_cons, List.not_mem_nil, or_false, decide_eq_true_eq] at h
  -- One point after the other, each spelled one way or the other.
  obtain ⟨first, second, hfirst, hsecond, h⟩ : ∃ first second : List Char,
      (first = ['.'] ∨ first = ['%', '2', 'e']) ∧ (second = ['.'] ∨ second = ['%', '2', 'e']) ∧
        segment.map Char.toLower = first ++ second := by
    rcases h with h | h | h | h
    · exact ⟨['.'], ['.'], .inl rfl, .inl rfl, h⟩
    · exact ⟨['%', '2', 'e'], ['.'], .inr rfl, .inl rfl, h⟩
    · exact ⟨['.'], ['%', '2', 'e'], .inl rfl, .inr rfl, h⟩
    · exact ⟨['%', '2', 'e'], ['%', '2', 'e'], .inr rfl, .inr rfl, h⟩
  obtain ⟨rest, hrest, hd⟩ := decode_of_point hfirst h
  obtain ⟨rest', hrest', hd'⟩ :=
    decode_of_point hsecond (hrest.trans (List.append_nil second).symm)
  rw [hd, hd', List.map_eq_nil_iff.mp hrest']
  rfl

/-! ### Segments -/

/-- What a text leaves of itself as a segment: all but the characters that are left out. -/
def kept (s : String) : String := String.ofList (s.toList.filter (!isIgnored ·))

theorem kept_eq_self_iff {s : String} : kept s = s ↔ ∀ c ∈ s.toList, isIgnored c = false := by
  rw [kept, ← String.toList_inj, String.toList_ofList, List.filter_eq_self]
  simp

/-- The segment of a text. -/
def segmentOf (s : String) : List Char := encode EncodeSet.segment s.toList

/-- **The segment of a text is decoded to the text.** -/
theorem decode_segmentOf (s : String) : decode (segmentOf s) = Text.encode s := by
  rw [segmentOf, decode_encode rfl, String.ofList_toList]

theorem isDot_segmentOf {s : String} (h : s ≠ ".") : isDot (segmentOf s) = false := by
  rw [Bool.eq_false_iff]
  exact fun hd => h (Text.encode_injective ((decode_segmentOf s).symm.trans (decode_of_isDot hd)))

theorem isDoubleDot_segmentOf {s : String} (h : s ≠ "..") : isDoubleDot (segmentOf s) = false := by
  rw [Bool.eq_false_iff]
  exact fun hd =>
    h (Text.encode_injective ((decode_segmentOf s).symm.trans (decode_of_isDoubleDot hd)))

/-- A text that is not points alone is put behind a path as its segment. -/
theorem push_segmentOf {s : String} (hdot : s ≠ ".") (hdots : s ≠ "..") (path : List (List Char))
    (last : Bool) : push path (segmentOf s) last = path ++ [segmentOf s] := by
  rw [push, isDoubleDot_segmentOf hdots, isDot_segmentOf hdot]
  rfl

/-- Putting a text behind a path puts there what is kept of it. -/
theorem appendSegment_eq {path : List (List Char)} {s : String} (hdot : s ≠ ".") (hdots : s ≠ "..")
    (hpath : path ≠ [[]]) : appendSegment path s = push path (segmentOf (kept s)) true := by
  rw [appendSegment, if_neg (not_or.mpr ⟨hdot, hdots⟩), if_neg hpath, segmentOf, kept,
    String.toList_ofList]

end Inspection.Url
