import Inspection.Proofs.Text.Pieces
import Inspection.Proofs.Url.Percent
import Inspection.Url.Form

/-!
# Url — form encoding, read back

Names and values are written without the characters that part them, so pairs come apart where they
were put together, and each side is read as the text it was written from.

* `readText_writeText`: a name or value is read as what was written.
* `read_append`: so are pairs, in order.
* `notMem_append`: what a query of pairs does not contain.
-/

namespace Inspection.Url

theorem isSome_hexValue?_of_mem {b : UInt8} {c : Char} (h : c ∈ encodeByte b) (hc : c ≠ '%') :
    (hexValue? c).isSome = true := by
  have hb := UInt8.toNat_lt b
  simp only [encodeByte, List.mem_cons, List.not_mem_nil, or_false] at h
  rcases h with rfl | rfl | rfl
  · exact absurd rfl hc
  · rw [hexValue?_hexDigit _ (by omega)]
    rfl
  · rw [hexValue?_hexDigit _ (by omega)]
    rfl

/-- What is encoded does not stand in the encoding, but for what encodings consist of. -/
theorem notMem_encodeChar {set : EncodeSet} {d : Char} (hset : set d = true) (hd : d ≠ '%')
    (hhex : hexValue? d = none) (c : Char) : d ∉ encodeChar set c := by
  intro h
  rw [encodeChar] at h
  split at h
  next hplain =>
    rw [List.mem_singleton.mp h] at hset
    simp [hset] at hplain
  · obtain ⟨b, -, hb⟩ := List.mem_flatMap.mp h
    have hsome := isSome_hexValue?_of_mem hb hd
    rw [hhex] at hsome
    cases hsome

namespace Form

/-- What the characters of a query stand for: a plus sign for a space. -/
def spaced (cs : List Char) : List Char := cs.map fun c => if c = '+' then ' ' else c

theorem spaced_append (a b : List Char) : spaced (a ++ b) = spaced a ++ spaced b :=
  List.map_append

theorem spaced_of_notMem {cs : List Char} (h : '+' ∉ cs) : spaced cs = cs := by
  refine (List.map_congr_left fun c hc => if_neg ?_).trans (List.map_id' cs)
  rintro rfl
  exact h hc

/-- A character that parts, or begins, something else: it is never written for itself. -/
structure IsApart (d : Char) : Prop where
  plain : isPlain d = false
  plus : d ≠ '+'
  percent : d ≠ '%'
  digit : hexValue? d = none

theorem notMem_writeText {d : Char} (hd : IsApart d) (s : String) : d ∉ writeText s := by
  intro h
  obtain ⟨c, -, hc⟩ := List.mem_flatMap.mp h
  rw [writeChar] at hc
  split at hc
  · exact hd.plus (List.mem_singleton.mp hc)
  · exact notMem_encodeChar (by simp [hd.plain]) hd.percent hd.digit c hc

theorem isApart_ampersand : IsApart '&' := ⟨by decide, by decide, by decide, by decide⟩

theorem isApart_equals : IsApart '=' := ⟨by decide, by decide, by decide, by decide⟩

theorem notMem_writePair {d : Char} (hd : IsApart d) (he : d ≠ '=') (pair : String × String) :
    d ∉ writePair pair := by
  rw [writePair, List.mem_append, List.mem_cons]
  rintro (h | rfl | h)
  · exact notMem_writeText hd _ h
  · exact he rfl
  · exact notMem_writeText hd _ h

/-! ### Names and values -/

theorem decode_writeChar (c : Char) (rest : List Char) :
    decode (spaced (writeChar c ++ rest)) = String.utf8EncodeChar c ++ decode (spaced rest) := by
  rw [writeChar, spaced_append]
  split
  next hspace =>
    subst hspace
    exact decode_cons_of_ne (by decide) _
  · have hplus : '+' ∉ encodeChar (fun c => !isPlain c) c :=
      notMem_encodeChar (by decide) (by decide) (by decide) c
    rw [spaced_of_notMem hplus, decode_encodeChar (by decide)]

/-- **A name or value is read as what was written.** -/
theorem readText_writeText (s : String) : readText (writeText s) = s := by
  have hbytes : ∀ cs : List Char,
      decode (spaced (cs.flatMap writeChar)) = cs.flatMap String.utf8EncodeChar := by
    intro cs
    induction cs with
    | nil => rfl
    | cons c cs ih => rw [List.flatMap_cons, decode_writeChar, ih, List.flatMap_cons]
  have h : readText (writeText s) = Text.decodeLossy (Text.encode s) :=
    congrArg Text.decodeLossy (hbytes s.toList)
  rw [h, Text.decodeLossy_encode]

theorem readPair_writePair (pair : String × String) : readPair (writePair pair) = pair := by
  -- The first equals sign is the one between the two sides.
  have hname : ∀ c ∈ writeText pair.1, decide (c ≠ '=') = true := by
    intro c hc
    refine decide_eq_true ?_
    rintro rfl
    exact notMem_writeText isApart_equals _ hc
  have htake : (writePair pair).takeWhile (· ≠ '=') = writeText pair.1 := by
    rw [writePair, List.takeWhile_append_of_pos hname, List.takeWhile_cons_of_neg (by decide),
      List.append_nil]
  have hdrop : (writePair pair).dropWhile (· ≠ '=') = '=' :: writeText pair.2 := by
    rw [writePair, List.dropWhile_append_of_pos hname, List.dropWhile_cons_of_neg (by decide)]
  rw [readPair, htake, hdrop, List.drop_one, List.tail_cons, readText_writeText,
    readText_writeText]

/-! ### Pairs -/

theorem writePair_ne_nil (pair : String × String) : writePair pair ≠ [] := by simp [writePair]

/-- Behind a query that is not empty, every pair follows an ampersand. -/
theorem append_of_ne_nil (pairs : List (String × String)) :
    ∀ {query : List Char}, query ≠ [] →
      append query pairs = query ++ pairs.flatMap fun pair => '&' :: writePair pair := by
  induction pairs with
  | nil => exact fun _ => (List.append_nil _).symm
  | cons pair pairs ih =>
    intro query hq
    have hstep : append query (pair :: pairs) = append (query ++ ['&'] ++ writePair pair) pairs := by
      rw [append, List.foldl_cons, List.isEmpty_eq_false_iff.mpr hq]
      rfl
    rw [hstep, ih (by simp), List.flatMap_cons]
    simp

theorem append_nil_eq_join (pairs : List (String × String)) :
    append [] pairs = Text.join ['&'] (pairs.map writePair) := by
  cases pairs with
  | nil => rfl
  | cons pair pairs =>
    have hstep : append [] (pair :: pairs) = append (writePair pair) pairs := rfl
    rw [hstep, append_of_ne_nil pairs (writePair_ne_nil pair), List.map_cons,
      Text.join_cons_eq_append, List.flatMap_map]

/-- **The pairs of a query** are read as they were written, in order. -/
theorem read_append (pairs : List (String × String)) : read (append [] pairs) = pairs := by
  cases hp : pairs with
  | nil => rfl
  | cons first rest =>
    rw [← hp, read, append_nil_eq_join, Text.split_join (by simp [hp]) ?_]
    · have hfull : (pairs.map writePair).filter (!·.isEmpty) = pairs.map writePair := by
        refine List.filter_eq_self.mpr fun cs hcs => ?_
        obtain ⟨pair, -, rfl⟩ := List.mem_map.mp hcs
        simp [writePair_ne_nil]
      rw [hfull, List.map_map]
      exact (List.map_congr_left fun pair _ => readPair_writePair pair).trans (List.map_id' pairs)
    · intro piece hpiece
      obtain ⟨pair, -, rfl⟩ := List.mem_map.mp hpiece
      exact notMem_writePair isApart_ampersand (by decide) pair

/-- A query of pairs has none of the characters that part it from what is around. -/
theorem notMem_append {d : Char} (hd : IsApart d) (he : d ≠ '=') (ha : d ≠ '&')
    (pairs : List (String × String)) : d ∉ append [] pairs := by
  cases pairs with
  | nil => exact List.not_mem_nil
  | cons pair pairs =>
    have hstep : append [] (pair :: pairs) = append (writePair pair) pairs := rfl
    rw [hstep, append_of_ne_nil pairs (writePair_ne_nil pair), List.mem_append, List.mem_flatMap]
    rintro (h | ⟨next, -, h⟩)
    · exact notMem_writePair hd he pair h
    · rcases List.mem_cons.mp h with rfl | h
      · exact ha rfl
      · exact notMem_writePair hd he next h

end Form

end Inspection.Url
