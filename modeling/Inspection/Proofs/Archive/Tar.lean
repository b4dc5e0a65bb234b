import Inspection.Archive.Tar
import Inspection.Proofs.Path
import Inspection.Proofs.Text.Pieces
import Inspection.Proofs.Text.Utf8

/-!
# Archive — tape archives are read

What is written into the fields of a header comes back, as far as it fits: names without zeros,
numbers that are not larger than the field.  A member comes back from its entries whatever is behind
them, and so all members do.

* `number?_number`: a number is read from its field.
* `Header.read?_encode`: a header is read from its block.
* `nameOf?_nameBytes`: a name is read from its bytes.
* `readMembers?_member`: a member is read, and the others behind it.
* `decode?_encode`: an archive is read as its members.
-/

namespace Inspection

/-- The room that a name takes: each component with a slash. -/
def nameSize (name : List String) : Nat :=
  Arithmetic.sum (name.map fun n => (Text.encode n).length + 1)

/-- What may be the name of a member or the way to a file: components that are names, without zeros,
and not too long. -/
structure IsMemberName (name : List String) : Prop where
  nonempty : name ≠ []
  named : ∀ n ∈ name, Path.IsName n ∧ '\x00' ∉ n.toList
  short : nameSize name < Arithmetic.twoTo 63

instance (name : List String) : Decidable (IsMemberName name) :=
  decidable_of_iff (_ ∧ _ ∧ _) ⟨fun h => ⟨h.1, h.2.1, h.2.2⟩, fun h => ⟨h.1, h.2, h.3⟩⟩

/-- A member that archives can hold. -/
structure Member.IsStorable (m : Member) : Prop where
  name : IsMemberName m.name
  small : ∀ content, m.content = some content → content.length < Arithmetic.twoTo 63

namespace Tar

/-! ### Numbers -/

theorem length_number {width : Nat} (hw : 0 < width) (n : Nat) :
    (number width n).length = width := by
  unfold number
  split
  · simp only [List.length_append, List.length_reverse, List.length_map,
      Arithmetic.length_digits, List.length_singleton]
    omega
  · simp only [List.length_cons, List.length_reverse, List.length_map, Arithmetic.length_digits]
    omega

/-- The bytes of octal digits. -/
theorem octalDigit {d : Nat} (h : d < 8) : 48 ≤ UInt8.ofNat (48 + d) ∧ UInt8.ofNat (48 + d) < 56 ∧
    (UInt8.ofNat (48 + d)).toNat - 48 = d := by
  have hd : (UInt8.ofNat (48 + d)).toNat = 48 + d :=
    UInt8.toNat_ofNat_of_lt' (show 48 + d < 256 by omega)
  refine ⟨UInt8.le_iff_toNat_le.mpr ?_, UInt8.lt_iff_toNat_lt.mpr ?_, by omega⟩
  · rw [hd]
    exact Nat.le_add_right 48 d
  · rw [hd]
    exact Nat.add_lt_add_left h 48

theorem octal?_digits {ds : List Nat} (h : ∀ d ∈ ds, d < 8) :
    octal? (ds.map fun d => UInt8.ofNat (48 + d)) = some (Arithmetic.valueOf 8 ds) := by
  rw [octal?, if_pos, List.map_map]
  · refine congrArg (some ∘ Arithmetic.valueOf 8) ((List.map_congr_left fun d hd => ?_).trans
      (List.map_id _))
    exact (octalDigit (h d hd)).2.2
  · rw [List.all_map, List.all_eq_true]
    intro d hd
    obtain ⟨hlow, hhigh, -⟩ := octalDigit (h d hd)
    exact Bool.and_eq_true_iff.mpr ⟨decide_eq_true hlow, decide_eq_true hhigh⟩

/-- **A number is read from its field**, if it fits. -/
theorem number?_number {width n : Nat} (hw : 1 < width) (h : n < Nat.pow 256 (width - 1)) :
    number? (number width n) = some n := by
  obtain ⟨width, rfl⟩ : ∃ k, width = k + 2 := ⟨width - 2, by omega⟩
  have hpred : width + 2 - 1 = width + 1 := rfl
  rw [hpred] at h
  rw [number, hpred]
  split
  next hsmall =>
    have hdigits : ∀ d ∈ Arithmetic.digits 8 (width + 1) n, d < 8 := fun d =>
      Arithmetic.lt_of_mem_digits (by decide)
    have hfield : ∀ b ∈ ((Arithmetic.digits 8 (width + 1) n).map
        fun d => UInt8.ofNat (48 + d)).reverse, 48 ≤ b ∧ b < 56 := by
      intro b hb
      obtain ⟨d, hd, rfl⟩ := List.mem_map.mp (List.mem_reverse.mp hb)
      obtain ⟨hlow, hhigh, -⟩ := octalDigit (hdigits d hd)
      exact ⟨hlow, hhigh⟩
    have hmark : (((Arithmetic.digits 8 (width + 1) n).map
        fun d => UInt8.ofNat (48 + d)).reverse ++ [0]).head? ≠ some 0x80 := by
      intro hhead
      have hm := List.mem_of_mem_head? (Option.mem_def.mpr hhead)
      rcases List.mem_append.mp hm with hm | hm
      · exact absurd (hfield _ hm).2 (by decide)
      · exact absurd (List.mem_singleton.mp hm) (by decide)
    rw [number?, if_neg hmark, List.takeWhile_append_of_pos, List.takeWhile_cons_of_neg (by simp),
      List.append_nil, List.reverse_reverse, octal?_digits hdigits,
      Arithmetic.valueOf_digits (by decide) hsmall]
    intro b hb
    have hlow := (hfield b hb).1
    refine decide_eq_true fun hzero => ?_
    rw [hzero] at hlow
    exact absurd hlow (by decide)
  next =>
    have hbytes : ((Arithmetic.digits 256 (width + 1) n).map UInt8.ofNat).map (·.toNat) =
        Arithmetic.digits 256 (width + 1) n := by
      rw [List.map_map]
      refine (List.map_congr_left fun d hd => ?_).trans (List.map_id _)
      exact UInt8.toNat_ofNat_of_lt' (Arithmetic.lt_of_mem_digits (by decide) hd)
    rw [number?, if_pos List.head?_cons, List.tail_cons, List.reverse_reverse, hbytes,
      Arithmetic.valueOf_digits (by decide) h]

/-! ### Headers -/

theorem length_field (width : Nat) (bytes : List UInt8) : (field width bytes).length = width := by
  simp only [field, List.length_append, List.length_take, List.length_replicate]
  omega

theorem takeWhile_field {width : Nat} {bytes : List UInt8} (h : bytes.length ≤ width)
    (hzero : 0 ∉ bytes) : (field width bytes).takeWhile (· ≠ 0) = bytes := by
  rw [field, List.take_of_length_le h, List.takeWhile_append_of_pos]
  · cases width - bytes.length with
    | zero => simp
    | succ k => rw [List.replicate_succ, List.takeWhile_cons_of_neg (by simp), List.append_nil]
  · intro b hb
    exact decide_eq_true fun he => hzero (he ▸ hb)

/-- A header whose fields have room for what is in them. -/
structure Header.Fits (h : Header) : Prop where
  name : h.name.length ≤ 100
  zero : 0 ∉ h.name
  mode : h.mode < Nat.pow 256 7
  size : h.size < Nat.pow 256 11

theorem Header.length_front (h : Header) : h.front.length = 148 := by
  simp only [front, List.length_append, length_field, length_number (show 0 < 8 by decide),
    length_number (show 0 < 12 by decide)]

theorem Header.length_back (h : Header) : h.back.length = 356 := by
  simp only [back, List.length_cons, List.length_append, length_field, List.length_replicate]
  rfl

theorem Header.length_encode (h : Header) : h.encode.length = blockSize := by
  simp only [encode, List.length_append, h.length_front, h.length_back,
    length_number (show 0 < 8 by decide)]
  rfl

theorem sum_bytes_le (bytes : List UInt8) :
    Arithmetic.sum (bytes.map (·.toNat)) ≤ bytes.length * 255 := by
  induction bytes with
  | nil => exact Nat.zero_le _
  | cons b bytes ih =>
    have hb := b.toNat_lt
    have hcons : Arithmetic.sum ((b :: bytes).map (·.toNat)) =
      b.toNat + Arithmetic.sum (bytes.map (·.toNat)) := rfl
    rw [hcons, List.length_cons]
    omega

/-- **A header is read from its block.** -/
theorem Header.read?_encode {h : Header} (hfits : h.Fits) : Header.read? h.encode = some h := by
  have hfront := h.length_front
  have hback := h.length_back
  have hfield : (number 8 (sum h.front h.back)).length = 8 := length_number (by decide) _
  have hchecksum : number? (number 8 (sum h.front h.back)) = some (sum h.front h.back) := by
    refine number?_number (by decide) ?_
    have hle := sum_bytes_le (h.front ++ h.back)
    rw [List.length_append, hfront, hback] at hle
    exact Nat.lt_of_le_of_lt (Nat.add_le_add_right hle _) (by decide)
  have htake : h.encode.take 148 = h.front := List.take_left' hfront
  have hdrop : h.encode.drop 148 = number 8 (sum h.front h.back) ++ h.back := List.drop_left' hfront
  have hbehind : h.encode.drop 156 = h.back := by
    rw [show 156 = 148 + 8 from rfl, ← List.drop_drop, hdrop, List.drop_left' hfield]
  have hname : (h.front.take 100).takeWhile (· ≠ 0) = h.name := by
    rw [front, List.take_left' (length_field ..), takeWhile_field hfits.name hfits.zero]
  have hrest : h.front.drop 100 = number 8 h.mode ++ (number 8 0 ++ (number 8 0 ++
      (number 12 h.size ++ number 12 0))) := List.drop_left' (length_field ..)
  have hmode : number? ((h.front.drop 100).take 8) = some h.mode := by
    rw [hrest, List.take_left' (length_number (by decide) _), number?_number (by decide) hfits.mode]
  have hsize : number? ((h.front.drop 124).take 12) = some h.size := by
    have height : ∀ n, (number 8 n).length = 8 := length_number (by decide)
    rw [show 124 = 100 + 8 + 8 + 8 from rfl, ← List.drop_drop, ← List.drop_drop, ← List.drop_drop,
      hrest, List.drop_left' (height _), List.drop_left' (height _), List.drop_left' (height _),
      List.take_left' (length_number (by decide) _), number?_number (by decide) hfits.size]
  simp only [read?, htake, hbehind, hdrop, List.take_left' hfield, hchecksum, hname, hmode, hsize,
    Option.bind_eq_bind, Option.bind_some, if_true]
  rfl

/-! ### Names -/

theorem zero_notMem_utf8EncodeChar {c : Char} (h : c ≠ '\x00') : 0 ∉ String.utf8EncodeChar c := by
  have hbyte : ∀ {n : Nat}, 0 < n → n < 256 → (0 : UInt8) ≠ UInt8.ofNat n := by
    intro n hpos hlt he
    have hn := congrArg UInt8.toNat he
    rw [UInt8.toNat_ofNat_of_lt' hlt] at hn
    exact absurd hn (Nat.ne_of_lt hpos)
  have hpos : 0 < c.val.toNat := by
    refine Nat.pos_of_ne_zero fun hzero => h ?_
    rw [← Char.ofNat_toNat c, show c.toNat = 0 from hzero]
  have hvalid := Text.toNat_valid c
  have hc : c.val.toNat = c.toNat := rfl
  unfold String.utf8EncodeChar
  simp only
  split
  · simpa using hbyte hpos (by omega)
  · split
    · simp only [List.mem_cons, List.not_mem_nil, or_false, not_or]
      exact ⟨hbyte (by omega) (by omega), hbyte (by omega) (by omega)⟩
    · split
      · simp only [List.mem_cons, List.not_mem_nil, or_false, not_or]
        exact ⟨hbyte (by omega) (by omega), hbyte (by omega) (by omega),
          hbyte (by omega) (by omega)⟩
      · simp only [List.mem_cons, List.not_mem_nil, or_false, not_or]
        exact ⟨hbyte (by omega) (by omega), hbyte (by omega) (by omega),
          hbyte (by omega) (by omega), hbyte (by omega) (by omega)⟩

theorem zero_notMem_encode {s : String} (h : '\x00' ∉ s.toList) : 0 ∉ Text.encode s := by
  rw [Text.encode, List.mem_flatMap]
  rintro ⟨c, hc, hzero⟩
  exact zero_notMem_utf8EncodeChar (fun he => h (he ▸ hc)) hzero

theorem nameBytes_cons (n : String) (ns : List String) :
    nameBytes (n :: ns) = Text.encode n ++ ns.flatMap fun m => 47 :: Text.encode m := by
  have hslash : String.utf8EncodeChar '/' = [47] := by decide
  rw [nameBytes, Text.encode, show "/" = String.singleton '/' from rfl, Text.toList_intercalate,
    List.map_cons, Text.join_cons_eq_append, List.flatMap_append, List.flatMap_map,
    List.flatMap_assoc]
  simp only [List.flatMap_cons, hslash]
  rfl

section

variable {name : List String} (h : IsMemberName name)
include h

theorem zero_notMem_nameBytes : 0 ∉ nameBytes name := by
  obtain ⟨n, ns, rfl⟩ := List.exists_cons_of_ne_nil h.nonempty
  rw [nameBytes_cons, List.mem_append, List.mem_flatMap]
  rintro (hn | ⟨m, hm, hzero⟩)
  · exact zero_notMem_encode (h.named n List.mem_cons_self).2 hn
  · rcases List.mem_cons.mp hzero with he | hzero
    · exact absurd he (by decide)
    · exact zero_notMem_encode (h.named m (List.mem_cons_of_mem _ hm)).2 hzero

omit h in
theorem nameSize_cons (n : String) (ns : List String) :
    nameSize (n :: ns) = (Text.encode n).length + 1 + nameSize ns := rfl

theorem length_nameBytes : (nameBytes name ++ [0]).length = nameSize name := by
  obtain ⟨n, ns, rfl⟩ := List.exists_cons_of_ne_nil h.nonempty
  have hrest : ∀ ns : List String,
      (ns.flatMap fun m => 47 :: Text.encode m).length = nameSize ns := by
    intro ns
    induction ns with
    | nil => rfl
    | cons m ns ih => rw [List.flatMap_cons, List.length_append, List.length_cons, ih, nameSize_cons]
  rw [nameBytes_cons, List.length_append, List.length_append, hrest, nameSize_cons,
    List.length_singleton]
  omega

/-- **A name is read from its bytes.** -/
theorem nameOf?_nameBytes : nameOf? (nameBytes name) = some name := by
  rw [nameOf?, nameBytes, Text.decode?_encode, Option.map_some]
  exact congrArg some (Text.pieces_intercalate h.nonempty fun n hn => (h.named n hn).1.free)

end

/-! ### Members -/

theorem readPart?_append {h : Header} (hfits : h.Fits) {content : List UInt8}
    (hsize : content.length = h.size) (rest : List UInt8) :
    readPart? (h.encode ++ (block content ++ rest)) = some (h, content, rest) := by
  have hlength := h.length_encode
  have hwhole : (block content).length = h.size + (padding h.size).length := by
    rw [block, List.length_append, hsize]
  have htake : (block content ++ rest).take h.size = content := by
    rw [block, List.append_assoc, List.take_left' hsize]
  simp only [readPart?, List.take_left' hlength, List.drop_left' hlength, Header.read?_encode hfits,
    Option.bind_eq_bind, Option.bind_some, List.drop_left' hwhole, htake]
  rw [if_pos]
  · rfl
  · rw [List.length_append, List.length_append, hlength, hwhole]
    exact ⟨Nat.le_add_right .., Nat.le_add_right ..⟩

/-- A header is no empty block. -/
theorem Header.not_empty {h : Header} (hkind : h.kind ≠ 0) (more : List UInt8) :
    ((h.encode ++ more).take blockSize).all (· = 0) = false := by
  rw [List.take_left' h.length_encode, List.all_eq_false]
  refine ⟨h.kind, List.mem_append_right _ (List.mem_append_right _ List.mem_cons_self), ?_⟩
  simpa using hkind

/-- The header of the entry of a name. -/
theorem fits_nameHeader {size : Nat} (h : size < Arithmetic.twoTo 63) :
    Header.Fits ⟨Text.encode "././@LongLink", 0o644, size, nameKind⟩ where
  name := show (Text.encode "././@LongLink").length ≤ 100 by decide
  zero := show 0 ∉ Text.encode "././@LongLink" by decide
  mode := show 0o644 < Nat.pow 256 7 by decide
  size := Nat.lt_trans h (by decide)

theorem readMembers?_longName {name : List String} (h : IsMemberName name) (rest : List UInt8) :
    readMembers? none (longName (nameBytes name) ++ rest) =
      readMembers? (if (nameBytes name).length ≤ nameLimit then none else some (nameBytes name))
        rest := by
  rw [longName]
  split
  · rfl
  · have hfits := fits_nameHeader (length_nameBytes h ▸ h.short)
    have hname : (nameBytes name ++ [0]).takeWhile (· ≠ 0) = nameBytes name := by
      rw [List.takeWhile_append_of_pos, List.takeWhile_cons_of_neg (by simp), List.append_nil]
      intro b hb
      exact decide_eq_true fun he => zero_notMem_nameBytes h (he ▸ hb)
    rw [List.append_assoc, readMembers?, Header.not_empty (by simp [nameKind]),
      readPart?_append hfits rfl]
    simp only [Bool.false_eq_true, if_false, if_true, hname]

theorem fits_headerOf {m : Member} (hm : m.IsStorable) : (headerOf m).Fits := by
  have hname : ((nameBytes m.name).take nameLimit).length ≤ 100 := List.length_take_le ..
  have hzero : 0 ∉ (nameBytes m.name).take nameLimit := fun h =>
    zero_notMem_nameBytes hm.name (List.mem_of_mem_take h)
  unfold headerOf
  split
  next =>
    exact ⟨hname, hzero, show 0o755 < Nat.pow 256 7 by decide, show 0 < Nat.pow 256 11 by decide⟩
  next content h =>
    exact ⟨hname, hzero, show 0o644 < Nat.pow 256 7 by decide,
      Nat.lt_trans (hm.small content h) (by decide)⟩

/-- **A member is read**, and the others behind it. -/
theorem readMembers?_member {m : Member} (hm : m.IsStorable) (rest : List UInt8) :
    readMembers? none (member m ++ rest) = (readMembers? none rest).map (m :: ·) := by
  have hsize : (m.content.getD []).length = (headerOf m).size := by
    unfold headerOf
    cases m.content <;> rfl
  have hkind : (headerOf m).kind ≠ 0 ∧ (headerOf m).kind ≠ nameKind := by
    have hdirectory : directoryKind ≠ 0 ∧ directoryKind ≠ nameKind := by decide
    have hfile : fileKind ≠ 0 ∧ fileKind ≠ nameKind := by decide
    unfold headerOf
    cases m.content with
    | none => exact hdirectory
    | some content => exact hfile
  have hheader : (headerOf m).name = (nameBytes m.name).take nameLimit := by
    unfold headerOf
    cases m.content <;> rfl
  -- The name has stood before, or the header has room for all of it.
  have hlong : (if (nameBytes m.name).length ≤ nameLimit then none
      else some (nameBytes m.name)).getD (headerOf m).name = nameBytes m.name := by
    rw [hheader]
    split
    next h => exact List.take_of_length_le h
    next => rfl
  rw [member, List.append_assoc, readMembers?_longName hm.name]
  generalize (if (nameBytes m.name).length ≤ nameLimit then none
      else some (nameBytes m.name)) = long at hlong ⊢
  rw [List.append_assoc, readMembers?, Header.not_empty hkind.1,
    readPart?_append (fits_headerOf hm) hsize]
  simp only [Bool.false_eq_true, if_false, if_neg hkind.2, hlong, nameOf?_nameBytes hm.name,
    Option.bind_eq_bind, Option.bind_some]
  obtain ⟨name, content⟩ := m
  cases readMembers? none rest with
  | none => rfl
  | some members => cases content <;> rfl

/-- **An archive is read as its members.** -/
theorem decode?_encode {members : List Member} (h : ∀ m ∈ members, m.IsStorable) :
    decode? (encode members) = some members := by
  rw [decode?, encode]
  induction members with
  | nil =>
    rw [readMembers?, if_pos]
    rw [List.flatMap_nil, List.nil_append, List.take_replicate, List.all_replicate]
    simp
  | cons m members ih =>
    obtain ⟨hm, hmembers⟩ := List.forall_mem_cons.mp h
    rw [List.flatMap_cons, List.append_assoc, readMembers?_member hm, ih hmembers, Option.map_some]

end Tar

end Inspection
