import Inspection.Archive.Gzip

/-!
# Archive — gzip files are read

What stands in stored blocks is read back, whatever is behind them, and the trailer is that of what
has been read.

* `readBlocks?_storedBlocks`: blocks are read as the bytes in them.
* `decode?_encode`: a gzip file is read as the bytes it was made from.
-/

namespace Inspection.Gzip

theorem ofLittleEndian_littleEndian {width n : Nat} (h : n < Nat.pow 256 width) :
    ofLittleEndian (littleEndian width n) = n := by
  have hbytes : (littleEndian width n).map (·.toNat) = Arithmetic.digits 256 width n := by
    rw [littleEndian, List.map_map]
    refine (List.map_congr_left fun d hd => ?_).trans (List.map_id _)
    exact UInt8.toNat_ofNat_of_lt' (Arithmetic.lt_of_mem_digits (by decide) hd)
  rw [ofLittleEndian, hbytes, Arithmetic.valueOf_digits (by decide) h]

theorem readBlock?_storedBlock {bytes : List UInt8} (h : bytes.length ≤ blockLimit) (last : Bool)
    (rest : List UInt8) :
    readBlock? (storedBlock last bytes ++ rest) = some (last, bytes, rest) := by
  have hlength : ofLittleEndian (littleEndian 2 bytes.length) = bytes.length :=
    ofLittleEndian_littleEndian (Nat.lt_of_le_of_lt h (by decide))
  have hcheck : ofLittleEndian (littleEndian 2 (blockLimit - bytes.length)) =
      blockLimit - bytes.length :=
    ofLittleEndian_littleEndian (Nat.lt_of_le_of_lt (Nat.sub_le ..) (by decide))
  have htwo : ∀ n, ∃ lo hi, littleEndian 2 n = [lo, hi] := fun _ => ⟨_, _, rfl⟩
  obtain ⟨lo, hi, he⟩ := htwo bytes.length
  obtain ⟨lo', hi', he'⟩ := htwo (blockLimit - bytes.length)
  rw [he] at hlength
  rw [he'] at hcheck
  rw [storedBlock, he, he']
  simp only [List.cons_append, List.nil_append, readBlock?, hlength, hcheck]
  have hmark : (if last = true then (1 : UInt8) else 0) ≤ 1 ∧
      decide ((if last = true then (1 : UInt8) else 0) = 1) = last := by
    cases last <;> decide
  rw [if_pos ⟨hmark.1, by omega, by simp⟩, hmark.2, List.take_left, List.drop_left]

/-- **Blocks are read as the bytes in them**, and what is behind the last one is left. -/
theorem readBlocks?_storedBlocks (bytes rest : List UInt8) :
    readBlocks? (storedBlocks bytes ++ rest) = some (bytes, rest) := by
  fun_induction storedBlocks bytes with
  | case1 bytes h =>
    rw [readBlocks?, readBlock?_storedBlock h]
  | case2 bytes h ih =>
    have hfront : (bytes.take blockLimit).length ≤ blockLimit := List.length_take_le ..
    rw [List.append_assoc, readBlocks?, readBlock?_storedBlock hfront]
    simp only [ih, Option.map_some, List.take_append_drop]

/-- **A gzip file is read as the bytes it was made from.** -/
theorem decode?_encode (bytes : List UInt8) : decode? (encode bytes) = some bytes := by
  have hheader : header.isPrefixOf (encode bytes) = true :=
    List.isPrefixOf_iff_prefix.mpr (List.prefix_append _ _)
  rw [decode?, hheader, encode, List.drop_left, readBlocks?_storedBlocks]
  simp

end Inspection.Gzip
