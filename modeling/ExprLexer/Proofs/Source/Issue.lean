/-
The issues of a source. The search for zero bytes that begins anew behind each of them finds every
one, in order and none twice, whatever search is used, and never begins past the end.
-/
import ExprLexer.Proofs.Source.Buffer
import ExprLexer.Proofs.Text.Search

namespace ExprLexer.Issue

variable {find : UInt8 → ByteArray → Option Nat} {source : ByteArray} {offset : Nat} {s : String}

/-! ## The search for zero bytes -/

/-- The issues that are found from an offset on are those of the zero bytes from there on. -/
theorem zerosFrom_eq (hfind : Text.FindsFirst find) (hs : source.size ≤ Offset.bound)
    (h : offset ≤ source.size) : zerosFrom find source offset =
      .ok (((Text.placesOf 0 source).filter (offset ≤ ·)).map fun i => ⟨.nul, i, 1⟩) := by
  induction offset using zerosFrom.induct find source with
  | case1 offset hlt => exact absurd h (Nat.not_le.2 hlt)
  | case2 offset _ hnone =>
    rw [zerosFrom, dif_neg (Nat.not_lt.2 h), hnone, hfind.filter_of_none hnone]
    rfl
  | case3 offset _ i hi absolute ih =>
    have hlt := hfind.lt_size hi
    rw [ByteArray.size_extract] at hlt
    have hpos : offset + i < Offset.bound := by omega
    rw [zerosFrom, dif_neg (Nat.not_lt.2 h), hi, hfind.filter_of_some hi, List.map_cons]
    simp only [ih (by omega), absolute, bind, Except.bind, if_pos hpos]
    rfl

/-! ## All issues of a text -/

/-- The issues of a text, found by any search. -/
theorem detect_eq (hfind : Text.FindsFirst find) (h : s.utf8ByteSize ≤ Buffer.maxLength) :
    detect find s.toUTF8 = .ok (markOf s.toUTF8
      ++ (Text.positionsOf 0 s).map fun i => ⟨.nul, i, 1⟩) := by
  have hsize : s.toUTF8.size ≤ Offset.bound := by
    have := Buffer.lt_bound h
    rw [String.toUTF8_eq_toByteArray, String.size_toByteArray]
    omega
  rw [detect, zerosFrom_eq hfind hsize (Nat.zero_le _), List.filter_eq_self.2 (by simp)]
  rfl

theorem detect_all (hfind : Text.FindsFirst find) (h : s.utf8ByteSize ≤ Buffer.maxLength) :
    detect find s.toUTF8 = .ok (all s) := by
  rw [detect_eq hfind h, ← detect_eq Text.findsFirst_firstOf h]
  exact (found s).property

theorem all_eq_append (h : s.utf8ByteSize ≤ Buffer.maxLength) :
    all s = markOf s.toUTF8 ++ (Text.positionsOf 0 s).map fun i => ⟨.nul, i, 1⟩ := by
  have := detect_all Text.findsFirst_firstOf h
  rw [detect_eq Text.findsFirst_firstOf h] at this
  exact (Except.ok.inj this).symm

/-- No issue takes a byte behind the text. -/
theorem all_le (h : s.utf8ByteSize ≤ Buffer.maxLength) :
    ∀ i ∈ all s, i.pos + i.length ≤ s.utf8ByteSize := by
  intro i hi
  rw [all_eq_append h] at hi
  rcases List.mem_append.1 hi with hi | hi
  · rw [markOf] at hi
    split at hi
    · rename_i hp
      have hlen := (List.isPrefixOf_iff_prefix.1 hp).length_le
      rw [List.mem_singleton.1 hi]
      exact Nat.le_trans hlen (Nat.le_of_eq (Text.length_bytes s))
    · cases hi
  · obtain ⟨j, hj, rfl⟩ := List.mem_map.1 hi
    have := Text.lt_of_mem_positionsOf hj
    dsimp only
    omega

end ExprLexer.Issue
