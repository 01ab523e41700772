/-
The places of a byte. A list of all of them that ascends is the only one, so whatever search finds
them, it finds the same. A search for the first place that begins at an offset finds the first of
those that are left. The places in a text that is put together are those in its parts, the second
part's moved behind the first.
-/
import ExprLexer.Proofs.Text.Bytes
import ExprLexer.Text.Search
import Mathlib.Data.List.Sort

namespace ExprLexer.Text

variable {find : UInt8 → ByteArray → Option Nat} {b : UInt8} {bs : ByteArray} {s : String}
  {i offset : Nat}

/-! ## All places -/

theorem mem_placesOf : i ∈ placesOf b bs ↔ bs.data[i]? = some b := by
  simp only [placesOf, List.mem_filterMap, Prod.exists, List.mem_zipIdx_iff_getElem?,
    Array.getElem?_toList]
  constructor
  · rintro ⟨x, j, hx, h⟩
    split at h <;> cases h
    subst b
    exact hx
  · exact fun h => ⟨b, i, h, by simp⟩

theorem placesOf_pairwise (b : UInt8) (bs : ByteArray) : (placesOf b bs).Pairwise (· < ·) := by
  unfold placesOf
  rw [List.pairwise_filterMap, List.pairwise_iff_getElem]
  intro i j hi hj hij x hx y hy
  simp only [List.getElem_zipIdx, Nat.zero_add, Option.ite_none_right_eq_some] at hx hy
  cases hx.2
  cases hy.2
  exact hij

theorem findsAll_placesOf : FindsAll placesOf where
  mem_iff _ _ _ := mem_placesOf
  ascending := placesOf_pairwise

/-- There is only one list of all places. -/
theorem FindsAll.eq {places : UInt8 → ByteArray → List Nat} (h : FindsAll places) (b : UInt8)
    (bs : ByteArray) : places b bs = placesOf b bs :=
  (h.ascending b bs).eq_of_mem_iff (placesOf_pairwise b bs) fun i => by
    rw [h.mem_iff, mem_placesOf]

/-! ## The first place from an offset on -/

theorem getElem?_extract_size (bs : ByteArray) (offset j : Nat) :
    (bs.extract offset bs.size).data[j]? = bs.data[offset + j]? := by
  rw [ByteArray.data_extract, Array.getElem?_extract, ByteArray.size, Nat.min_self]
  split
  · rfl
  · exact (Array.getElem?_eq_none (by omega)).symm

theorem FindsFirst.eq_none_iff (h : FindsFirst find) :
    find b bs = none ↔ ∀ j : Nat, bs.data[j]? ≠ some b := by
  constructor
  · intro hnone j
    -- there is no first place, so none is the least one
    induction j using Nat.strong_induction_on with
    | h j ih =>
      intro hj
      have := (h.eq_some_iff b bs j).2 ⟨hj, ih⟩
      rw [hnone] at this
      cases this
  · intro hnone
    cases hfind : find b bs with
    | none => rfl
    | some i => exact absurd ((h.eq_some_iff b bs i).1 hfind).1 (hnone i)

theorem FindsFirst.filter_of_none (h : FindsFirst find)
    (hnone : find b (bs.extract offset bs.size) = none) :
    (placesOf b bs).filter (offset ≤ ·) = [] := by
  rw [h.eq_none_iff] at hnone
  rw [List.filter_eq_nil_iff]
  intro i hi hle
  obtain ⟨j, rfl⟩ := Nat.exists_eq_add_of_le (of_decide_eq_true hle)
  rw [mem_placesOf, ← getElem?_extract_size] at hi
  exact hnone j hi

/-- The places from an offset on are the one that a search from there finds, and those behind it. -/
theorem FindsFirst.filter_of_some (h : FindsFirst find)
    (hsome : find b (bs.extract offset bs.size) = some i) :
    (placesOf b bs).filter (offset ≤ ·) =
      (offset + i) :: (placesOf b bs).filter (offset + i + 1 ≤ ·) := by
  obtain ⟨hi, hbefore⟩ := (h.eq_some_iff b _ i).1 hsome
  rw [getElem?_extract_size] at hi
  refine ((placesOf_pairwise b bs).filter _).eq_of_mem_iff ?_ fun j => ?_
  · refine List.pairwise_cons.2 ⟨fun j hj => ?_, (placesOf_pairwise b bs).filter _⟩
    have := (List.mem_filter.1 hj).2
    simp only [decide_eq_true_eq] at this
    omega
  · simp only [List.mem_filter, List.mem_cons, mem_placesOf, decide_eq_true_eq]
    constructor
    · rintro ⟨hj, hle⟩
      obtain ⟨k, rfl⟩ := Nat.exists_eq_add_of_le hle
      -- nothing stands between the offset and the place that was found
      rcases Nat.lt_trichotomy k i with hlt | rfl | hlt
      · exact absurd ((getElem?_extract_size bs offset k).trans hj) (hbefore k hlt)
      · exact .inl rfl
      · exact .inr ⟨hj, by omega⟩
    · rintro (rfl | ⟨hj, hle⟩)
      exacts [⟨hi, by omega⟩, ⟨hj, by omega⟩]

/-! ## The positions of a byte in a text -/

theorem mem_positionsOf : i ∈ positionsOf b s ↔ (bytes s)[i]? = some b := by
  rw [positionsOf, mem_placesOf, bytes, Array.getElem?_toList]
  rfl

theorem positionsOf_pairwise (b : UInt8) (s : String) : (positionsOf b s).Pairwise (· < ·) :=
  placesOf_pairwise b s.toUTF8

theorem positionsOf_eq (b : UInt8) (s : String) : positionsOf b s =
    (bytes s).zipIdx.filterMap fun (x, i) => if x = b then some i else none := rfl

/-- The positions in the second of two texts are further on by the size of the first. -/
theorem positionsOf_append (b : UInt8) (s t : String) :
    positionsOf b (s ++ t) = positionsOf b s ++ (positionsOf b t).map (· + s.utf8ByteSize) := by
  rw [positionsOf_eq, positionsOf_eq, positionsOf_eq, bytes_append, List.zipIdx_append,
    List.filterMap_append, length_bytes, Nat.add_comm 0, ← List.map_snd_add_zipIdx_eq_zipIdx,
    List.filterMap_map, List.map_filterMap]
  congr 2
  funext ⟨x, i⟩
  dsimp only [Function.comp, Prod.map, id]
  split <;> rfl

/-- A byte below 128 stands nowhere where its character does not. -/
theorem positionsOf_eq_nil (hb : b.toNat < 0x80) (h : Char.ofNat b.toNat ∉ s.toList) :
    positionsOf b s = [] := by
  rw [List.eq_nil_iff_forall_not_mem]
  intro i hi
  obtain ⟨pre, suf, rfl, -⟩ := char_of_byte (mem_positionsOf.1 hi) hb
  simp at h

theorem lt_of_mem_positionsOf (h : i ∈ positionsOf b s) : i < s.utf8ByteSize := by
  rw [mem_positionsOf] at h
  simpa using (List.getElem?_eq_some_iff.1 h).1

theorem length_positionsOf_le (b : UInt8) (s : String) :
    (positionsOf b s).length ≤ s.utf8ByteSize := by
  have h : (positionsOf b s).length ≤ (bytes s).zipIdx.length := List.length_filterMap_le ..
  simpa using h

theorem countP_zipIdx (b : UInt8) (l : List UInt8) (start o : Nat) :
    ((l.zipIdx start).filterMap fun (x, i) => if x = b then some i else none).countP (· < o) =
      (l.take (o - start)).count b := by
  induction l generalizing start with
  | nil => simp
  | cons x l ih =>
    rw [List.zipIdx_cons, List.filterMap_cons]
    by_cases ho : start < o
    · rw [show o - start = o - (start + 1) + 1 by omega, List.take_succ_cons, List.count_cons, ← ih]
      by_cases hx : x = b <;> simp [hx, ho]
    · rw [show o - start = 0 by omega, List.take_zero]
      have hrest := ih (start + 1)
      rw [show o - (start + 1) = 0 by omega, List.take_zero] at hrest
      by_cases hx : x = b <;> simp_all

/-- The positions of a byte before some position are as many as the byte occurs before it. -/
theorem countP_positionsOf (b : UInt8) (s : String) (o : Nat) :
    (positionsOf b s).countP (· < o) = ((bytes s).take o).count b := by
  rw [positionsOf_eq]
  exact countP_zipIdx b (bytes s) 0 o

end ExprLexer.Text
