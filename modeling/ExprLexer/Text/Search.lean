/-
Searches for a byte. What looks for bytes is given a search, of which it asks no more than that the
first place of a byte is found, or that all places are, in order. One search of each kind is given
here.
-/
import ExprLexer.Text.Bytes

namespace ExprLexer.Text

/-- A search finds the first place of a byte, if there is one. -/
structure FindsFirst (find : UInt8 → ByteArray → Option Nat) : Prop where
  eq_some_iff : ∀ b bytes i, find b bytes = some i ↔
    bytes.data[i]? = some b ∧ ∀ j < i, bytes.data[j]? ≠ some b

/-- A search finds all places of a byte, from front to back. -/
structure FindsAll (places : UInt8 → ByteArray → List Nat) : Prop where
  mem_iff : ∀ b bytes i, i ∈ places b bytes ↔ bytes.data[i]? = some b
  ascending : ∀ b bytes, (places b bytes).Pairwise (· < ·)

def firstOf (b : UInt8) (bytes : ByteArray) : Option Nat := bytes.findIdx? (· == b)

def placesOf (b : UInt8) (bytes : ByteArray) : List Nat :=
  bytes.data.toList.zipIdx.filterMap fun (x, i) => if x = b then some i else none

/-- The positions at which a byte stands in a text, ascending. -/
def positionsOf (b : UInt8) (s : String) : List Nat := placesOf b s.toUTF8

variable {find : UInt8 → ByteArray → Option Nat} {b : UInt8} {bytes : ByteArray} {start i : Nat}

theorem FindsFirst.lt_size (h : FindsFirst find) (hi : find b bytes = some i) : i < bytes.size :=
  (Array.getElem?_eq_some_iff.1 ((h.eq_some_iff b bytes i).1 hi).1).1

theorem findIdx?_loop_eq_some_iff : ByteArray.findIdx?.loop bytes (· == b) start = some i ↔
    start ≤ i ∧ bytes.data[i]? = some b ∧ ∀ j, start ≤ j → j < i → bytes.data[j]? ≠ some b := by
  induction start using ByteArray.findIdx?.loop.induct bytes (· == b) with
  | case1 start hlt hb =>
    have hstart : bytes.data[start]? = some b := by
      rw [Array.getElem?_eq_getElem hlt, ← ByteArray.getElem_eq_getElem_data, eq_of_beq hb]
    rw [ByteArray.findIdx?.loop, dif_pos hlt, if_pos hb, Option.some.injEq]
    constructor
    · rintro rfl
      exact ⟨Nat.le_refl _, hstart, by omega⟩
    · rintro ⟨hle, -, hnone⟩
      exact Nat.le_antisymm hle (Nat.not_lt.1 fun h => hnone start (Nat.le_refl _) h hstart)
  | case2 start hlt hb ih =>
    have hstart : bytes.data[start]? ≠ some b := by
      rw [Array.getElem?_eq_getElem hlt, ← ByteArray.getElem_eq_getElem_data]
      simpa using hb
    rw [ByteArray.findIdx?.loop, dif_pos hlt, if_neg hb, ih]
    constructor
    · rintro ⟨hle, hi, hnone⟩
      refine ⟨by omega, hi, fun j hle' hj => ?_⟩
      rcases Nat.eq_or_lt_of_le hle' with rfl | hlt'
      · exact hstart
      · exact hnone j hlt' hj
    · rintro ⟨hle, hi, hnone⟩
      have hne : start ≠ i := by
        rintro rfl
        exact hstart hi
      exact ⟨by omega, hi, fun j hle' => hnone j (by omega)⟩
  | case3 start hge =>
    rw [ByteArray.findIdx?.loop, dif_neg hge]
    refine ⟨nofun, ?_⟩
    rintro ⟨hle, hi, -⟩
    obtain ⟨hlt, -⟩ := Array.getElem?_eq_some_iff.1 hi
    exact absurd (Nat.lt_of_le_of_lt hle hlt) hge

theorem findsFirst_firstOf : FindsFirst firstOf := by
  refine ⟨fun b bytes i => findIdx?_loop_eq_some_iff.trans ?_⟩
  simp

end ExprLexer.Text
