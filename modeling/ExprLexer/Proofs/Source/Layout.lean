/-
The whole layout of a source buffer. A text is refused just if it is longer than the longest source,
and then with its length and that limit. The buffer of any other has the text in front and zeros
behind it, two of them at least, and takes the fewest blocks for that; the size is the one that is
found by clearing the lowest bits of a machine word. A cursor can be put at its start.
-/
import ExprLexer.Proofs.Source.Cursor
import Mathlib.Order.Bounds.Defs

namespace ExprLexer.Buffer

/-! ## Whole blocks -/

/-- The padded text of a source takes the fewest blocks that hold it and two zeros. -/
theorem isLeast_paddedSize (n : Nat) : IsLeast {m | 64 ∣ m ∧ n + 2 ≤ m} (paddedSize n) := by
  constructor
  · exact ⟨Nat.dvd_mul_left 64 _, le_paddedSize n⟩
  · rintro _ ⟨⟨blocks, rfl⟩, hle⟩
    unfold paddedSize blockSize
    omega

/-- The size of a padded text in machine words: enough is added to come to the next block, and the
bits that count inside a block are cleared. -/
def clearedSize (length : UInt64) : UInt64 := (length + 2 + (64 - 1)) &&& ~~~(64 - 1)

/-- To clear the lowest six bits of a word is to shift them out and zeros in. -/
theorem and_not_low (x : BitVec 64) : x &&& ~~~63#64 = x >>> 6 <<< 6 := by
  ext i hi
  have hlow : (63#64)[i] = decide (i < 6) := Nat.testBit_two_pow_sub_one 6 i
  rw [BitVec.getElem_and, BitVec.getElem_not, hlow, BitVec.getElem_shiftLeft]
  by_cases h : i < 6
  · rw [decide_eq_true h, Bool.not_true, Bool.and_false, Bool.false_and]
  · rw [decide_eq_false h, BitVec.getElem_ushiftRight, BitVec.getLsbD_eq_getElem (by omega)]
    simp only [Nat.add_sub_cancel' (Nat.not_lt.1 h), Bool.not_false, Bool.and_true, Bool.true_and]

theorem toNat_and_not_low (x : UInt64) :
    (x &&& ~~~(64 - 1)).toNat = x.toNat / blockSize * blockSize := by
  have hshift : (x &&& ~~~(64 - 1)).toBitVec = x.toBitVec >>> 6 <<< 6 := and_not_low x.toBitVec
  have hlt := x.toNat_lt
  rw [← UInt64.toNat_toBitVec, hshift, BitVec.toNat_shiftLeft, BitVec.toNat_ushiftRight,
    UInt64.toNat_toBitVec, Nat.shiftLeft_eq, Nat.shiftRight_eq_div_pow]
  unfold blockSize
  omega

/-- No sum on the way to the size of a padded text leaves the range of words. -/
theorem toNat_clearedSize {n : Nat} (h : n ≤ maxLength) :
    (clearedSize (UInt64.ofNat n)).toNat = paddedSize n := by
  have hsum : (UInt64.ofNat n + 2 + (64 - 1)).toNat = n + 2 + (blockSize - 1) := by
    unfold maxLength Offset.bound blockSize at *
    simp only [UInt64.toNat_add, UInt64.toNat_ofNat', UInt64.reduceSub, UInt64.reduceToNat]
    omega
  unfold clearedSize paddedSize
  rw [toNat_and_not_low, hsum]

/-! ## The layout -/

/-- How a source lies in its buffer. -/
structure Layout (s : String) (b : Buffer) : Prop where
  length : b.length = s.utf8ByteSize
  zeros : ∃ n, Text.bytes b.padded = Text.bytes s ++ List.replicate n 0
  size : IsLeast {n | 64 ∣ n ∧ s.utf8ByteSize + 2 ≤ n} b.size
  size_word : b.size = (clearedSize (UInt64.ofNat s.utf8ByteSize)).toNat
  size_le : b.size ≤ 0x100000000
  text : b.text = .ok s
  length_lt : b.length < b.size
  sentinel : b.byte b.length = .ok 0
  behind : b.byte (b.length + 1) = .ok 0
  boundary : ∀ i ≤ b.length, Text.Boundary b.padded i ↔ Text.Boundary s i
  cursor : b.cursor = .ok ⟨b, 0⟩

variable {s : String}

theorem layout_pad (h : s.utf8ByteSize ≤ maxLength) : Layout s (pad s) := by
  have hlength := length_pad h
  have hpadded := le_paddedSize s.utf8ByteSize
  constructor
  case length => exact hlength
  case zeros => exact ⟨_, bytes_padded s⟩
  case size =>
    rw [size_pad]
    exact isLeast_paddedSize _
  case size_word => rw [size_pad, toNat_clearedSize h]
  case size_le =>
    rw [size_pad]
    exact paddedSize_le h
  case text => exact text_pad h
  case length_lt =>
    rw [hlength, size_pad]
    omega
  case sentinel => exact byte_end h
  case behind =>
    rw [hlength, byte_pad (by omega), Text.getD_bytes_of_le (by omega)]
  case boundary =>
    intro i hi
    rw [hlength] at hi
    exact boundary_padded hi
  case cursor =>
    rw [cursor_pad h]
    simp [Cursor.between]

theorem ofText?_eq_error_iff {e : SourceError} :
    ofText? s = .error e ↔ maxLength < s.utf8ByteSize ∧ e = .tooLong s.utf8ByteSize maxLength := by
  by_cases h : s.utf8ByteSize ≤ maxLength
  · rw [ofText?_eq h]
    simp [Nat.not_lt.2 h]
  · unfold ofText? checkLength
    rw [if_neg h]
    simp [bind, Except.bind, Nat.not_le.1 h, eq_comm]

/-- A text of more than 4294967231 bytes is refused, with its length and that limit, and no other.
Any other lies in its buffer as a source does. -/
theorem ofText?_layout (s : String) :
    (∀ e, ofText? s = .error e ↔
      4294967231 < s.utf8ByteSize ∧ e = .tooLong s.utf8ByteSize 4294967231) ∧
    (s.utf8ByteSize ≤ 4294967231 → ∃ b, ofText? s = .ok b ∧ Layout s b) := by
  constructor
  · exact fun e => ofText?_eq_error_iff
  · exact fun h => ⟨_, ofText?_eq h, layout_pad h⟩

theorem utf8ByteSize_zeros (n : Nat) :
    (String.ofList (List.replicate n '\x00')).utf8ByteSize = n := by
  rw [← Text.length_bytes, bytes_zeros, List.length_replicate]

/-- The longest sources take 2^32 bytes with the zeros behind them; one more byte is refused. -/
theorem ofText?_layout_longest :
    (∃ b, ofText? (String.ofList (List.replicate 4294967231 '\x00')) = .ok b ∧
      b.size = 0x100000000 ∧ b.byte 4294967231 = .ok 0 ∧ b.byte 4294967232 = .ok 0) ∧
    ofText? (String.ofList (List.replicate 4294967232 '\x00')) =
      .error (.tooLong 4294967232 4294967231) := by
  constructor
  · have hlast := utf8ByteSize_zeros 4294967231
    obtain ⟨b, hb, hlayout⟩ := (ofText?_layout _).2 (Nat.le_of_eq hlast)
    have hsentinel := hlayout.sentinel
    have hbehind := hlayout.behind
    rw [hlayout.length, hlast] at hsentinel hbehind
    refine ⟨b, hb, ?_, hsentinel, hbehind⟩
    rw [hlayout.size_word, hlast]
    rfl
  · have hover := utf8ByteSize_zeros 4294967232
    exact ((ofText?_layout _).1 _).2 ⟨by omega, by rw [hover]⟩

end ExprLexer.Buffer
