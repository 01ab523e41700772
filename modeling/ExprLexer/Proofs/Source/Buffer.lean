/-
The layout of a source buffer: the bytes of the source, then zeros up to a whole number of blocks,
two of them at least. Every byte of a padded text stands at a position below 2^32, and reading one
gives the byte of the source, or a zero past its end.
-/
import ExprLexer.Proofs.Text.Bytes
import ExprLexer.Source.Buffer

namespace ExprLexer.Buffer

/-! ## Sizes -/

theorem le_paddedSize (n : Nat) : n + 2 ≤ paddedSize n := by
  unfold paddedSize blockSize; omega

theorem paddedSize_le {n : Nat} (h : n ≤ maxLength) : paddedSize n ≤ Offset.bound := by
  unfold paddedSize blockSize
  unfold maxLength Offset.bound blockSize at *
  omega

example : maxLength = 4294967231 ∧ paddedSize maxLength = Offset.bound := by decide

theorem lt_bound {n : Nat} (h : n ≤ maxLength) : n + 1 < Offset.bound := by
  have := le_paddedSize n
  have := paddedSize_le h
  omega

theorem ofLength_eq {n : Nat} (h : n ≤ maxLength) : Offset.ofLength n = n :=
  Nat.mod_eq_of_lt (by have := lt_bound h; omega)

/-! ## Bytes -/

variable {s : String}

theorem bytes_zeros (n : Nat) :
    Text.bytes (String.ofList (List.replicate n '\x00')) = List.replicate n 0 := by
  induction n with
  | zero => rfl
  | succ n ih =>
    rw [List.replicate_succ, ← List.singleton_append, String.ofList_append, Text.bytes_append, ih,
      List.replicate_succ]
    rfl

theorem bytes_padded (s : String) : Text.bytes (pad s).padded =
    Text.bytes s ++ List.replicate (paddedSize s.utf8ByteSize - s.utf8ByteSize) 0 := by
  show Text.bytes (s ++ _) = _
  rw [Text.bytes_append, bytes_zeros]

theorem size_pad (s : String) : (pad s).size = paddedSize s.utf8ByteSize := by
  have h := congrArg List.length (bytes_padded s)
  have := le_paddedSize s.utf8ByteSize
  simp only [Text.length_bytes, List.length_append, List.length_replicate] at h
  unfold size; omega

theorem byte_pad {i : Nat} (h : i < paddedSize s.utf8ByteSize) :
    (pad s).byte i = .ok ((Text.bytes s).getD i 0) := by
  unfold byte
  rw [Text.byteAt?_eq, bytes_padded, List.getD_eq_getElem?_getD]
  by_cases hi : i < s.utf8ByteSize
  · have hl : i < (Text.bytes s).length := by simpa using hi
    rw [List.getElem?_append_left hl, List.getElem?_eq_getElem hl]
    rfl
  · have hl : (Text.bytes s).length ≤ i := by simpa using hi
    rw [List.getElem?_append_right hl, List.getElem?_replicate_of_lt (by simp; omega),
      List.getElem?_eq_none hl]
    rfl

/-- Only a position of the padded text has a byte. -/
theorem lt_size_of_byte {b : Buffer} {i : Nat} {x : UInt8} (h : b.byte i = .ok x) : i < b.size := by
  unfold byte at h
  rw [Text.byteAt?_eq] at h
  split at h
  · rename_i hx
    simpa [size] using (List.getElem?_eq_some_iff.1 hx).1
  · cases h

/-! ## The source -/

theorem length_pad (h : s.utf8ByteSize ≤ maxLength) : (pad s).length = s.utf8ByteSize :=
  ofLength_eq h

theorem ofText?_eq (h : s.utf8ByteSize ≤ maxLength) : ofText? s = .ok (pad s) := by
  unfold ofText? checkLength
  rw [if_pos h]
  rfl

theorem text_pad (h : s.utf8ByteSize ≤ maxLength) : (pad s).text = .ok s := by
  unfold text
  rw [length_pad h, Text.cut_eq_ok_iff]
  exact ⟨"", String.ofList (List.replicate (paddedSize s.utf8ByteSize - s.utf8ByteSize) '\x00'),
    by simp [pad], by simp, by simp⟩

/-- Up to its end a source has the character boundaries that its padded text has. -/
theorem boundary_padded {i : Nat} (h : i ≤ s.utf8ByteSize) :
    Text.Boundary (pad s).padded i ↔ Text.Boundary s i := by
  constructor
  · rintro ⟨pre, suf, hs, rfl⟩
    obtain ⟨mid, rfl, -⟩ := Text.append_split hs.symm h
    exact ⟨pre, mid, rfl, rfl⟩
  · rintro ⟨pre, suf, rfl, rfl⟩
    exact ⟨pre, _, String.append_assoc .., rfl⟩

/-- A byte past the source is a zero. -/
theorem byte_end (h : s.utf8ByteSize ≤ maxLength) :
    (pad s).byte (pad s).length = .ok 0 := by
  rw [length_pad h, byte_pad (by have := le_paddedSize s.utf8ByteSize; omega),
    Text.getD_bytes_of_le (Nat.le_refl _)]

end ExprLexer.Buffer
