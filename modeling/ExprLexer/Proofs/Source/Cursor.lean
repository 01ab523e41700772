/-
Cursors between two halves of a source. There each move is a move along the text: past a character,
past a run of characters of a class, and what lies between two such cursors is the piece of text
that was passed. No move from there breaks a contract, since the zeros after the source end every
run, and the sum of two positions stays in range.
-/
import ExprLexer.Proofs.Source.Buffer
import ExprLexer.Proofs.Text.Runs
import ExprLexer.Source.Cursor

namespace ExprLexer

theorem Offset.add_eq {a b : Nat} (h : a + b < bound) : add a b = .ok (a + b) := if_pos h

/-! ## Classes of characters seen by their bytes -/

theorem charWidth_firstByte (c : Char) : charWidth (Text.firstByte c) = c.utf8Size := by
  have h := Text.firstByte_cases c
  simp only [charWidth, UInt8.le_iff_toNat_le, Bool.and_eq_true, decide_eq_true_eq,
    UInt8.reduceToNat]
  split_ifs <;> omega

/-- A property of bytes that is one of characters of a single byte each, and not of NUL. -/
structure ByteClass (p : UInt8 → Bool) (q : Char → Bool) : Prop where
  first : ∀ c, p (Text.firstByte c) = q c
  small : ∀ c, q c = true → c.utf8Size = 1
  zero : p 0 = false

theorem byteClass_blank : ByteClass isSpace isBlank := by
  refine ⟨fun c => ?_, fun c => ?_, rfl⟩ <;> have h := Text.firstByte_cases c
  · rw [Bool.eq_iff_iff, isBlank_iff]
    simp only [isSpace, Bool.or_eq_true, Bool.and_eq_true, decide_eq_true_eq, ← UInt8.toNat_inj,
      UInt8.le_iff_toNat_le, UInt8.reduceToNat]
    omega
  · rw [isBlank_iff]; omega

namespace Cursor

/-- The cursor between two halves of a source. -/
def between (pre rest : String) : Cursor := ⟨Buffer.pad (pre ++ rest), pre.utf8ByteSize⟩

variable {pre run rest : String} {c : Char}

@[simp] theorem buffer_between : (between pre rest).buffer = Buffer.pad (pre ++ rest) := rfl

@[simp] theorem pos_between : (between pre rest).pos = pre.utf8ByteSize := rfl

theorem between_append (pre run rest : String) :
    { between pre (run ++ rest) with pos := pre.utf8ByteSize + run.utf8ByteSize } =
      between (pre ++ run) rest := by
  simp [between, String.append_assoc]

/-! ## Looking -/

theorem current_char :
    (between pre (String.singleton c ++ rest)).current = .ok (Text.firstByte c) := by
  have := Buffer.le_paddedSize (pre ++ (String.singleton c ++ rest)).utf8ByteSize
  obtain ⟨bs, hbs, -⟩ := Text.bytes_singleton_append c rest
  unfold current
  rw [buffer_between, pos_between, Buffer.byte_pad (by simp at this ⊢; omega), Text.bytes_append,
    hbs, List.getD_eq_getElem?_getD, List.getElem?_append_right (by simp)]
  simp

theorem current_end : (between pre "").current = .ok 0 := by
  have := Buffer.le_paddedSize (pre ++ "").utf8ByteSize
  unfold current
  rw [buffer_between, pos_between, Buffer.byte_pad (by simp at this ⊢; omega),
    Text.getD_bytes_of_le (by simp)]

theorem atEnd_iff (h : (pre ++ rest).utf8ByteSize ≤ Buffer.maxLength) :
    (between pre rest).atEnd = true ↔ rest = "" := by
  unfold atEnd
  rw [buffer_between, pos_between, Buffer.length_pad h, decide_eq_true_iff,
    ← String.utf8ByteSize_eq_zero_iff, String.utf8ByteSize_append]
  omega

theorem atEnd_char (h : (pre ++ (String.singleton c ++ rest)).utf8ByteSize ≤ Buffer.maxLength) :
    (between pre (String.singleton c ++ rest)).atEnd = false := by
  rw [← Bool.not_eq_true, atEnd_iff h]
  simp

/-- What lies between two cursors is the text that was passed. -/
theorem sliceFrom_between (h : (pre ++ run ++ rest).utf8ByteSize ≤ Buffer.maxLength) :
    (between (pre ++ run) rest).sliceFrom pre.utf8ByteSize = .ok run := by
  unfold sliceFrom slice
  rw [buffer_between, pos_between, Buffer.length_pad h, if_neg (by simp), Text.cut_eq_ok_iff]
  exact ⟨pre, _, (String.append_assoc ..), rfl, by simp⟩

/-! ## Moving -/

theorem add_pos (h : (pre ++ (run ++ rest)).utf8ByteSize ≤ Buffer.maxLength) :
    Offset.add pre.utf8ByteSize run.utf8ByteSize = .ok (pre.utf8ByteSize + run.utf8ByteSize) := by
  apply Offset.add_eq
  have := Buffer.lt_bound h
  simp only [String.utf8ByteSize_append] at this
  omega

theorem advance_between (h : (pre ++ (String.singleton c ++ rest)).utf8ByteSize ≤ Buffer.maxLength)
    (hc : c.utf8Size = 1) : (between pre (String.singleton c ++ rest)).advance =
      .ok (between (pre ++ String.singleton c) rest) := by
  have hadd := add_pos h
  rw [String.utf8ByteSize_singleton, hc] at hadd
  rw [← between_append, String.utf8ByteSize_singleton, hc]
  simp [advance, atEnd_char h, hadd, bind, Except.bind, pure, Except.pure]

theorem advanceChar_between
    (h : (pre ++ (String.singleton c ++ rest)).utf8ByteSize ≤ Buffer.maxLength) :
    (between pre (String.singleton c ++ rest)).advanceChar =
      .ok (between (pre ++ String.singleton c) rest) := by
  have hadd := add_pos h
  rw [String.utf8ByteSize_singleton] at hadd
  rw [← between_append, String.utf8ByteSize_singleton]
  simp [advanceChar, atEnd_char h, current_char, charWidth_firstByte, hadd, bind, Except.bind, pure,
    Except.pure, Buffer.length_pad h]

theorem skipRun_step {p : UInt8 → Bool} {q : Char → Bool} (hpq : ByteClass p q) {n : Nat}
    (h : (pre ++ (String.singleton c ++ rest)).utf8ByteSize ≤ Buffer.maxLength) (hc : q c = true) :
    skipRun p (n + 1) (between pre (String.singleton c ++ rest)) =
      skipRun p n (between (pre ++ String.singleton c) rest) := by
  have hadd := add_pos h
  rw [String.utf8ByteSize_singleton, hpq.small c hc] at hadd
  rw [← between_append, String.utf8ByteSize_singleton, hpq.small c hc]
  simp [skipRun, current_char, hpq.first, hc, hadd, bind, Except.bind]

theorem skipRun_stop {p : UInt8 → Bool} {q : Char → Bool} (hpq : ByteClass p q) {n : Nat}
    (hrest : Stops q rest) : skipRun p (n + 1) (between pre rest) = .ok (between pre rest) := by
  have hcur : ∃ b, (between pre rest).current = .ok b ∧ p b = false := by
    rcases Text.eq_empty_or_singleton_append rest with rfl | ⟨c, t, rfl⟩
    · exact ⟨0, current_end, hpq.zero⟩
    · exact ⟨_, current_char, by rw [hpq.first]; simpa using hrest⟩
  obtain ⟨b, hb, hp⟩ := hcur
  simp [skipRun, hb, hp, bind, Except.bind, pure, Except.pure]

/-- A run of a class ends before the first character outside the class, or at the end. -/
theorem skipRun_between {p : UInt8 → Bool} {q : Char → Bool} (hpq : ByteClass p q) {n : Nat}
    (h : (pre ++ (run ++ rest)).utf8ByteSize ≤ Buffer.maxLength)
    (hrun : Within q run) (hrest : Stops q rest) (hn : run.utf8ByteSize < n) :
    skipRun p n (between pre (run ++ rest)) = .ok (between (pre ++ run) rest) := by
  -- on the run: each of its characters is one byte, so one step takes the cursor past it
  induction run using Text.char_induction generalizing pre n with
  | empty =>
    obtain ⟨n, rfl⟩ : ∃ m, n = m + 1 := ⟨n - 1, by simp at hn; omega⟩
    simpa using skipRun_stop hpq hrest
  | cons c run ih =>
    obtain ⟨n, rfl⟩ : ∃ m, n = m + 1 := ⟨n - 1, by omega⟩
    rw [String.append_assoc] at h ⊢
    rw [within_append, within_singleton] at hrun
    rw [skipRun_step hpq h hrun.1, ← String.append_assoc]
    refine ih (by rwa [String.append_assoc]) hrun.2 ?_
    have := c.utf8Size_pos
    simp at hn; omega

theorem eatWhile_between {p : UInt8 → Bool} {q : Char → Bool} (hpq : ByteClass p q)
    (h : (pre ++ (run ++ rest)).utf8ByteSize ≤ Buffer.maxLength)
    (hrun : Within q run) (hrest : Stops q rest) :
    (between pre (run ++ rest)).eatWhile p = .ok (between (pre ++ run) rest) := by
  refine skipRun_between hpq h hrun hrest ?_
  have := Buffer.le_paddedSize (pre ++ (run ++ rest)).utf8ByteSize
  rw [buffer_between, pos_between, Buffer.size_pad]
  simp only [String.utf8ByteSize_append] at this ⊢
  omega

theorem eatSpace_between (h : (pre ++ (run ++ rest)).utf8ByteSize ≤ Buffer.maxLength)
    (hrun : Blank run) (hrest : Stops isBlank rest) :
    (between pre (run ++ rest)).eatSpace = .ok (between (pre ++ run) rest) :=
  eatWhile_between byteClass_blank h hrun hrest

end Cursor

theorem Buffer.cursor_pad {s : String} (h : s.utf8ByteSize ≤ maxLength) :
    (pad s).cursor = .ok (Cursor.between "" s) := by
  unfold cursor
  rw [byte_end h]
  simp [bind, Except.bind, Cursor.between, pure, Except.pure]

end ExprLexer
