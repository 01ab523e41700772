/-
Moves by one character, from anywhere in a source. From a character boundary such a move leads to the
next one, and from inside a character to the byte behind, so no boundary is passed over, and a cursor
that started inside a character comes to a boundary again. Each move leaves one fewer to the end,
which is reached after one for each byte up to the first boundary and one for each character from
there on.
-/
import ExprLexer.Proofs.Source.Moves

namespace ExprLexer

variable {s pre rest : String} {x : Char} {c : Cursor} {i j n : Nat}

/-! ## The next boundary -/

namespace Text

/-- The character boundaries of a text from a position on. -/
def boundariesFrom (s : String) (i : Nat) : Set Nat := {j | i ≤ j ∧ Boundary s j}

theorem exists_isLeast_boundary (hi : i ≤ s.utf8ByteSize) : ∃ j, IsLeast (boundariesFrom s i) j := by
  classical
  have hend : ∃ j, i ≤ j ∧ Boundary s j := ⟨_, hi, boundary_size s⟩
  exact ⟨_, Nat.isLeast_find hend⟩

theorem isLeast_boundary_self (h : Boundary s i) : IsLeast (boundariesFrom s i) i :=
  ⟨⟨le_rfl, h⟩, fun _ hj => hj.1⟩

/-- From inside a character the next boundary is the one from the byte behind on. -/
theorem isLeast_boundary_succ (hin : ¬ Boundary s i) :
    IsLeast (boundariesFrom s i) j ↔ IsLeast (boundariesFrom s (i + 1)) j := by
  have hsame : boundariesFrom s i = boundariesFrom s (i + 1) := by
    ext k
    constructor
    · rintro ⟨hik, hk⟩
      refine ⟨Nat.lt_of_le_of_ne hik ?_, hk⟩
      rintro rfl
      exact hin hk
    · rintro ⟨hik, hk⟩
      exact ⟨Nat.le_of_succ_le hik, hk⟩
  rw [hsame]

/-- Behind a character stands the first boundary past the one in front of it. -/
theorem isLeast_boundary_char (pre : String) (x : Char) (rest : String) :
    IsLeast (boundariesFrom (pre ++ (String.singleton x ++ rest)) (pre.utf8ByteSize + 1))
      (pre ++ String.singleton x).utf8ByteSize := by
  have hx := x.utf8Size_pos
  constructor
  · refine ⟨?_, pre ++ String.singleton x, rest, (String.append_assoc ..).symm, rfl⟩
    rw [String.utf8ByteSize_append, String.utf8ByteSize_singleton]
    omega
  · rintro _ ⟨hlt, front, back, hs, rfl⟩
    -- the front of such a split goes on past the first half, and so past the character
    obtain ⟨mid, rfl, hmid⟩ := append_split hs (Nat.le_of_succ_le hlt)
    rcases eq_empty_or_singleton_append mid with rfl | ⟨y, t, rfl⟩
    · rw [String.append_empty] at hlt
      exact absurd hlt (Nat.not_succ_le_self _)
    · have hxy : x = y := by
        simpa [String.append_assoc] using congrArg (·.toList.head?) hmid
      subst hxy
      simp only [String.utf8ByteSize_append, String.utf8ByteSize_singleton]
      omega

end Text

/-! ## One move -/

namespace Cursor

/-- What a move by one character does to a cursor before the end of a source. -/
structure CharMove (s : String) (c d : Cursor) : Prop where
  /-- It is the width of the character by the byte at the cursor, and need not be cut short. -/
  width : ∃ b, c.current = .ok b ∧ d = { c with pos := c.pos + charWidth b }
  pos_le : d.pos ≤ s.utf8ByteSize
  next : Text.Boundary s c.pos → IsLeast (Text.boundariesFrom s (c.pos + 1)) d.pos
  piece : Text.Boundary s c.pos → ∃ pre x rest, s = pre ++ String.singleton x ++ rest ∧
    c.pos = pre.utf8ByteSize ∧ d.sliceFrom c.pos = .ok (String.singleton x)
  inside : ¬ Text.Boundary s c.pos → d.pos = c.pos + 1
  passed : ∀ i, c.pos < i → i < d.pos → ¬ Text.Boundary s i

theorem charMove_boundary
    (h : (pre ++ (String.singleton x ++ rest)).utf8ByteSize ≤ Buffer.maxLength) :
    CharMove (pre ++ (String.singleton x ++ rest)) (between pre (String.singleton x ++ rest))
      (between (pre ++ String.singleton x) rest) := by
  have hb : Text.Boundary (pre ++ (String.singleton x ++ rest)) pre.utf8ByteSize := ⟨pre, _, rfl, rfl⟩
  have hnext := Text.isLeast_boundary_char pre x rest
  constructor
  case width =>
    refine ⟨_, current_char, ?_⟩
    rw [charWidth_firstByte, ← between_append, String.utf8ByteSize_singleton]
    rfl
  case pos_le =>
    rw [pos_between]
    simp only [String.utf8ByteSize_append]
    omega
  case next => exact fun _ => hnext
  case piece =>
    intro _
    refine ⟨pre, x, rest, (String.append_assoc ..).symm, rfl, ?_⟩
    exact sliceFrom_between (by rwa [String.append_assoc])
  case inside => exact fun hin => absurd hb hin
  case passed =>
    intro i hi hlt hbi
    exact absurd (hnext.2 ⟨hi, hbi⟩) (Nat.not_le.2 hlt)

theorem charMove_inside (hc : c.InSource s) (hin : ¬ Text.Boundary s c.pos) :
    CharMove s c { c with pos := c.pos + 1 } := by
  constructor
  case width => exact ⟨_, current_inSource hc, by rw [charWidth_inside hc hin]⟩
  case pos_le => exact pos_lt_inside hc hin
  case next => exact fun hb => absurd hb hin
  case piece => exact fun hb => absurd hb hin
  case inside => exact fun _ => rfl
  case passed =>
    intro i hi hlt
    exact absurd hlt (Nat.not_lt.2 hi)

theorem exists_charMove (h : s.utf8ByteSize ≤ Buffer.maxLength) (hc : c.InSource s)
    (hlt : c.pos < s.utf8ByteSize) : ∃ d, c.advanceChar = .ok d ∧ c.CharMove s d := by
  by_cases hb : Text.Boundary s c.pos
  · obtain ⟨pre, suf, rfl, hpos⟩ := hb
    rcases Text.eq_empty_or_singleton_append suf with rfl | ⟨x, rest, rfl⟩
    · simp [hpos] at hlt
    · obtain rfl : c = between pre (String.singleton x ++ rest) := hc.eq_between hpos
      exact ⟨_, advanceChar_between h, charMove_boundary h⟩
  · exact ⟨_, advanceChar_inside h hc hb, charMove_inside hc hb⟩

/-! ## Moves to the end -/

/-- Moves by one character, one after the other. -/
def advanceChars : Nat → Cursor → Except Fault Cursor
  | 0, c => .ok c
  | n + 1, c => do advanceChars n (← c.advanceChar)

/-- The number of moves that are left to the end of a source: one for each byte up to the next
boundary, and one for each character from there on. -/
structure MovesLeft (s : String) (n : Nat) (c : Cursor) : Prop where
  inSource : c.InSource s
  count : ∃ pre rest, s = pre ++ rest ∧ IsLeast (Text.boundariesFrom s c.pos) pre.utf8ByteSize ∧
    n = pre.utf8ByteSize - c.pos + rest.length

theorem exists_movesLeft (hc : c.InSource s) : ∃ n, MovesLeft s n c := by
  obtain ⟨_, ⟨hle, pre, rest, hs, rfl⟩, hleast⟩ := Text.exists_isLeast_boundary hc.pos_le
  exact ⟨_, hc, pre, rest, hs, ⟨⟨hle, pre, rest, hs, rfl⟩, hleast⟩, rfl⟩

/-- None is left just at the end. -/
theorem MovesLeft.eq_zero_iff (h : MovesLeft s n c) : n = 0 ↔ c.pos = s.utf8ByteSize := by
  obtain ⟨hc, pre, rest, rfl, ⟨⟨hle, -⟩, -⟩, rfl⟩ := h
  have hend := hc.pos_le
  have hrest : rest.length = 0 ↔ rest.utf8ByteSize = 0 := by
    rw [String.utf8ByteSize_eq_zero_iff, String.length_eq_zero_iff]
  rw [String.utf8ByteSize_append] at hend ⊢
  omega

/-- A move leaves one fewer. -/
theorem MovesLeft.step (h : s.utf8ByteSize ≤ Buffer.maxLength) (hc : MovesLeft s (n + 1) c) :
    ∃ d, c.advanceChar = .ok d ∧ MovesLeft s n d := by
  obtain ⟨hin, pre, rest, hs, hleast, hn⟩ := hc
  by_cases hb : Text.Boundary s c.pos
  · -- at a boundary the next one is where the cursor stands, and a character stands behind it
    have hpos : c.pos = pre.utf8ByteSize :=
      Nat.le_antisymm hleast.1.1 (hleast.2 ⟨Nat.le_refl _, hb⟩)
    subst hs
    rcases Text.eq_empty_or_singleton_append rest with rfl | ⟨x, rest, rfl⟩
    · simp [hpos] at hn
    · obtain rfl : c = between pre (String.singleton x ++ rest) := hin.eq_between hpos
      refine ⟨_, advanceChar_between h, ⟨?_, ?_⟩, pre ++ String.singleton x, rest,
        (String.append_assoc ..).symm, ?_, ?_⟩
      · rw [buffer_between, String.append_assoc]
      · exact (charMove_boundary h).pos_le
      · exact Text.isLeast_boundary_self ⟨_, rest, (String.append_assoc ..).symm, rfl⟩
      · rw [pos_between, String.length_append, String.length_singleton] at hn
        rw [pos_between]
        omega
  · have hnext := (Text.isLeast_boundary_succ hb).1 hleast
    have hlt : c.pos + 1 ≤ pre.utf8ByteSize := hnext.1.1
    refine ⟨_, advanceChar_inside h hin hb, hin.moved (pos_lt_inside hin hb), pre, rest, hs, hnext, ?_⟩
    show n = pre.utf8ByteSize - (c.pos + 1) + rest.length
    omega

/-- At the end a move changes nothing. -/
theorem MovesLeft.stay (h : s.utf8ByteSize ≤ Buffer.maxLength) (hc : MovesLeft s 0 c) :
    c.advanceChar = .ok c := by
  have hend := hc.eq_zero_iff.1 rfl
  unfold advanceChar
  rw [atEnd_eq_decide h hc.inSource, if_pos (decide_eq_true hend)]
  rfl

theorem MovesLeft.run (h : s.utf8ByteSize ≤ Buffer.maxLength) {left : Nat}
    (hc : MovesLeft s left c) (n : Nat) :
    ∃ d, advanceChars n c = .ok d ∧ MovesLeft s (left - n) d := by
  induction n generalizing c left with
  | zero => exact ⟨c, rfl, hc⟩
  | succ n ih =>
    unfold advanceChars
    cases left with
    | zero =>
      obtain ⟨d, hd, hleft⟩ := ih hc
      rw [Nat.zero_sub] at hleft ⊢
      exact ⟨d, by rw [hc.stay h]; exact hd, hleft⟩
    | succ left =>
      obtain ⟨d, hd, hleft⟩ := hc.step h
      rw [hd, Nat.add_sub_add_right]
      exact ih hleft

/-- Wherever a cursor stands before the end of a source, it can be moved by one character: from a
boundary to the next, so that it has passed one character, and from inside a character by one byte.
No boundary is passed over, and the end of the source never cuts a move short. The end is reached
after as many moves as there are bytes up to the first boundary and characters from there on. -/
theorem advanceChar_walks (s : String) (h : s.utf8ByteSize ≤ Buffer.maxLength) :
    ∃ b, Buffer.ofText? s = .ok b ∧ ∀ c : Cursor, c.buffer = b → c.pos < s.utf8ByteSize →
      (∃ d, c.advanceChar = .ok d ∧ c.CharMove s d) ∧
      ∃ pre rest, s = pre ++ rest ∧ IsLeast (Text.boundariesFrom s c.pos) pre.utf8ByteSize ∧
        ∀ n, ∃ d, advanceChars n c = .ok d ∧ d.buffer = b ∧
          (d.pos = s.utf8ByteSize ↔ pre.utf8ByteSize - c.pos + rest.length ≤ n) := by
  refine ⟨_, Buffer.ofText?_eq h, ?_⟩
  rintro c hbuf hlt
  have hc : c.InSource s := ⟨hbuf, Nat.le_of_lt hlt⟩
  obtain ⟨left, hleft⟩ := exists_movesLeft hc
  obtain ⟨pre, rest, hs, hleast, hcount⟩ := hleft.count
  refine ⟨exists_charMove h hc hlt, pre, rest, hs, hleast, fun n => ?_⟩
  obtain ⟨d, hd, hleft'⟩ := hleft.run h n
  refine ⟨d, hd, hleft'.inSource.buffer, ?_⟩
  rw [← hleft'.eq_zero_iff, ← hcount]
  omega

/-- From inside a character of two bytes, in front of one of four and a zero, the first move is by one
byte, and three moves lead to the end, but not two. -/
theorem advanceChar_walks_inside :
    (∃ d, advanceChar ⟨Buffer.pad "é😀\x00", 1⟩ = .ok d ∧ d.pos = 2) ∧
    (∃ d, advanceChars 2 ⟨Buffer.pad "é😀\x00", 1⟩ = .ok d ∧ d.pos ≠ 7) ∧
    (∃ d, advanceChars 3 ⟨Buffer.pad "é😀\x00", 1⟩ = .ok d ∧ d.pos = 7) := by
  have hs : "é😀\x00".utf8ByteSize ≤ Buffer.maxLength := by decide
  obtain ⟨b, hb, hwalks⟩ := advanceChar_walks "é😀\x00" hs
  rw [Buffer.ofText?_eq hs] at hb
  cases hb
  obtain ⟨⟨d, hd, hmove⟩, pre, rest, hsplit, hleast, hmoves⟩ :=
    hwalks ⟨Buffer.pad "é😀\x00", 1⟩ rfl (by decide)
  have hin : ¬ Text.Boundary "é😀\x00" 1 := by
    rw [← Text.isValid_iff_boundary]
    decide
  -- the next boundary is behind the first character, and two characters are left there
  have hnext : IsLeast (Text.boundariesFrom "é😀\x00" 1) 2 := Text.isLeast_boundary_char "" 'é' "😀\x00"
  have hpre : pre.utf8ByteSize = "é".utf8ByteSize :=
    Nat.le_antisymm (hleast.2 hnext.1) (hnext.2 hleast.1)
  obtain ⟨-, rfl⟩ := Text.append_inj (p := "é") (q := "😀\x00") hsplit hpre.symm
  rw [hpre] at hmoves
  refine ⟨⟨d, hd, hmove.inside hin⟩, ?_, ?_⟩
  · obtain ⟨d, hd, -, hend⟩ := hmoves 2
    exact ⟨d, hd, fun hpos => absurd (hend.1 hpos) (by decide)⟩
  · obtain ⟨d, hd, -, hend⟩ := hmoves 3
    exact ⟨d, hd, hend.2 (by decide)⟩

end Cursor

end ExprLexer
