/-
Cursors anywhere in a source, between two characters or inside one. There a cursor sees the bytes of
the source and, behind it, the zeros of the padding; every move ends in the source, at its end at
the latest, and a piece of the padded text that ends in the source is a piece of the source.
-/
import ExprLexer.Proofs.Source.Cursor
import Mathlib.Data.List.GetD
import Mathlib.Order.Nat

namespace ExprLexer.Cursor

/-- A cursor that stands in a source or at its end. -/
structure InSource (s : String) (c : Cursor) : Prop where
  buffer : c.buffer = Buffer.pad s
  pos_le : c.pos ≤ s.utf8ByteSize

variable {s : String} {c : Cursor} {p : UInt8 → Bool} {i k n start stop : Nat}

theorem inSource_start (s : String) : (between "" s).InSource s := by
  constructor
  · rw [buffer_between, String.empty_append]
  · exact Nat.zero_le _

theorem InSource.moved (hc : c.InSource s) (hi : i ≤ s.utf8ByteSize) :
    InSource s { c with pos := i } :=
  ⟨hc.buffer, hi⟩

/-- At the end of a first half a cursor stands between the two. -/
theorem InSource.eq_between {pre rest : String} (hc : c.InSource (pre ++ rest))
    (hpos : c.pos = pre.utf8ByteSize) : c = between pre rest :=
  congr (congrArg Cursor.mk hc.buffer) hpos

/-! ## Looking -/

/-- The byte at a cursor is that of the source, and a zero at its end. -/
theorem current_inSource (hc : c.InSource s) :
    c.current = .ok ((Text.bytes s).getD c.pos 0) := by
  have hpadded := Buffer.le_paddedSize s.utf8ByteSize
  have hle := hc.pos_le
  unfold current
  rw [hc.buffer]
  exact Buffer.byte_pad (by omega)

theorem peek_inSource (h : s.utf8ByteSize ≤ Buffer.maxLength) (hc : c.InSource s) :
    c.peek = .ok ((Text.bytes s).getD (c.pos + 1) 0) := by
  have hpadded := Buffer.le_paddedSize s.utf8ByteSize
  have hbound := Buffer.lt_bound h
  have hle := hc.pos_le
  have hadd : Offset.add c.pos 1 = .ok (c.pos + 1) := Offset.add_eq (by omega)
  unfold peek
  rw [hadd, hc.buffer, Buffer.length_pad h]
  show (if s.utf8ByteSize ≤ c.pos + 1 then .ok 0 else (Buffer.pad s).byte (c.pos + 1)) = _
  split
  · rename_i hlast
    rw [Text.getD_bytes_of_le hlast]
  · exact Buffer.byte_pad (by omega)

theorem atEnd_eq_decide (h : s.utf8ByteSize ≤ Buffer.maxLength) (hc : c.InSource s) :
    c.atEnd = decide (c.pos = s.utf8ByteSize) := by
  have hle := hc.pos_le
  unfold atEnd
  rw [hc.buffer, Buffer.length_pad h, decide_eq_decide]
  omega

/-! ## Moving by bytes and characters -/

/-- The sum of a position in a source and of a few bytes stays in range. -/
theorem add_inSource (h : s.utf8ByteSize ≤ Buffer.maxLength) (hlt : c.pos < s.utf8ByteSize)
    (hn : n ≤ 4) : Offset.add c.pos n = .ok (c.pos + n) := by
  apply Offset.add_eq
  unfold Buffer.maxLength Offset.bound Buffer.blockSize at *
  omega

theorem charWidth_le (b : UInt8) : charWidth b ≤ 4 := by
  unfold charWidth
  split_ifs <;> omega

theorem advance_inSource (h : s.utf8ByteSize ≤ Buffer.maxLength) (hc : c.InSource s) :
    c.advance = .ok { c with pos := min (c.pos + 1) s.utf8ByteSize } := by
  have hle := hc.pos_le
  unfold advance
  rw [atEnd_eq_decide h hc]
  by_cases hend : c.pos = s.utf8ByteSize
  · rw [if_pos (by simpa using hend), show min (c.pos + 1) s.utf8ByteSize = c.pos by omega]
    rfl
  · rw [if_neg (by simpa using hend), add_inSource h (by omega) (by omega),
      show min (c.pos + 1) s.utf8ByteSize = c.pos + 1 by omega]
    rfl

theorem advanceChar_inSource (h : s.utf8ByteSize ≤ Buffer.maxLength) (hc : c.InSource s) :
    c.advanceChar = .ok { c with
      pos := min (c.pos + charWidth ((Text.bytes s).getD c.pos 0)) s.utf8ByteSize } := by
  have hle := hc.pos_le
  unfold advanceChar
  rw [atEnd_eq_decide h hc]
  by_cases hend : c.pos = s.utf8ByteSize
  · rw [if_pos (by simpa using hend), hend, Nat.min_eq_right (by omega), ← hend]
    rfl
  · rw [if_neg (by simpa using hend), current_inSource hc]
    show (do
      let next ← Offset.add c.pos (charWidth ((Text.bytes s).getD c.pos 0))
      return { c with pos := min next c.buffer.length }) = _
    rw [add_inSource h (by omega) (charWidth_le _), hc.buffer, Buffer.length_pad h]
    rfl

/-! ## Inside a character -/

theorem charWidth_of_lt {b : UInt8} (h : b.toNat < 0xC0) : charWidth b = 1 := by
  simp only [charWidth, UInt8.le_iff_toNat_le, Bool.and_eq_true, decide_eq_true_eq,
    UInt8.reduceToNat]
  split_ifs <;> omega

/-- Inside a character stands a byte that starts none, and counts for itself. -/
theorem charWidth_inside (hc : c.InSource s) (hin : ¬ Text.Boundary s c.pos) :
    charWidth ((Text.bytes s).getD c.pos 0) = 1 := by
  obtain ⟨b, hb, -, hhigh⟩ := Text.byte_inside hc.pos_le hin
  rw [List.getD_eq_getElem?_getD, hb]
  exact charWidth_of_lt hhigh

theorem pos_lt_inside (hc : c.InSource s) (hin : ¬ Text.Boundary s c.pos) :
    c.pos < s.utf8ByteSize := by
  apply Nat.lt_of_le_of_ne hc.pos_le
  rintro hend
  exact hin (hend ▸ Text.boundary_size s)

/-- From inside a character one byte is passed. -/
theorem advanceChar_inside (h : s.utf8ByteSize ≤ Buffer.maxLength) (hc : c.InSource s)
    (hin : ¬ Text.Boundary s c.pos) : c.advanceChar = .ok { c with pos := c.pos + 1 } := by
  have hlt := pos_lt_inside hc hin
  rw [advanceChar_inSource h hc, charWidth_inside hc hin, Nat.min_eq_left hlt]

/-! ## Runs in any buffer -/

/-- Where a run of bytes with a property ends: at the first byte without it. Nothing is asked of the
buffer. -/
structure EndsRun (p : UInt8 → Bool) (c d : Cursor) : Prop where
  buffer : d.buffer = c.buffer
  le : c.pos ≤ d.pos
  passed : ∀ i, c.pos ≤ i → i < d.pos → ∃ b, c.buffer.byte i = .ok b ∧ p b = true
  stopped : ∃ b, c.buffer.byte d.pos = .ok b ∧ p b = false

variable {d : Cursor} {b : UInt8}

/-- A byte without the property ends the run in front of it. -/
theorem endsRun_iff_eq (hb : c.current = .ok b) (hp : p b = false) : EndsRun p c d ↔ d = c := by
  constructor
  · rintro ⟨hbuffer, hle, hpassed, -⟩
    have hpos : d.pos = c.pos := by
      by_contra hne
      obtain ⟨x, hx, hx'⟩ := hpassed c.pos le_rfl (by omega)
      cases hb.symm.trans hx
      rw [hp] at hx'
      cases hx'
    obtain ⟨buffer, pos⟩ := d
    exact congr (congrArg Cursor.mk hbuffer) hpos
  · rintro rfl
    refine ⟨rfl, le_rfl, ?_, b, hb, hp⟩
    intro i hle hlt
    omega

/-- Behind a byte with the property the run goes on. -/
theorem endsRun_iff_next (hb : c.current = .ok b) (hp : p b = true) :
    EndsRun p c d ↔ EndsRun p { c with pos := c.pos + 1 } d := by
  constructor
  · rintro ⟨hbuffer, hle, hpassed, x, hx, hstop⟩
    have hne : c.pos ≠ d.pos := by
      rintro heq
      rw [← heq] at hx
      cases hb.symm.trans hx
      rw [hp] at hstop
      cases hstop
    refine ⟨hbuffer, Nat.lt_of_le_of_ne hle hne, ?_, x, hx, hstop⟩
    intro i hi hlt
    exact hpassed i (Nat.le_of_succ_le hi) hlt
  · rintro ⟨hbuffer, hle, hpassed, hstopped⟩
    refine ⟨hbuffer, Nat.le_of_succ_le hle, ?_, hstopped⟩
    intro i hi hlt
    rcases Nat.eq_or_lt_of_le hi with rfl | hi
    · exact ⟨b, hb, hp⟩
    · exact hpassed i hi hlt

/-- A search that succeeds comes to the end of the run. -/
theorem endsRun_of_skipRun (h : skipRun p n c = .ok d) : EndsRun p c d := by
  induction n generalizing c with
  | zero => cases h
  | succ n ih =>
    unfold skipRun at h
    cases hb : c.current with
    | error fault => simp [hb, bind, Except.bind] at h
    | ok b =>
      rw [hb] at h
      change (if p b then _ else _) = _ at h
      split at h
      · rename_i hp
        unfold Offset.add at h
        split at h
        · exact (endsRun_iff_next hb hp).2 (ih h)
        · cases h
      · rename_i hp
        cases h
        exact (endsRun_iff_eq hb (by simpa using hp)).2 rfl

/-- A search that goes on for long enough finds the end of the run, if that is in range. -/
theorem skipRun_of_endsRun (h : EndsRun p c d) (hn : d.pos < c.pos + n)
    (hd : d.pos < Offset.bound) : skipRun p n c = .ok d := by
  induction n generalizing c with
  | zero =>
    have hle := h.le
    omega
  | succ n ih =>
    have hbyte : ∃ b, c.current = .ok b := by
      rcases Nat.eq_or_lt_of_le h.le with heq | hlt
      · obtain ⟨b, hb, -⟩ := h.stopped
        exact ⟨b, by rw [current, heq, hb]⟩
      · obtain ⟨b, hb, -⟩ := h.passed c.pos le_rfl hlt
        exact ⟨b, hb⟩
    obtain ⟨b, hb⟩ := hbyte
    unfold skipRun
    rw [hb]
    show (if p b then _ else _) = _
    cases hp : p b with
    | false =>
      rw [(endsRun_iff_eq hb hp).1 h]
      rfl
    | true =>
      have hnext := (endsRun_iff_next hb hp).1 h
      have hlt : c.pos + 1 ≤ d.pos := hnext.le
      rw [if_pos rfl, Offset.add_eq (by omega)]
      apply ih hnext
      show d.pos < c.pos + 1 + n
      omega

theorem endsRun_of_eatWhile (h : c.eatWhile p = .ok d) : EndsRun p c d := endsRun_of_skipRun h

theorem eatWhile_of_endsRun (h : EndsRun p c d) (hd : d.pos < Offset.bound) :
    c.eatWhile p = .ok d := by
  obtain ⟨b, hb, -⟩ := h.stopped
  have hsize := Buffer.lt_size_of_byte hb
  have hle := h.le
  apply skipRun_of_endsRun h ?_ hd
  omega

/-! ## Runs in a source -/

/-- The positions of a source from one on, its end among them, whose byte lacks a property; at the
end that byte is a zero. -/
def runEnds (p : UInt8 → Bool) (s : String) (i : Nat) : Set Nat :=
  {q | i ≤ q ∧ q ≤ s.utf8ByteSize ∧ p ((Text.bytes s).getD q 0) = false}

variable {q : Nat}

theorem size_mem_runEnds (hp : p 0 = false) (hi : i ≤ s.utf8ByteSize) :
    s.utf8ByteSize ∈ runEnds p s i := by
  refine ⟨hi, le_rfl, ?_⟩
  rwa [Text.getD_bytes_of_le le_rfl]

theorem exists_isLeast_runEnds (hne : (runEnds p s i).Nonempty) :
    ∃ q, IsLeast (runEnds p s i) q := by
  classical
  exact ⟨_, Nat.isLeast_find hne⟩

/-- A buffer that shows a source and a zero behind it ends a run at the least such position,
whatever stands behind that zero. -/
theorem endsRun_of_isLeast
    (hbytes : ∀ i ≤ s.utf8ByteSize, c.buffer.byte i = .ok ((Text.bytes s).getD i 0))
    (hq : IsLeast (runEnds p s c.pos) q) : EndsRun p c { c with pos := q } := by
  obtain ⟨⟨hle, hend, hstop⟩, hleast⟩ := hq
  refine ⟨rfl, hle, ?_, _, hbytes q hend, hstop⟩
  intro i hi hlt
  have hin : i ≤ s.utf8ByteSize := Nat.le_trans (Nat.le_of_lt hlt) hend
  refine ⟨_, hbytes i hin, ?_⟩
  by_contra hp
  have hle' : q ≤ i := hleast ⟨hi, hin, by simpa using hp⟩
  exact absurd hlt (Nat.not_lt.2 hle')

theorem eatWhile_of_isLeast (h : s.utf8ByteSize ≤ Buffer.maxLength)
    (hbytes : ∀ i ≤ s.utf8ByteSize, c.buffer.byte i = .ok ((Text.bytes s).getD i 0))
    (hq : IsLeast (runEnds p s c.pos) q) : c.eatWhile p = .ok { c with pos := q } := by
  have hend : q ≤ s.utf8ByteSize := hq.1.2.1
  have hbound := Buffer.lt_bound h
  apply eatWhile_of_endsRun (endsRun_of_isLeast hbytes hq)
  show q < Offset.bound
  omega

theorem byte_inSource (hc : c.InSource s) (hi : i ≤ s.utf8ByteSize) :
    c.buffer.byte i = .ok ((Text.bytes s).getD i 0) :=
  current_inSource (hc.moved hi)

/-- Where a zero ends it, a run stays in the source. -/
theorem eatWhile_inSource (h : s.utf8ByteSize ≤ Buffer.maxLength) (hc : c.InSource s)
    (hp : p 0 = false) : ∃ k, c.eatWhile p = .ok { c with pos := c.pos + k } ∧
      c.pos + k ≤ s.utf8ByteSize ∧
      (∀ j < k, p ((Text.bytes s).getD (c.pos + j) 0) = true) ∧
      p ((Text.bytes s).getD (c.pos + k) 0) = false := by
  obtain ⟨q, hq⟩ := exists_isLeast_runEnds ⟨_, size_mem_runEnds hp hc.pos_le⟩
  have hrun := eatWhile_of_isLeast h (fun i hi => byte_inSource hc hi) hq
  obtain ⟨⟨hle, hend, hstop⟩, hleast⟩ := hq
  obtain ⟨k, rfl⟩ := Nat.exists_eq_add_of_le hle
  refine ⟨k, hrun, hend, ?_, hstop⟩
  intro j hj
  by_contra hpj
  have hle' : c.pos + k ≤ c.pos + j :=
    hleast ⟨Nat.le_add_right .., by omega, by simpa using hpj⟩
  omega

/-! ## Slices -/

theorem cut_padded (h : stop ≤ s.utf8ByteSize) :
    Text.cut (Buffer.pad s).padded start stop = Text.cut s start stop := by
  by_cases hlt : stop < start
  · rw [Text.cut, Text.cut, if_pos hlt, if_pos hlt]
  have hle : start ≤ stop := Nat.not_lt.1 hlt
  by_cases hb : Text.Boundary s start ∧ Text.Boundary s stop
  · obtain ⟨pre, mid, suf, rfl, rfl, rfl, hcut⟩ := Text.cut_of_boundary hle hb.1 hb.2
    rw [hcut, Text.cut_eq_ok_iff]
    exact ⟨pre, _, String.append_assoc .., rfl, rfl⟩
  · have hpad : ¬ (Text.Boundary (Buffer.pad s).padded start ∧
        Text.Boundary (Buffer.pad s).padded stop) := by
      rwa [Buffer.boundary_padded (Nat.le_trans hle h), Buffer.boundary_padded h]
    rw [Text.cut_error hle hb, Text.cut_error hle hpad]

/-- A slice depends on the source and its bounds only, not on where the cursor stands. -/
theorem slice_inSource (h : s.utf8ByteSize ≤ Buffer.maxLength) (hc : c.InSource s) :
    c.slice start stop =
      if s.utf8ByteSize < stop then .error .pastSource else Text.cut s start stop := by
  unfold slice
  rw [hc.buffer, Buffer.length_pad h]
  split
  · rfl
  · exact cut_padded (by omega)

theorem exists_slice_error_iff (h : s.utf8ByteSize ≤ Buffer.maxLength) (hc : c.InSource s) :
    (∃ fault, c.slice start stop = .error fault) ↔
      s.utf8ByteSize < stop ∨ stop < start ∨ ¬ Text.Boundary s start ∨ ¬ Text.Boundary s stop := by
  rw [slice_inSource h hc]
  by_cases hstop : s.utf8ByteSize < stop
  · rw [if_pos hstop]
    exact iff_of_true ⟨_, rfl⟩ (.inl hstop)
  · rw [if_neg hstop, Text.exists_cut_error_iff]
    simp only [hstop, false_or]

theorem slice_eq_ok (h : s.utf8ByteSize ≤ Buffer.maxLength) (hc : c.InSource s) {text : String}
    (ht : c.slice start stop = .ok text) : ∃ pre suf, s = pre ++ text ++ suf ∧
      start = pre.utf8ByteSize ∧ stop = start + text.utf8ByteSize := by
  rw [slice_inSource h hc] at ht
  split at ht
  · cases ht
  · exact Text.cut_eq_ok_iff.1 ht

end ExprLexer.Cursor
