/-
Runs of bytes with any property, from anywhere in a source. No run is compared with the length of
the source, and it need not be: where the byte at a position or, at the end of the source, a zero
lacks the property, the run ends at the least such position, and behind the source it ends nowhere,
since all that stands there are zeros like the one that has just been passed. So a property leads out
of the padded text just if a zero and all bytes that are left have it.
-/
import ExprLexer.Proofs.Source.Moves

namespace ExprLexer.Cursor

variable {s : String} {c d : Cursor} {p : UInt8 → Bool} {i q : Nat}

/-! ## The least end -/

/-- A run can end in a source unless a zero and all bytes that are left of it have the property. -/
theorem runEnds_nonempty_iff (hi : i ≤ s.utf8ByteSize) : (runEnds p s i).Nonempty ↔
    ¬ (p 0 = true ∧ ∀ b ∈ (Text.bytes s).drop i, p b = true) := by
  constructor
  · rintro ⟨q, hq, hle, hstop⟩ ⟨hzero, hleft⟩
    rcases Nat.eq_or_lt_of_le hle with rfl | hlt
    · rw [Text.getD_bytes_of_le le_rfl, hzero] at hstop
      cases hstop
    · have hlen : q < (Text.bytes s).length := by simpa using hlt
      have hmem : (Text.bytes s)[q] ∈ (Text.bytes s).drop i := by
        rw [List.mem_drop_iff_getElem]
        exact ⟨q - i, by omega, by simp only [Nat.add_sub_cancel' hq]⟩
      rw [List.getD_eq_getElem _ _ hlen, hleft _ hmem] at hstop
      cases hstop
  · rintro hnot
    rw [not_and_or] at hnot
    rcases hnot with hzero | hleft
    · exact ⟨_, size_mem_runEnds (by simpa using hzero) hi⟩
    · push Not at hleft
      obtain ⟨b, hb, hp⟩ := hleft
      obtain ⟨j, hj, rfl⟩ := List.getElem_of_mem hb
      have hlt : i + j < (Text.bytes s).length := by
        rw [List.length_drop] at hj
        omega
      refine ⟨i + j, Nat.le_add_right .., by simpa using Nat.le_of_lt hlt, ?_⟩
      rw [List.getD_eq_getElem _ _ hlt, ← List.getElem_drop (h := hj)]
      simpa using hp

theorem exists_isLeast_runEnds_iff (hi : i ≤ s.utf8ByteSize) : (∃ q, IsLeast (runEnds p s i) q) ↔
    ¬ (p 0 = true ∧ ∀ b ∈ (Text.bytes s).drop i, p b = true) := by
  rw [← runEnds_nonempty_iff hi]
  constructor
  · rintro ⟨q, hq, -⟩
    exact ⟨q, hq⟩
  · exact exists_isLeast_runEnds

/-! ## Where runs end -/

/-- The byte at a position of the padded text is that of the source, or a zero. -/
theorem eq_of_byte (hc : c.InSource s) {b : UInt8} (hb : c.buffer.byte i = .ok b) :
    b = (Text.bytes s).getD i 0 := by
  have hlt := Buffer.lt_size_of_byte hb
  rw [hc.buffer, Buffer.size_pad] at hlt
  rw [hc.buffer, Buffer.byte_pad hlt] at hb
  exact (Except.ok.inj hb).symm

/-- No run in the buffer of a source ends elsewhere. -/
theorem isLeast_of_endsRun (hc : c.InSource s) (h : EndsRun p c d) :
    IsLeast (runEnds p s c.pos) d.pos := by
  obtain ⟨-, hle, hpassed, x, hx, hstop⟩ := h
  have hbyte := eq_of_byte hc hx
  subst hbyte
  have hpassed' : ∀ i, c.pos ≤ i → i < d.pos → p ((Text.bytes s).getD i 0) = true := by
    intro i hi hlt
    obtain ⟨y, hy, hp⟩ := hpassed i hi hlt
    rwa [eq_of_byte hc hy] at hp
  have hend : d.pos ≤ s.utf8ByteSize := by
    by_contra hover
    -- the zero behind the source has been passed, so no other zero ends the run
    have hzero := hpassed' s.utf8ByteSize hc.pos_le (Nat.not_le.1 hover)
    rw [Text.getD_bytes_of_le le_rfl] at hzero
    rw [Text.getD_bytes_of_le (Nat.le_of_lt (Nat.not_le.1 hover)), hzero] at hstop
    cases hstop
  constructor
  · exact ⟨hle, hend, hstop⟩
  · rintro i ⟨hi, -, hp⟩
    by_contra hlt
    rw [hpassed' i hi (Nat.not_le.1 hlt)] at hp
    cases hp

theorem eatWhile_eq_ok_iff (h : s.utf8ByteSize ≤ Buffer.maxLength) (hc : c.InSource s) :
    c.eatWhile p = .ok d ↔ d.buffer = c.buffer ∧ IsLeast (runEnds p s c.pos) d.pos := by
  constructor
  · intro hd
    have hends := endsRun_of_eatWhile hd
    exact ⟨hends.buffer, isLeast_of_endsRun hc hends⟩
  · rintro ⟨hbuffer, hleast⟩
    have hd : d = { c with pos := d.pos } := congrArg (Cursor.mk · d.pos) hbuffer
    rw [hd]
    exact eatWhile_of_isLeast h (fun i hi => byte_inSource hc hi) hleast

theorem exists_eatWhile_error_iff (h : s.utf8ByteSize ≤ Buffer.maxLength) (hc : c.InSource s) :
    (∃ fault, c.eatWhile p = .error fault) ↔
      p 0 = true ∧ ∀ b ∈ (Text.bytes s).drop c.pos, p b = true := by
  rw [← not_iff_not, ← exists_isLeast_runEnds_iff hc.pos_le]
  constructor
  · intro hno
    cases hrun : c.eatWhile p with
    | error fault => exact absurd ⟨fault, hrun⟩ hno
    | ok d => exact ⟨d.pos, ((eatWhile_eq_ok_iff h hc).1 hrun).2⟩
  · rintro ⟨q, hq⟩ ⟨fault, hfault⟩
    have hrun := (eatWhile_eq_ok_iff (d := { c with pos := q }) h hc).2 ⟨rfl, hq⟩
    rw [hfault] at hrun
    cases hrun

/-- A run with any property fails just if a zero and all bytes that are left of the source have it.
Otherwise it ends in the source, at the least position whose byte lacks it, the end of the source
counting as a zero. Where a zero lacks it, that needs no more than the source and the zero behind
it, whatever the padding. -/
theorem eatWhile_ends (s : String) (h : s.utf8ByteSize ≤ Buffer.maxLength) :
    ∃ b, Buffer.ofText? s = .ok b ∧ ∀ (c : Cursor) (p : UInt8 → Bool), c.buffer = b →
      c.pos ≤ s.utf8ByteSize →
        ((∃ fault, c.eatWhile p = .error fault) ↔
          p 0 = true ∧ ∀ x ∈ (Text.bytes s).drop c.pos, p x = true) ∧
        (∀ d, c.eatWhile p = .ok d ↔ d.buffer = b ∧ IsLeast (runEnds p s c.pos) d.pos) ∧
        (p 0 = false → ∃ q, IsLeast (runEnds p s c.pos) q ∧ ∀ other : Buffer,
          (∀ i ≤ s.utf8ByteSize, other.byte i = .ok ((Text.bytes s).getD i 0)) →
            eatWhile p ⟨other, c.pos⟩ = .ok ⟨other, q⟩) := by
  refine ⟨_, Buffer.ofText?_eq h, ?_⟩
  rintro c p hbuf hle
  have hc : c.InSource s := ⟨hbuf, hle⟩
  refine ⟨exists_eatWhile_error_iff h hc, fun d => ?_, fun hzero => ?_⟩
  · rw [eatWhile_eq_ok_iff h hc, hbuf]
  · obtain ⟨q, hq⟩ := exists_isLeast_runEnds ⟨_, size_mem_runEnds hzero hle⟩
    exact ⟨q, hq, fun other hbytes => eatWhile_of_isLeast (c := ⟨other, c.pos⟩) h hbytes hq⟩

/-- A run of letters and zeros goes past a zero and stops at a comma; behind the comma it fails. A run
of letters ends at the end of the source also where letters stand in the padding. -/
theorem eatWhile_ends_zero :
    eatWhile (fun b => b = 0x61 || b = 0) ⟨Buffer.pad "a\x00,a", 0⟩ =
      .ok ⟨Buffer.pad "a\x00,a", 2⟩ ∧
    (∃ fault, eatWhile (fun b => b = 0x61 || b = 0) ⟨Buffer.pad "a\x00,a", 3⟩ = .error fault) ∧
    eatWhile (· = 0x61) ⟨⟨"a\x00,a\x00aa", 4, []⟩, 3⟩ = .ok ⟨⟨"a\x00,a\x00aa", 4, []⟩, 4⟩ := by
  have hs : "a\x00,a".utf8ByteSize ≤ Buffer.maxLength := by decide
  have hbytes : Text.bytes "a\x00,a" = [0x61, 0, 0x2C, 0x61] := by decide +kernel
  obtain ⟨b, hb, hruns⟩ := eatWhile_ends "a\x00,a" hs
  rw [Buffer.ofText?_eq hs] at hb
  cases hb
  refine ⟨?_, ?_, ?_⟩
  · obtain ⟨-, hok, -⟩ := hruns ⟨Buffer.pad "a\x00,a", 0⟩ (fun b => b = 0x61 || b = 0) rfl (by decide)
    rw [hok]
    refine ⟨rfl, ⟨by decide, by decide, by rw [hbytes]; rfl⟩, ?_⟩
    rintro i ⟨-, -, hp⟩
    rw [hbytes] at hp
    by_contra hlt
    obtain rfl | rfl : i = 0 ∨ i = 1 := by
      change ¬ 2 ≤ i at hlt
      omega
    all_goals cases hp
  · obtain ⟨herror, -, -⟩ :=
      hruns ⟨Buffer.pad "a\x00,a", 3⟩ (fun b => b = 0x61 || b = 0) rfl (by decide)
    rw [herror, hbytes]
    refine ⟨rfl, ?_⟩
    rintro x hx
    rw [List.mem_singleton.1 hx]
    rfl
  · obtain ⟨-, -, hother⟩ := hruns ⟨Buffer.pad "a\x00,a", 3⟩ (· = 0x61) rfl (by decide)
    obtain ⟨q, ⟨⟨hle, hend, hp⟩, -⟩, hrun⟩ := hother rfl
    rw [hbytes] at hp
    have hq : q = 4 := by
      have hne : q ≠ 3 := by
        rintro rfl
        cases hp
      change 3 ≤ q at hle
      change q ≤ 4 at hend
      omega
    subst hq
    exact hrun _ (by rw [hbytes]; decide +kernel)

end ExprLexer.Cursor
