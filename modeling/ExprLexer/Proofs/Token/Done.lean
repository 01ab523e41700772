/-
Whether anything is left. A user of a cursor can ask whether nothing but white space stands between
it and the end of the source, or ask for the next token and see that it is the end. Behind the white
space the first looks at the position, the second at the byte and then at the position. They agree
wherever the cursor stands, also inside a character, where there may be no next token at all, and
in front of zeros that belong to the source.
-/
import ExprLexer.Proofs.Source.Moves
import ExprLexer.Proofs.Token.Session

namespace ExprLexer

variable {s : String} {c d : Cursor} {t : Token} {p : UInt8 → Bool}

def spaceBytes : List UInt8 := [0x20, 0x09, 0x0A, 0x0B, 0x0C, 0x0D]

theorem isSpace_iff (b : UInt8) : isSpace b = true ↔ b ∈ spaceBytes := by
  simp only [isSpace, spaceBytes, Bool.or_eq_true, Bool.and_eq_true, decide_eq_true_eq,
    List.mem_cons, List.not_mem_nil, or_false, ← UInt8.toNat_inj, UInt8.le_iff_toNat_le,
    UInt8.reduceToNat]
  omega

/-! ## Kinds of tokens before the end -/

theorem Kind.ofPunctuation?_ne_eof {b : UInt8} {k : Kind} (h : Kind.ofPunctuation? b = some k) :
    k ≠ .eof := by
  unfold Kind.ofPunctuation? at h
  rintro rfl
  split at h <;> cases h

theorem Kind.ofKeyword?_ne_eof (text : String) : (Kind.ofKeyword? text).getD .ident ≠ .eof := by
  unfold Kind.ofKeyword?
  split <;> decide

namespace Cursor

/-- A token that is cut out is not the end if no text has that kind. -/
theorem tokenUpTo_ne_eof {kind : String → Kind} (hk : ∀ text, kind text ≠ .eof) {stop : Cursor}
    (ht : tokenUpTo c stop kind = .ok (t, d)) : t.kind ≠ .eof := by
  unfold tokenUpTo at ht
  cases hs : stop.sliceFrom c.pos with
  | error fault => simp [hs, bind, Except.bind] at ht
  | ok text =>
    rw [hs] at ht
    cases ht
    exact hk text

/-- Neither is the token up to where a move leads, if it leads anywhere. -/
theorem bind_tokenUpTo_ne_eof {kind : String → Kind} (hk : ∀ text, kind text ≠ .eof)
    {stop : Except Fault Cursor} (ht : (stop >>= fun stop => tokenUpTo c stop kind) = .ok (t, d)) :
    t.kind ≠ .eof := by
  cases stop with
  | error fault => cases ht
  | ok stop => exact tokenUpTo_ne_eof hk ht

/-- Before the end no token is the end, also where the byte at the cursor is a zero. -/
theorem tokenHere_ne_eof (hend : c.atEnd = false) (ht : c.tokenHere = .ok (t, d)) :
    t.kind ≠ .eof := by
  unfold tokenHere at ht
  cases hcur : c.current with
  | error fault => simp [hcur, bind, Except.bind] at ht
  | ok b =>
    rw [hcur] at ht
    change (if b = 0 && c.atEnd then _ else _) = _ at ht
    -- not at the end a zero is a character like any other
    rw [hend, Bool.and_false, if_neg Bool.false_ne_true] at ht
    split at ht
    · exact bind_tokenUpTo_ne_eof Kind.ofKeyword?_ne_eof ht
    split at ht
    · exact bind_tokenUpTo_ne_eof (fun _ => by decide) ht
    split at ht
    · rename_i kind hkind
      exact bind_tokenUpTo_ne_eof (fun _ => Kind.ofPunctuation?_ne_eof hkind) ht
    · exact bind_tokenUpTo_ne_eof (fun _ => by decide) ht

/-! ## The end behind white space -/

/-- A run comes to the end of the source just if all bytes that are left have its property. -/
theorem eatWhile_end (h : s.utf8ByteSize ≤ Buffer.maxLength) (hc : c.InSource s) (hp : p 0 = false) :
    ∃ d, c.eatWhile p = .ok d ∧ d.InSource s ∧
      (d.atEnd = true ↔ ∀ b ∈ (Text.bytes s).drop c.pos, p b = true) := by
  obtain ⟨k, hrun, hend, hall, hstop⟩ := eatWhile_inSource h hc hp
  have hin := hc.moved hend
  refine ⟨_, hrun, hin, ?_⟩
  rw [atEnd_eq_decide h hin, decide_eq_true_iff]
  constructor
  · intro hpos b hb
    change c.pos + k = s.utf8ByteSize at hpos
    obtain ⟨j, hj, rfl⟩ := List.getElem_of_mem hb
    have hlt : j < s.utf8ByteSize - c.pos := by simpa using hj
    rw [List.getElem_drop, ← List.getD_eq_getElem _ 0]
    exact hall j (by omega)
  · intro hleft
    by_contra hne
    have hlt : c.pos + k < (Text.bytes s).length := by
      rw [Text.length_bytes]
      exact Nat.lt_of_le_of_ne hend hne
    rw [List.getD_eq_getElem _ 0 hlt, ← Bool.not_eq_true] at hstop
    have hk : k < ((Text.bytes s).drop c.pos).length := by
      rw [List.length_drop]
      omega
    have hmem : (Text.bytes s)[c.pos + k] ∈ (Text.bytes s).drop c.pos := by
      rw [← List.getElem_drop (h := hk)]
      exact List.getElem_mem hk
    exact hstop (hleft _ hmem)

theorem tokenHere_eof_iff (h : s.utf8ByteSize ≤ Buffer.maxLength) (hc : c.InSource s) :
    (∃ t d, c.tokenHere = .ok (t, d) ∧ t.kind = .eof) ↔ c.atEnd = true := by
  constructor
  · rintro ⟨t, d, ht, hkind⟩
    by_contra hend
    exact tokenHere_ne_eof (Bool.eq_false_iff.2 hend) ht hkind
  · intro hend
    have hpos : c.pos = s.utf8ByteSize := by
      rwa [atEnd_eq_decide h hc, decide_eq_true_iff] at hend
    have hcur : c.current = .ok 0 := by
      rw [current_inSource hc, hpos, List.getD_eq_default _ _ (by simp)]
    refine ⟨⟨.eof, "", c.pos⟩, c, ?_, rfl⟩
    rw [tokenHere, hcur]
    show (if (0 : UInt8) = 0 && c.atEnd then _ else _) = _
    rw [hend]
    rfl

theorem next?_none_iff : (∃ d, c.next? = .ok (none, d)) ↔
    ∃ t d, c.next = .ok (t, d) ∧ t.kind = .eof := by
  unfold next?
  cases c.next with
  | error fault => simp [bind, Except.bind]
  | ok found =>
    obtain ⟨t, d⟩ := found
    simp [bind, Except.bind, pure, Except.pure, Token.isEof, Token.is]

/-- Wherever a cursor stands in a source, whether anything is left is answered, and the cursor stays
as it is. Nothing is left just if all bytes from the cursor on are white space, just if the next
token is the end, and just if there is none before the end. -/
theorem isDone_agrees (s : String) (h : s.utf8ByteSize ≤ Buffer.maxLength) :
    ∃ b, Buffer.ofText? s = .ok b ∧ ∀ c : Cursor, c.buffer = b → c.pos ≤ s.utf8ByteSize →
      ∃ done, c.isDone = .ok done ∧
        (∀ saved, Session.call ⟨c, saved⟩ .isDone = .ok (.flag done, ⟨c, saved⟩)) ∧
        (done = true ↔ ∀ x ∈ (Text.bytes s).drop c.pos, x ∈ spaceBytes) ∧
        (done = true ↔ ∃ t d, c.next = .ok (t, d) ∧ t.kind = .eof) ∧
        (done = true ↔ ∃ d, c.next? = .ok (none, d)) := by
  refine ⟨_, Buffer.ofText?_eq h, fun c hbuf hle => ?_⟩
  have hc : c.InSource s := ⟨hbuf, hle⟩
  obtain ⟨d, hd, hin, hend⟩ := eatWhile_end h hc (p := isSpace) rfl
  have hdone : c.isDone = .ok d.atEnd := by
    rw [isDone, eatSpace, hd]
    rfl
  have hnext : c.next = d.tokenHere := by
    rw [next, eatSpace, hd]
    rfl
  have heof : d.atEnd = true ↔ ∃ t d, c.next = .ok (t, d) ∧ t.kind = .eof := by
    rw [hnext]
    exact (tokenHere_eof_iff h hin).symm
  refine ⟨d.atEnd, hdone, fun saved => by rw [Session.call, hdone]; rfl, ?_, heof, ?_⟩
  · simpa only [isSpace_iff] using hend
  · exact heof.trans next?_none_iff.symm

/-- White space that ends a source, a zero in front of it, and the inside of a character. -/
theorem isDone_agrees_at :
    (∃ d, next? ⟨Buffer.pad "é\x00 \n", 3⟩ = .ok (none, d)) ∧
    (¬ ∃ t d, next ⟨Buffer.pad "é\x00 \n", 2⟩ = .ok (t, d) ∧ t.kind = .eof) ∧
    isDone ⟨Buffer.pad "é\x00 \n", 1⟩ = .ok false := by
  have hs : "é\x00 \n".utf8ByteSize ≤ Buffer.maxLength := by decide
  obtain ⟨b, hb, hall⟩ := isDone_agrees "é\x00 \n" hs
  rw [Buffer.ofText?_eq hs] at hb
  cases hb
  have hbytes : Text.bytes "é\x00 \n" = [0xC3, 0xA9, 0x00, 0x20, 0x0A] := by decide +kernel
  rw [hbytes] at hall
  constructor
  · obtain ⟨done, -, -, hleft, -, hnone⟩ := hall ⟨Buffer.pad "é\x00 \n", 3⟩ rfl (by decide)
    exact hnone.1 (hleft.2 (by simp [spaceBytes]))
  constructor
  · obtain ⟨done, -, -, hleft, heof, -⟩ := hall ⟨Buffer.pad "é\x00 \n", 2⟩ rfl (by decide)
    rw [← heof, hleft]
    simp [spaceBytes]
  · obtain ⟨done, hdone, -, hleft, -⟩ := hall ⟨Buffer.pad "é\x00 \n", 1⟩ rfl (by decide)
    have hfalse : ¬ done = true := by
      rw [hleft]
      simp [spaceBytes]
    rw [hdone, Bool.eq_false_iff.2 hfalse]

end Cursor

end ExprLexer
