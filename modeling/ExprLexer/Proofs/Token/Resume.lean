/-
Tokens from any position on. A cursor at a character boundary finds the tokens of what is left of
the source as if that were a source of its own, only further on. A cursor inside a character finds
none: the byte there belongs to no class, so the character at the cursor is asked for, and its text
cannot be cut out.
-/
import ExprLexer.Proofs.Source.Moves
import ExprLexer.Proofs.Token.Append

namespace ExprLexer

variable {s pre rest : String} {ts : List Token} {t : Token} {c d : Cursor} {b : UInt8} {n : Nat}

/-! ## Inside a character -/

theorem classes_of_le (h : 0x80 ≤ b.toNat) : isSpace b = false ∧ isLetter b = false ∧
    isDigit b = false ∧ Kind.ofPunctuation? b = none ∧ b ≠ 0 := by
  simp only [isSpace, isLetter, isDigit, Bool.or_eq_false_iff, Bool.and_eq_false_iff,
    decide_eq_false_iff_not, ne_eq, ← UInt8.toNat_inj, UInt8.le_iff_toNat_le, UInt8.reduceToNat]
  refine ⟨by omega, by omega, by omega, ?_, by omega⟩
  unfold Kind.ofPunctuation?
  split <;> first | rfl | omega

namespace Cursor

theorem slice_inside (h : s.utf8ByteSize ≤ Buffer.maxLength) (hc : c.InSource s) {i j : Nat}
    (hij : i ≤ j) (hj : j ≤ s.utf8ByteSize) (hin : ¬ Text.Boundary s i) :
    c.slice i j = .error .insideCharacter := by
  rw [slice_inSource h hc, if_neg (Nat.not_lt.2 hj), Text.cut_error hij fun hb => hin hb.1]

theorem next_inside (h : s.utf8ByteSize ≤ Buffer.maxLength) (hbuf : c.buffer = Buffer.pad s)
    (hle : c.pos ≤ s.utf8ByteSize) (hin : ¬ Text.Boundary s c.pos) :
    c.next = .error .insideCharacter := by
  have hc : c.InSource s := ⟨hbuf, hle⟩
  -- a byte from 128 on is in no class, so it is not skipped and a single character is asked for
  obtain ⟨b, hb, hlow, hhigh⟩ := Text.byte_inside hle hin
  have hlt : c.pos < s.utf8ByteSize := by simpa using (List.getElem?_eq_some_iff.1 hb).1
  have hbyte : (Text.bytes s).getD c.pos 0 = b := by rw [List.getD_eq_getElem?_getD, hb]; rfl
  have hcur : c.current = .ok b := by rw [current_inSource hc, hbyte]
  obtain ⟨hspace, hletter, hdigit, hmark, hzero⟩ := classes_of_le hlow
  have hstay : c.eatSpace = .ok c := by
    have hbound := Buffer.lt_bound h
    exact eatWhile_of_endsRun ((endsRun_iff_eq hcur hspace).2 rfl) (by omega)
  have hadvance := advanceChar_inside h hc hin
  have hslice : sliceFrom { c with pos := c.pos + 1 } c.pos = .error .insideCharacter :=
    slice_inside h (hc.moved hlt) (Nat.le_succ c.pos) hlt hin
  rw [next, hstay]
  show c.tokenHere = _
  rw [tokenHere, hcur]
  simp [bind, Except.bind, hzero, hletter, hdigit, hmark, hadvance, tokenUpTo, hslice]

/-! ## At a character boundary -/

theorem collect_eq (n : Nat) (c : Cursor) : collect n c =
    (drain n c).map fun found => (found.1.filter fun t => !t.isEof, found.2) := by
  -- both make the same calls, and differ in what they keep of the last
  induction n generalizing c with
  | zero => rfl
  | succ n ih =>
    rw [drain, collect, next?]
    cases c.next with
    | error fault => rfl
    | ok found =>
      obtain ⟨t, c'⟩ := found
      cases ht : t.isEof with
      | true => simp [bind, Except.bind, pure, Except.pure, Except.map, ht]
      | false =>
        cases hd : drain n c' <;>
          simp [bind, Except.bind, pure, Except.pure, Except.map, ht, ih, hd]

/-- A cursor between two halves of a source finds the tokens of the second, further on by the size
of the first. -/
theorem drain_between (h : (pre ++ rest).utf8ByteSize ≤ Buffer.maxLength) (hl : Lexes 0 rest ts)
    (hn : ts.length < n) : drain n (between pre rest) =
      .ok ((ts ++ [Token.mk .eof "" rest.utf8ByteSize]).map (Token.shift pre.utf8ByteSize),
        between (pre ++ rest) "") := by
  have hl' : Lexes pre.utf8ByteSize rest (ts.map (Token.shift pre.utf8ByteSize)) :=
    hl.shift pre.utf8ByteSize
  rw [drain_lexes hl' h (by simpa using hn)]
  simp [Token.shift]

/-- From wherever a cursor stands in a source, tokens are found just if it stands on a character
boundary. They are then those of what is left of the source, as they would be found in a buffer of
its own, further on by the position of the cursor, with the end and without. -/
theorem tokens_from (s : String) (h : s.utf8ByteSize ≤ Buffer.maxLength) :
    ∃ b, Buffer.ofText? s = .ok b ∧ ∀ c : Cursor, c.buffer = b → c.pos ≤ s.utf8ByteSize →
      (∀ pre rest, s = pre ++ rest → c.pos = pre.utf8ByteSize →
        ∃ left tokens, Buffer.ofText? rest = .ok left ∧ left.tokens = .ok tokens ∧
          tokens.length ≤ c.callsLeft ∧
          (∀ n, tokens.length ≤ n → drain n c =
            .ok (tokens.map (Token.shift c.pos), ⟨b, s.utf8ByteSize⟩)) ∧
          c.rest = .ok ((tokens.filter fun t => !t.isEof).map (Token.shift c.pos),
            ⟨b, s.utf8ByteSize⟩)) ∧
      (¬ Text.Boundary s c.pos →
        c.next = .error .insideCharacter ∧ c.next? = .error .insideCharacter) := by
  refine ⟨Buffer.pad s, Buffer.ofText?_eq h, fun c hbuf hle => ⟨fun pre rest hs hpos => ?_,
    fun hin => ?_⟩⟩
  · obtain rfl : c = between pre rest := by
      obtain ⟨buffer, pos⟩ := c
      subst hs hbuf hpos
      rfl
    subst hs
    obtain ⟨ts, hl⟩ := exists_lexes 0 rest
    have hrest : rest.utf8ByteSize ≤ Buffer.maxLength := by
      simp only [String.utf8ByteSize_append] at h
      omega
    have hlen : (ts ++ [Token.mk .eof "" rest.utf8ByteSize]).length ≤
        (between pre rest).callsLeft := by
      rw [List.length_append]
      exact hl.length_lt_callsLeft h
    have hend : between (pre ++ rest) "" =
        ⟨Buffer.pad (pre ++ rest), (pre ++ rest).utf8ByteSize⟩ := by
      simp [between]
    have hdrain : ∀ n, (ts ++ [Token.mk .eof "" rest.utf8ByteSize]).length ≤ n →
        drain n (between pre rest) = _ :=
      fun n hn => drain_between h hl (by simpa [Nat.succ_le_iff] using hn)
    refine ⟨Buffer.pad rest, _, Buffer.ofText?_eq hrest, Buffer.tokens_lexes hl hrest, hlen,
      fun n hn => by rw [hdrain n hn, hend]; rfl, ?_⟩
    rw [Cursor.rest, collect_eq, hdrain _ hlen, hend, Except.map, List.filter_map]
    rfl
  · have hnext := next_inside h hbuf hle hin
    exact ⟨hnext, by rw [next?, hnext]; rfl⟩

/-- A reserved word read from its middle on, and a cursor inside the character before it. -/
theorem tokens_from_middle :
    drain 2 ⟨Buffer.pad "éwith", 4⟩ =
      .ok ([⟨.ident, "th", 4⟩, ⟨.eof, "", 6⟩], ⟨Buffer.pad "éwith", 6⟩) ∧
    next ⟨Buffer.pad "éwith", 1⟩ = .error .insideCharacter := by
  have hs : "éwith".utf8ByteSize ≤ Buffer.maxLength := by decide
  obtain ⟨b, hb, hfrom⟩ := tokens_from "éwith" hs
  rw [Buffer.ofText?_eq hs] at hb
  cases hb
  constructor
  · obtain ⟨left, tokens, hleft, htokens, -, hdrain, -⟩ :=
      (hfrom ⟨Buffer.pad "éwith", 4⟩ rfl (by decide)).1 "éwi" "th" rfl (by decide)
    rw [Buffer.ofText?_eq (by decide)] at hleft
    cases hleft
    have hth : (Buffer.pad "th").tokens = .ok [⟨.ident, "th", 0⟩, ⟨.eof, "", 2⟩] := by
      decide +kernel
    rw [hth] at htokens
    cases htokens
    exact hdrain 2 (by decide)
  · have hin : ¬ Text.Boundary "éwith" 1 := by
      rw [← Text.isValid_iff_boundary]
      decide
    exact ((hfrom ⟨Buffer.pad "éwith", 1⟩ rfl (by decide)).2 hin).1

end Cursor

end ExprLexer
