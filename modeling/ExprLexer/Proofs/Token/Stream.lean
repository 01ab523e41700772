/-
The stream of tokens in characters. A cursor between two halves of a source finds the first token
of the second half and stops right after it; if the second half is white space it finds the end. So
the tokens of a source are those of a division of its characters, `Lexes`, which every text has.
-/
import ExprLexer.Proofs.Token.Spelling

namespace ExprLexer

namespace Cursor

variable {pre rest gap text s : String} {c : Char} {kind : Kind}

/-! ## One token -/

theorem tokenUpTo_between (h : (pre ++ (text ++ rest)).utf8ByteSize ≤ Buffer.maxLength)
    (kindOf : String → Kind) :
    tokenUpTo (between pre (text ++ rest)) (between (pre ++ text) rest) kindOf =
      .ok (⟨kindOf text, text, pre.utf8ByteSize⟩, between (pre ++ text) rest) := by
  unfold tokenUpTo
  rw [pos_between, sliceFrom_between (by rwa [String.append_assoc])]
  rfl

/-- Which token is read is decided by the character at the cursor. -/
theorem tokenHere_char (hs : s = String.singleton c ++ rest)
    (h : (pre ++ s).utf8ByteSize ≤ Buffer.maxLength) :
    (between pre s).tokenHere =
      if c.isAlpha then
        (between pre s).eatWhile isLetter >>= fun stop =>
          tokenUpTo (between pre s) stop fun text => (Kind.ofKeyword? text).getD .ident
      else if c.isDigit then
        (between pre s).eatWhile isDigit >>= fun stop =>
          tokenUpTo (between pre s) stop fun _ => .number
      else match Kind.ofPunctuation? (Text.firstByte c) with
        | some kind =>
          (between pre s).advance >>= fun stop => tokenUpTo (between pre s) stop fun _ => kind
        | none =>
          (between pre s).advanceChar >>= fun stop =>
            tokenUpTo (between pre s) stop fun _ => .unknown := by
  subst hs
  have hend : ¬ (decide (Text.firstByte c = 0) &&
      (between pre (String.singleton c ++ rest)).atEnd) = true := by
    rw [atEnd_char h, Bool.and_false]
    exact Bool.false_ne_true
  unfold tokenHere
  rw [current_char, ← byteClass_letter.first, ← byteClass_digit.first]
  exact if_neg hend

theorem ofKeyword?_getD (text : String) :
    (Kind.ofKeyword? text).getD .ident = Kind.ofWord text := by
  unfold Kind.ofKeyword? Kind.ofWord
  split <;> rfl

/-- At a legal spelling that the rest does not go on with, the token is that spelling. -/
theorem tokenHere_spelled (h : (pre ++ (text ++ rest)).utf8ByteSize ≤ Buffer.maxLength)
    (hs : kind.Spells text) (hrest : Stops kind.runsOn rest) :
    (between pre (text ++ rest)).tokenHere =
      .ok (⟨kind, text, pre.utf8ByteSize⟩, between (pre ++ text) rest) := by
  -- the first character decides how the token is read, and the class of a run where it ends
  rcases hs.cases with ⟨hk, hq, hne, hw⟩ | ⟨rfl, hne, hw⟩ | ⟨c, rfl, -, hm⟩
  · obtain ⟨c, t, ht, hc⟩ := exists_head hw hne
    rw [hq] at hrest
    rw [tokenHere_char (by rw [ht, String.append_assoc]) h, if_pos hc,
      eatWhile_between byteClass_letter h hw hrest]
    refine (tokenUpTo_between h _).trans ?_
    rw [ofKeyword?_getD, ← hk]
  · obtain ⟨c, t, ht, hc⟩ := exists_head hw hne
    rw [tokenHere_char (by rw [ht, String.append_assoc]) h,
      if_neg (by simp [not_isAlpha_of_isDigit hc]), if_pos hc,
      eatWhile_between byteClass_digit h hw hrest]
    exact tokenUpTo_between h _
  · rcases hm with ⟨hm, hk⟩ | ⟨hm, rfl⟩
    · obtain ⟨-, ha, hd, h1⟩ := isMark_cases hm
      rw [tokenHere_char rfl h, if_neg (by simp [ha]), if_neg (by simp [hd]), hk]
      dsimp only
      rw [advance_between h h1]
      exact tokenUpTo_between h _
    · obtain ⟨-, ha, hd, hm⟩ := isStray_iff.1 hm
      rw [tokenHere_char rfl h, if_neg (by simp [ha]), if_neg (by simp [hd]),
        Kind.ofPunctuation?_none hm]
      dsimp only
      rw [advanceChar_between h]
      exact tokenUpTo_between h _

theorem tokenHere_end (h : pre.utf8ByteSize ≤ Buffer.maxLength) :
    (between pre "").tokenHere = .ok (⟨.eof, "", pre.utf8ByteSize⟩, between pre "") := by
  have hend : (between pre "").atEnd = true := (atEnd_iff (by simpa using h)).2 rfl
  unfold tokenHere
  rw [current_end]
  simp [bind, Except.bind, hend, pure, Except.pure]

/-- The next token is the first token of the text at the cursor. -/
theorem next_lexeme (hl : Lexeme s gap kind text rest)
    (h : (pre ++ s).utf8ByteSize ≤ Buffer.maxLength) :
    (between pre s).next = .ok (⟨kind, text, pre.utf8ByteSize + gap.utf8ByteSize⟩,
      between (pre ++ gap ++ text) rest) := by
  obtain ⟨rfl, hgap, hs, hrest⟩ := hl
  obtain ⟨c, t, ht, hc⟩ := hs.head
  rw [String.append_assoc] at h ⊢
  have hstop : Stops isBlank (text ++ rest) := by
    rw [stops_append hs.ne_empty, ht, stops_singleton_append, hc]
  rw [← String.utf8ByteSize_append, next, eatSpace_between h hgap hstop]
  exact tokenHere_spelled (by rwa [String.append_assoc]) hs hrest

/-- If white space is left, the next token is the end. -/
theorem next_blank (hs : Blank s) (h : (pre ++ s).utf8ByteSize ≤ Buffer.maxLength) :
    (between pre s).next = .ok (⟨.eof, "", (pre ++ s).utf8ByteSize⟩, between (pre ++ s) "") := by
  have h' : (pre ++ (s ++ "")).utf8ByteSize ≤ Buffer.maxLength := by simpa using h
  have heat := eatSpace_between h' hs (by simp)
  rw [String.append_empty] at heat
  rw [next, heat]
  exact tokenHere_end h

end Cursor

/-! ## All tokens -/

/-- The tokens that a text at a position divides into, its end left out. -/
inductive Lexes : Nat → String → List Token → Prop
  | blank {start : Nat} {s : String} : Blank s → Lexes start s []
  | token {start : Nat} {s gap text rest : String} {kind : Kind} {ts : List Token} :
      Lexeme s gap kind text rest →
      Lexes (start + gap.utf8ByteSize + text.utf8ByteSize) rest ts →
      Lexes start s (⟨kind, text, start + gap.utf8ByteSize⟩ :: ts)

theorem Lexeme.size {s gap text rest : String} {kind : Kind} (h : Lexeme s gap kind text rest) :
    s.utf8ByteSize = gap.utf8ByteSize + text.utf8ByteSize + rest.utf8ByteSize ∧
      0 < text.utf8ByteSize := by
  rw [h.source]
  refine ⟨by simp, ?_⟩
  rw [Nat.pos_iff_ne_zero, ne_eq, String.utf8ByteSize_eq_zero_iff]
  exact h.spelled.ne_empty

/-- Every text has a division. -/
theorem exists_lexes (start : Nat) (s : String) : ∃ ts, Lexes start s ts := by
  induction hn : s.utf8ByteSize using Nat.strongRecOn generalizing start s with
  | ind n ih =>
    rcases blank_or_lexeme s with h | ⟨gap, kind, text, rest, h⟩
    · exact ⟨[], .blank h⟩
    · have := h.size
      obtain ⟨ts, hts⟩ := ih rest.utf8ByteSize (by omega)
        (start + gap.utf8ByteSize + text.utf8ByteSize) rest rfl
      exact ⟨_, .token h hts⟩

/-- A text that starts with no white space has its first token in front. -/
theorem Lexes.head {start : Nat} {s : String} {ts : List Token} {d : Char} (h : Lexes start s ts)
    (hd : s.toList.head? = some d) (hb : isBlank d = false) :
    ∃ kind text rest ts', Lexeme s "" kind text rest ∧ text.toList.head? = some d ∧
      ts = ⟨kind, text, start⟩ :: ts' ∧ Lexes (start + text.utf8ByteSize) rest ts' := by
  cases h with
  | blank h =>
    rw [h d (List.mem_of_mem_head? hd)] at hb
    cases hb
  | @token _ _ gap text rest kind ts' hl hts =>
    have hgap : gap = "" := by
      refine eq_empty_of_within_of_stops hl.blank fun c hc => ?_
      rw [hl.source, String.append_assoc, String.toList_append, List.head?_append, hc] at hd
      cases hd
      exact hb
    subst hgap
    obtain ⟨c, t, ht, -⟩ := hl.spelled.head
    have hc : text.toList.head? = some d := by
      rw [hl.source, ht] at hd
      rw [ht]
      simpa using hd
    exact ⟨kind, text, rest, ts', hl, hc, by simp, by simpa using hts⟩

theorem Lexes.length_le {start : Nat} {s : String} {ts : List Token} (h : Lexes start s ts) :
    ts.length ≤ s.utf8ByteSize := by
  induction h with
  | blank _ => simp
  | token hl _ ih =>
    have := hl.size
    simp only [List.length_cons]; omega

/-- A token takes a byte at least, so there are more calls than tokens. -/
theorem Lexes.length_lt_callsLeft {start : Nat} {pre rest : String} {ts : List Token}
    (hl : Lexes start rest ts) (h : (pre ++ rest).utf8ByteSize ≤ Buffer.maxLength) :
    ts.length < (Cursor.between pre rest).callsLeft := by
  have := hl.length_le
  rw [Cursor.callsLeft, Cursor.buffer_between, Cursor.pos_between, Buffer.length_pad h,
    String.utf8ByteSize_append]
  omega

theorem Token.isEof_eq_false_iff {t : Token} : t.isEof = false ↔ t.kind ≠ .eof := by
  simp [isEof, is]

theorem Lexes.ne_eof {start : Nat} {s : String} {ts : List Token} (h : Lexes start s ts) :
    ∀ t ∈ ts, t.kind ≠ .eof := by
  induction h with
  | blank _ => simp
  | token hl _ ih => simpa using ⟨hl.spelled.ne_eof, ih⟩

/-- With calls enough, reading to the end gives a division of what is left, and the end. -/
theorem Cursor.drain_lexes {pre s : String} {ts : List Token} {n : Nat}
    (hl : Lexes pre.utf8ByteSize s ts) (h : (pre ++ s).utf8ByteSize ≤ Buffer.maxLength)
    (hn : ts.length < n) : drain n (between pre s) =
      .ok (ts ++ [⟨.eof, "", (pre ++ s).utf8ByteSize⟩], between (pre ++ s) "") := by
  generalize hp : pre.utf8ByteSize = p at hl
  induction hl generalizing pre n with
  | blank hs =>
    obtain ⟨n, rfl⟩ : ∃ m, n = m + 1 := ⟨n - 1, by omega⟩
    rw [drain, next_blank hs h]
    rfl
  | @token start s gap text rest kind ts hl _ ih =>
    obtain ⟨n, rfl⟩ : ∃ m, n = m + 1 := ⟨n - 1, by omega⟩
    have hs : pre ++ s = pre ++ gap ++ text ++ rest := by rw [hl.source]; simp [String.append_assoc]
    have hk := hl.spelled.ne_eof
    have hn' : ts.length < n := by simpa using hn
    -- one call passes the first token, and the calls that are left are enough for the rest
    have := ih (by rwa [← hs]) hn' (by simp [hp])
    rw [drain, next_lexeme hl h]
    simp [bind, Except.bind, Token.isEof, Token.is, hk, this, pure, Except.pure, hs, hp]

/-- What the tokens that are left begin with: the end, or a token that the others come after. -/
theorem Cursor.drain_cases {n : Nat} {c c' : Cursor} {ts : List Token}
    (h : c.drain (n + 1) = .ok (ts, c')) :
    ∃ t d, c.next = .ok (t, d) ∧ (t.isEof = true ∧ ts = [t] ∨
      t.isEof = false ∧ ∃ us, d.drain n = .ok (us, c') ∧ ts = t :: us) := by
  rw [drain] at h
  cases hn : c.next with
  | error e =>
    rw [hn] at h
    cases h
  | ok p =>
    rw [hn] at h
    simp only [bind, Except.bind] at h
    refine ⟨p.1, p.2, rfl, ?_⟩
    split at h
    · cases h
      exact .inl ⟨‹_›, rfl⟩
    · cases hrest : p.2.drain n with
      | error e =>
        rw [hrest] at h
        cases h
      | ok q =>
        rw [hrest] at h
        cases h
        exact .inr ⟨Bool.eq_false_iff.2 ‹_›, q.1, rfl, rfl⟩

/-- The tokens of a source are those of its division, and the end. -/
theorem Buffer.tokens_lexes {s : String} {ts : List Token} (hl : Lexes 0 s ts)
    (h : s.utf8ByteSize ≤ maxLength) :
    (pad s).tokens = .ok (ts ++ [⟨.eof, "", s.utf8ByteSize⟩]) := by
  have hl' : Lexes "".utf8ByteSize s ts := by simpa using hl
  have hn : ts.length < (Cursor.between "" s).callsLeft := hl.length_lt_callsLeft (by simpa using h)
  have hd := Cursor.drain_lexes hl' (by simpa using h) hn
  unfold tokens
  rw [cursor_pad h]
  simp only [bind, Except.bind]
  rw [hd]
  simp [pure, Except.pure]

end ExprLexer
