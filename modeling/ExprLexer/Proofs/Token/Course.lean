/-
The course of a session. In whatever way tokens are asked for and however often a user goes back,
all that matters is how many have been taken: it gives the position, the next token and all that are
left. After the end has been found it is found again and again, where the source ends.
-/
import ExprLexer.Proofs.Token.Session

namespace ExprLexer

variable {s : String} {ts : List Token} {c : Cursor} {j : Nat}

/-! ## How many tokens there are -/

/-- There is a character that is not white space in every token. -/
theorem Lexes.length_le_countP {start : Nat} (h : Lexes start s ts) :
    ts.length ≤ s.toList.countP (!isBlank ·) := by
  induction h with
  | blank _ => exact Nat.zero_le _
  | @token start s gap text rest kind ts hl _ ih =>
    obtain ⟨d, t, ht, hd⟩ := hl.spelled.head
    have htext : 0 < text.toList.countP (!isBlank ·) :=
      List.countP_pos_iff.2 ⟨d, by simp [ht], by simp [hd]⟩
    rw [hl.source, String.toList_append, String.toList_append, List.countP_append,
      List.countP_append, List.length_cons]
    omega

theorem Lexes.blank_iff {start : Nat} (h : Lexes start s ts) : Blank s ↔ ts = [] := by
  cases h with
  | blank hb => simp [hb]
  | token hl _ =>
    obtain ⟨d, t, ht, hd⟩ := hl.spelled.head
    simp only [reduceCtorEq, iff_false]
    intro hb
    have := hb d (by simp [hl.source, ht])
    rw [hd] at this
    cases this

/-! ## Cursors that have passed tokens -/

namespace Cursor

/-- The token after the first `j` of a source: one of its tokens, or the end. -/
def tokenAt (s : String) (ts : List Token) (j : Nat) : Token :=
  ts.getD j ⟨.eof, "", s.utf8ByteSize⟩

/-- Where the last of the first `j` tokens ends. -/
def endAt (s : String) (ts : List Token) : Nat → Nat
  | 0 => 0
  | j + 1 => (tokenAt s ts j).offset + (tokenAt s ts j).text.utf8ByteSize

theorem tokenAt_end (hj : ts.length ≤ j) : tokenAt s ts j = ⟨.eof, "", s.utf8ByteSize⟩ := by
  rw [tokenAt, List.getD_eq_getElem?_getD, List.getElem?_eq_none hj]
  rfl

theorem getElem?_tokenAt (s : String) (ts : List Token) (j : Nat) :
    (ts ++ [Token.mk .eof "" s.utf8ByteSize])[min j ts.length]? = some (tokenAt s ts j) := by
  rw [tokenAt, List.getD_eq_getElem?_getD]
  rcases Nat.lt_or_ge j ts.length with hj | hj
  · rw [Nat.min_eq_left (by omega), List.getElem?_append_left hj, List.getElem?_eq_getElem hj]
    rfl
  · rw [Nat.min_eq_right hj, List.getElem?_eq_none hj]
    simp

/-- A cursor that stands in a source behind its first `j` tokens. -/
structure Passed (s : String) (ts : List Token) (j : Nat) (c : Cursor) : Prop where
  split : ∃ pre rest, s = pre ++ rest ∧ c = between pre rest ∧
    Lexes pre.utf8ByteSize rest (ts.drop j)
  pos : c.pos = endAt s ts j

theorem passed_start (hl : Lexes 0 s ts) : Passed s ts 0 (between "" s) :=
  ⟨⟨"", s, by simp, rfl, by simpa using hl⟩, rfl⟩

/-- A call takes the next token, whichever it is. -/
theorem next_passed (h : s.utf8ByteSize ≤ Buffer.maxLength) (hc : Passed s ts j c) :
    ∃ c', c.next = .ok (tokenAt s ts j, c') ∧ Passed s ts (j + 1) c' := by
  obtain ⟨pre, rest, rfl, rfl, hl⟩ := hc.split
  generalize hd : ts.drop j = us at hl
  -- white space is left only when all tokens have been passed; else the next one heads what is left
  cases hl with
  | blank hb =>
    have hlen : ts.length ≤ j := List.drop_eq_nil_iff.1 hd
    have ht : tokenAt (pre ++ rest) ts j = ⟨.eof, "", (pre ++ rest).utf8ByteSize⟩ :=
      tokenAt_end hlen
    refine ⟨between (pre ++ rest) "", by rw [ht, next_blank hb h],
      ⟨pre ++ rest, "", by simp, rfl, ?_⟩, ?_⟩
    · rw [List.drop_eq_nil_of_le (by omega)]
      exact .blank within_empty
    · simp [endAt, ht]
  | @token _ _ gap text rest' kind us hl hus =>
    have ht : tokenAt (pre ++ rest) ts j =
        ⟨kind, text, pre.utf8ByteSize + gap.utf8ByteSize⟩ := by
      rw [tokenAt, List.getD_eq_getElem?_getD, ← List.head?_drop, hd]
      rfl
    have hsource : pre ++ rest = pre ++ gap ++ text ++ rest' := by
      rw [hl.source]
      simp only [String.append_assoc]
    refine ⟨between (pre ++ gap ++ text) rest', by rw [ht, next_lexeme hl h],
      ⟨pre ++ gap ++ text, rest', hsource, rfl, ?_⟩, ?_⟩
    · rw [← List.tail_drop, hd]
      simpa using hus
    · simp [endAt, ht]

theorem next?_passed (h : s.utf8ByteSize ≤ Buffer.maxLength) (hts : ∀ t ∈ ts, t.kind ≠ .eof)
    (hc : Passed s ts j c) : ∃ c', c.next? = .ok (ts[j]?, c') ∧ Passed s ts (j + 1) c' := by
  obtain ⟨c', hn, hc'⟩ := next_passed h hc
  refine ⟨c', ?_, hc'⟩
  have ht : (if (tokenAt s ts j).isEof then none else some (tokenAt s ts j)) = ts[j]? := by
    rw [tokenAt, List.getD_eq_getElem?_getD]
    cases hj : ts[j]? with
    | none => rfl
    | some t =>
      have ht := Token.isEof_eq_false_iff.2 (hts t (List.mem_of_getElem? hj))
      simp [ht]
  rw [next?, hn, ← ht]
  rfl

/-- With calls enough, all tokens are taken that are left, and then the end. -/
theorem collect_passed (h : s.utf8ByteSize ≤ Buffer.maxLength) (hts : ∀ t ∈ ts, t.kind ≠ .eof)
    {n : Nat} (hn : ts.length - j < n) (hc : Passed s ts j c) :
    ∃ c', collect n c = .ok (ts.drop j, c') ∧ Passed s ts (j + ((ts.drop j).length + 1)) c' := by
  induction n generalizing j c with
  | zero => omega
  | succ n ih =>
    obtain ⟨c', hnext, hc'⟩ := next?_passed h hts hc
    rw [collect, hnext]
    cases hj : ts[j]? with
    | none =>
      rw [List.drop_eq_nil_of_le (List.getElem?_eq_none_iff.1 hj)]
      exact ⟨c', rfl, hc'⟩
    | some t =>
      obtain ⟨hlt, rfl⟩ := List.getElem?_eq_some_iff.1 hj
      obtain ⟨d, hcol, hd⟩ := ih (by omega) hc'
      rw [List.drop_eq_getElem_cons hlt]
      refine ⟨d, by simp [bind, Except.bind, hcol, pure, Except.pure], ?_⟩
      rwa [List.length_cons, show j + ((ts.drop (j + 1)).length + 1 + 1) =
        j + 1 + ((ts.drop (j + 1)).length + 1) by omega]

theorem rest_passed (h : s.utf8ByteSize ≤ Buffer.maxLength) (hts : ∀ t ∈ ts, t.kind ≠ .eof)
    (hc : Passed s ts j c) : ∃ c', c.rest = .ok (ts.drop j, c') ∧
      Passed s ts (j + ((ts.drop j).length + 1)) c' := by
  obtain ⟨pre, rest, rfl, rfl, hl⟩ := hc.split
  have hlen := hl.length_lt_callsLeft h
  rw [List.length_drop] at hlen
  exact collect_passed h hts hlen hc

theorem isDone_passed (h : s.utf8ByteSize ≤ Buffer.maxLength) (hc : Passed s ts j c) :
    c.isDone = .ok (decide (ts.length ≤ j)) := by
  obtain ⟨pre, rest, rfl, rfl, hl⟩ := hc.split
  obtain ⟨b, hb, hblank⟩ := isDone_between h
  rw [hb, Bool.eq_iff_iff.2 (hblank.trans (hl.blank_iff.trans ?_))]
  rw [List.drop_eq_nil_iff, decide_eq_true_iff]

end Cursor

/-! ## Counting -/

/-- How many tokens have been taken up to the cursor of a session, and up to those it keeps. -/
structure Tally where
  count : Nat
  saved : List Nat

def Answer.taken : Answer → Nat
  | token _ => 1
  | item _ => 1
  | items ts => ts.length + 1
  | flag _ | none => 0

namespace Tally

/-- The tally after a call. Going back brings back the count of the cursor that was kept. -/
def after (k : Tally) : Call → Answer → Tally
  | .save, _ => { k with saved := k.count :: k.saved }
  | .restore i, _ => { k with count := k.saved.getD i k.count }
  | .next, a | .next?, a | .rest, a | .isDone, a => { k with count := k.count + a.taken }

def afterAll (k : Tally) : List Call → List Answer → Tally
  | x :: xs, a :: as => (k.after x a).afterAll xs as
  | _, _ => k

end Tally

/-- All cursors of a session have passed as many tokens as its tally says. -/
structure Session.Tallied (s : String) (ts : List Token) (k : Tally) (w : Session) : Prop where
  cursor : w.cursor.Passed s ts k.count
  saved : List.Forall₂ (Cursor.Passed s ts) k.saved w.saved

def Answer.Closes : Answer → Prop
  | token t => t.kind = .eof
  | item t => t = .none
  | items _ => True
  | flag _ | none => False

/-- An answer that has nothing to give but the end of a source. -/
def Answer.Ends (s : String) : Answer → Prop
  | token t => t = ⟨.eof, "", s.utf8ByteSize⟩
  | item t => t = .none
  | items ts => ts = []
  | flag _ | none => True

namespace Session

variable {w : Session} {k : Tally}

theorem getD_passed {counts : List Nat} {cursors : List Cursor} (hc : c.Passed s ts j)
    (h : List.Forall₂ (Cursor.Passed s ts) counts cursors) (i : Nat) :
    (cursors.getD i c).Passed s ts (counts.getD i j) := by
  induction h generalizing i with
  | nil => simpa using hc
  | cons h _ ih =>
    cases i with
    | zero => simpa using h
    | succ i => simpa using ih i

def answerAt (s : String) (ts : List Token) (j : Nat) : Call → Answer
  | .next => .token (Cursor.tokenAt s ts j)
  | .next? => .item ts[j]?
  | .rest => .items (ts.drop j)
  | .isDone => .flag (ts.length ≤ j)
  | .save | .restore _ => .none

/-- A call is answered by the tally before it, and leads to the tally after it. -/
theorem call_tallied (h : s.utf8ByteSize ≤ Buffer.maxLength) (hts : ∀ t ∈ ts, t.kind ≠ .eof)
    (hw : w.Tallied s ts k) (x : Call) : ∃ w', w.call x = .ok (answerAt s ts k.count x, w') ∧
      w'.Tallied s ts (k.after x (answerAt s ts k.count x)) := by
  cases x with
  | next =>
    obtain ⟨c, hn, hc⟩ := Cursor.next_passed h hw.cursor
    exact ⟨⟨c, w.saved⟩, by rw [call, hn]; rfl, hc, hw.saved⟩
  | next? =>
    obtain ⟨c, hn, hc⟩ := Cursor.next?_passed h hts hw.cursor
    exact ⟨⟨c, w.saved⟩, by rw [call, hn]; rfl, hc, hw.saved⟩
  | rest =>
    obtain ⟨c, hn, hc⟩ := Cursor.rest_passed h hts hw.cursor
    exact ⟨⟨c, w.saved⟩, by rw [call, hn]; rfl, hc, hw.saved⟩
  | isDone => exact ⟨w, by rw [call, Cursor.isDone_passed h hw.cursor]; rfl, hw⟩
  | save => exact ⟨_, rfl, hw.cursor, .cons hw.cursor hw.saved⟩
  | restore i => exact ⟨_, rfl, getD_passed hw.cursor hw.saved i, hw.saved⟩

theorem mem_of_mem_answerAt {x : Call} {t : Token} (ht : t ∈ (answerAt s ts j x).tokens) :
    t ∈ ts ++ [⟨.eof, "", s.utf8ByteSize⟩] := by
  cases x with
  | next =>
    rw [List.mem_singleton.1 ht]
    exact List.mem_of_getElem? (Cursor.getElem?_tokenAt s ts j)
  | next? =>
    exact List.mem_append_left _ (List.mem_of_getElem? (Option.mem_toList.1 ht))
  | rest => exact List.mem_append_left _ (List.mem_of_mem_drop ht)
  | isDone => cases ht
  | save => cases ht
  | restore i => cases ht

theorem tallied_start (hl : Lexes 0 s ts) : Tallied s ts ⟨0, []⟩ ⟨.between "" s, []⟩ :=
  ⟨Cursor.passed_start hl, .nil⟩

/-- Every session comes to its end, with a cursor that the tally tells and tokens of the source. -/
theorem run_tallied (h : s.utf8ByteSize ≤ Buffer.maxLength) (hts : ∀ t ∈ ts, t.kind ≠ .eof)
    (hw : w.Tallied s ts k) (xs : List Call) :
    ∃ as w', w.run xs = .ok (as, w') ∧ w'.Tallied s ts (k.afterAll xs as) ∧
      ∀ t ∈ as.flatMap Answer.tokens, t ∈ ts ++ [⟨.eof, "", s.utf8ByteSize⟩] := by
  induction xs generalizing w k with
  | nil => exact ⟨[], w, rfl, hw, nofun⟩
  | cons x xs ih =>
    obtain ⟨w₁, hx, hw₁⟩ := call_tallied h hts hw x
    obtain ⟨as, w₂, hxs, hw₂, has⟩ := ih hw₁
    refine ⟨_, w₂, run_cons hx hxs, hw₂, fun t ht => ?_⟩
    rw [List.flatMap_cons] at ht
    exact (List.mem_append.1 ht).elim mem_of_mem_answerAt (has t)

/-! ## After the end -/

theorem lt_count_of_closes (hts : ∀ t ∈ ts, t.kind ≠ .eof) {x : Call}
    (hx : (answerAt s ts k.count x).Closes) :
    ts.length < (k.after x (answerAt s ts k.count x)).count := by
  cases x with
  | next =>
    have hlen : ts.length ≤ k.count := by
      by_contra hlt
      have hget : ts[k.count]? = some ts[k.count] := List.getElem?_eq_getElem (by omega)
      have hk : (Cursor.tokenAt s ts k.count).kind = .eof := hx
      rw [Cursor.tokenAt, List.getD_eq_getElem?_getD, hget] at hk
      exact hts _ (List.getElem_mem _) hk
    exact Nat.lt_succ_of_le hlen
  | next? =>
    have hlen : ts.length ≤ k.count := List.getElem?_eq_none_iff.1 hx
    exact Nat.lt_succ_of_le hlen
  | rest =>
    simp only [Tally.after, answerAt, Answer.taken, List.length_drop]
    omega
  | isDone => cases hx
  | save => cases hx
  | restore i => cases hx

/-- From then on nothing but the end is found, unless the user goes back. -/
theorem run_ended (h : s.utf8ByteSize ≤ Buffer.maxLength) (hts : ∀ t ∈ ts, t.kind ≠ .eof)
    (hw : w.Tallied s ts k) (hk : ts.length < k.count) (xs : List Call)
    (hx : ∀ i, .restore i ∉ xs) :
    ∃ as w', w.run xs = .ok (as, w') ∧ (∀ a ∈ as, a.Ends s) ∧ w'.cursor.pos = s.utf8ByteSize := by
  -- with more taken than there are tokens, a call finds the end and leaves it so
  induction xs generalizing w k with
  | nil =>
    obtain ⟨i, hi⟩ : ∃ i, k.count = i + 1 := ⟨k.count - 1, by omega⟩
    refine ⟨[], w, rfl, nofun, ?_⟩
    rw [hw.cursor.pos, hi, Cursor.endAt, Cursor.tokenAt_end (by omega)]
    simp
  | cons x xs ih =>
    obtain ⟨w₁, hcall, hw₁⟩ := call_tallied h hts hw x
    have hstep : (answerAt s ts k.count x).Ends s ∧
        ts.length < (k.after x (answerAt s ts k.count x)).count := by
      cases x with
      | next => exact ⟨Cursor.tokenAt_end (by omega), Nat.lt_succ_of_lt hk⟩
      | next? => exact ⟨List.getElem?_eq_none (by omega), Nat.lt_succ_of_lt hk⟩
      | rest => exact ⟨List.drop_eq_nil_of_le (by omega), Nat.lt_add_right _ hk⟩
      | isDone => exact ⟨trivial, hk⟩
      | save => exact ⟨trivial, hk⟩
      | restore i => exact absurd (List.mem_cons_self ..) (hx i)
    obtain ⟨as, w₂, hxs, has, hpos⟩ := ih hw₁ hstep.2 fun i hi => hx i (List.mem_cons_of_mem _ hi)
    refine ⟨_, w₂, run_cons hcall hxs, ?_, hpos⟩
    rintro a (_ | ⟨_, ha⟩)
    exacts [hstep.1, has a ha]

end Session

/-! ## Whole sessions -/

/-- A cursor behind the first `j` tokens of a stream whose last token is the end, which is never
passed: where the cursor is, and what comes next. -/
structure Cursor.At (T : List Token) (j : Nat) (c : Cursor) : Prop where
  start : j = 0 → c.pos = 0
  pos : 0 < j → ∃ t start, T[min j T.length - 1]? = some t ∧ t.span = .ok (start, c.pos)
  next : ∃ t c', T[min j (T.length - 1)]? = some t ∧ c.next = .ok (t, c')
  next? : ∃ t c', T[min j (T.length - 1)]? = some t ∧
    c.next? = .ok (if t.kind = .eof then none else some t, c')
  rest : ∃ c', c.rest = .ok (T.dropLast.drop j, c')

theorem Cursor.Passed.at (h : s.utf8ByteSize ≤ Buffer.maxLength) (hl : Lexes 0 s ts)
    (hc : c.Passed s ts j) : c.At (ts ++ [⟨.eof, "", s.utf8ByteSize⟩]) j := by
  have hlen : (ts ++ [Token.mk .eof "" s.utf8ByteSize]).length = ts.length + 1 := by simp
  have hget := getElem?_tokenAt s ts
  constructor
  case start =>
    rintro rfl
    exact hc.pos
  case pos =>
    intro hj
    obtain ⟨i, rfl⟩ : ∃ i, j = i + 1 := ⟨j - 1, by omega⟩
    have hi := hget i
    refine ⟨tokenAt s ts i, (tokenAt s ts i).offset, ?_, ?_⟩
    · rwa [hlen, show min (i + 1) (ts.length + 1) - 1 = min i ts.length by omega]
    · rw [hc.pos]
      exact Token.span_stands h (hl.stands _ (List.mem_of_getElem? hi))
  case next =>
    obtain ⟨c', hn, -⟩ := next_passed h hc
    exact ⟨_, c', by rw [hlen]; exact hget j, hn⟩
  case next? =>
    obtain ⟨c', hn, -⟩ := next_passed h hc
    refine ⟨_, c', by rw [hlen]; exact hget j, ?_⟩
    rw [Cursor.next?, hn]
    simp [bind, Except.bind, pure, Except.pure, Token.isEof, Token.is]
  case rest =>
    obtain ⟨c', hr, -⟩ := rest_passed h hl.ne_eof hc
    exact ⟨c', by rw [hr, List.dropLast_concat]⟩

/-- Whatever calls are made in whatever order, the number of tokens taken decides where the cursor
is and what every way of asking gives next. When the end has been found, nothing else is found by
more calls, unless the user goes back. No source has more tokens than characters that are not
white space. -/
theorem Session.run_course (s : String) (h : s.utf8ByteSize ≤ Buffer.maxLength) :
    ∃ b c ts, Buffer.ofText? s = .ok b ∧ b.cursor = .ok c ∧
      b.tokens = .ok (ts ++ [⟨.eof, "", s.utf8ByteSize⟩]) ∧ (∀ t ∈ ts, t.kind ≠ .eof) ∧
      ts.length ≤ s.toList.countP (!isBlank ·) ∧
      ∀ calls, ∃ answers w, run ⟨c, []⟩ calls = .ok (answers, w) ∧
        w.cursor.At (ts ++ [⟨.eof, "", s.utf8ByteSize⟩])
          (Tally.afterAll ⟨0, []⟩ calls answers).count ∧
        ∀ x a w', w.call x = .ok (a, w') → a.Closes →
          ∀ more, (∀ i, .restore i ∉ more) → ∃ as last, w'.run more = .ok (as, last) ∧
            (∀ a ∈ as, a.Ends s) ∧ last.cursor.pos = s.utf8ByteSize := by
  obtain ⟨ts, hl⟩ := exists_lexes 0 s
  refine ⟨_, _, ts, Buffer.ofText?_eq h, Buffer.cursor_pad h, Buffer.tokens_lexes hl h, hl.ne_eof,
    hl.length_le_countP, fun calls => ?_⟩
  obtain ⟨answers, w, hrun, hw, -⟩ := run_tallied h hl.ne_eof (tallied_start hl) calls
  refine ⟨answers, w, hrun, hw.cursor.at h hl, fun x a w' hcall hclose more hmore => ?_⟩
  obtain ⟨w₁, hx, hw₁⟩ := call_tallied h hl.ne_eof hw x
  rw [hx] at hcall
  cases hcall
  exact run_ended h hl.ne_eof hw₁ (lt_count_of_closes hl.ne_eof hclose) more hmore

/-- Going back after all tokens have been taken, and taking them again. -/
theorem Session.run_course_back : ∃ w w' as last,
    run ⟨.between "" "a 1 ", []⟩ [.next, .save, .rest, .restore 0] = .ok
      ([.token ⟨.ident, "a", 0⟩, .none, .items [⟨.number, "1", 2⟩], .none], w) ∧
    w.cursor.pos = 1 ∧ w.call .rest = .ok (.items [⟨.number, "1", 2⟩], w') ∧
    w'.run [.next?] = .ok (as, last) ∧ (∀ a ∈ as, a.Ends "a 1 ") ∧ last.cursor.pos = 4 := by
  have hs : "a 1 ".utf8ByteSize ≤ Buffer.maxLength := by decide
  obtain ⟨b, c, ts, hb, hc, ht, -, -, hcourse⟩ := run_course "a 1 " hs
  rw [Buffer.ofText?_eq hs] at hb
  cases hb
  rw [Buffer.cursor_pad hs] at hc
  cases hc
  rw [show (Buffer.pad "a 1 ").tokens = .ok ([⟨.ident, "a", 0⟩, ⟨.number, "1", 2⟩] ++
    [⟨.eof, "", 4⟩]) by decide +kernel] at ht
  obtain rfl := List.append_inj_left' (Except.ok.inj ht) rfl
  obtain ⟨answers, w, hrun, hat, hends⟩ := hcourse [.next, .save, .rest, .restore 0]
  have hanswers : (run ⟨.between "" "a 1 ", []⟩ [.next, .save, .rest, .restore 0]).map (·.1) =
      .ok [.token ⟨.ident, "a", 0⟩, .none, .items [⟨.number, "1", 2⟩], .none] := by
    decide +kernel
  rw [hrun] at hanswers
  obtain rfl := Except.ok.inj hanswers
  obtain ⟨t, start, hget, hspan⟩ := hat.pos (by decide)
  cases hget
  rw [show Token.span ⟨.ident, "a", 0⟩ = .ok (0, 1) by decide] at hspan
  obtain ⟨-, hpos⟩ := Prod.mk.inj (Except.ok.inj hspan)
  obtain ⟨c', hrest⟩ := hat.rest
  have hcall : w.call .rest = .ok (.items [⟨.number, "1", 2⟩], ⟨c', w.saved⟩) := by
    rw [call, hrest]
    rfl
  obtain ⟨as, last, hmore, hall, hlast⟩ := hends _ _ _ hcall trivial [.next?] (by simp)
  exact ⟨w, _, as, last, hrun, hpos.symm, hcall, hmore, hall, hlast⟩

end ExprLexer
