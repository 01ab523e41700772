/-
The tokens of two texts in a row. Unless the texts meet inside a run of letters or of digits, they
are those of the first and then those of the second, further on by the size of the first. If they
do meet inside a run, the last token of the first and the first token of the second become one.
-/
import ExprLexer.Proofs.Token.Stream

namespace ExprLexer

/-- Two texts meet inside a run of a class. -/
def Meet (q : Char → Bool) (s t : String) : Prop :=
  (∃ c ∈ s.toList.getLast?, q c = true) ∧ ∃ d ∈ t.toList.head?, q d = true

def Token.shift (n : Nat) (t : Token) : Token := { t with offset := n + t.offset }

variable {start : Nat} {gap s t text rest : String} {kind : Kind} {S T : List Token}
  {q : Char → Bool} {kindOf : String → Kind}

/-! ## Texts that meet -/

theorem meet_append (h : rest ≠ "") : Meet q (s ++ rest) t ↔ Meet q rest t := by
  obtain ⟨c, hc⟩ : ∃ c, rest.toList.getLast? = some c := by
    rw [← Option.isSome_iff_exists, List.getLast?_isSome]
    simpa using h
  unfold Meet
  rw [String.toList_append, List.getLast?_append, hc, Option.some_or]

theorem not_meet_empty : ¬ Meet q "" t := by simp [Meet]

theorem Kind.Spells.stops_of_not_meet (h : kind.Spells text) (ha : ¬ Meet Char.isAlpha text t)
    (hd : ¬ Meet Char.isDigit text t) : Stops kind.runsOn t := by
  intro d hd'
  rw [← Bool.not_eq_true]
  intro hr
  obtain ⟨c, hc⟩ : ∃ c, text.toList.getLast? = some c := by
    rw [← Option.isSome_iff_exists, List.getLast?_isSome]
    simpa using h.ne_empty
  have hm := List.mem_of_getLast? hc
  rcases h.cases with ⟨-, hq, -, hw⟩ | ⟨rfl, -, hw⟩ | ⟨_, -, hq, -⟩
  · rw [hq] at hr
    exact ha ⟨⟨c, hc, hw c hm⟩, d, hd', hr⟩
  · exact hd ⟨⟨c, hc, hw c hm⟩, d, hd', hr⟩
  · rw [hq] at hr
    cases hr

/-! ## Divisions of texts in a row -/

theorem Lexes.shift (h : Lexes start s S) (n : Nat) :
    Lexes (n + start) s (S.map (Token.shift n)) := by
  induction h with
  | blank hb => exact .blank hb
  | @token start s gap text rest kind ts hl _ ih =>
    simp only [← Nat.add_assoc] at ih
    have := Lexes.token hl ih
    rwa [Nat.add_assoc] at this

theorem Lexes.eq_nil (h : Lexes start "" S) : S = [] := by
  cases h with
  | blank _ => rfl
  | token hl _ => have := hl.size; simp at this; omega

/-- White space in front of a text belongs to its first gap. -/
theorem Lexes.blank_append (hb : Blank s) (h : Lexes (start + s.utf8ByteSize) t T) :
    Lexes start (s ++ t) T := by
  cases h with
  | blank ht => exact .blank (within_append.2 ⟨hb, ht⟩)
  | @token _ _ gap text rest kind ts hl hts =>
    have hsource : s ++ t = s ++ gap ++ text ++ rest := by
      rw [hl.source]
      simp only [String.append_assoc]
    have hl' : Lexeme (s ++ t) (s ++ gap) kind text rest :=
      ⟨hsource, within_append.2 ⟨hb, hl.blank⟩, hl.spelled, hl.longest⟩
    have hts' : Lexes (start + (s ++ gap).utf8ByteSize + text.utf8ByteSize) rest ts := by
      rwa [String.utf8ByteSize_append, ← Nat.add_assoc]
    have := Lexes.token hl' hts'
    rwa [String.utf8ByteSize_append, ← Nat.add_assoc] at this

/-- A token keeps its place when a text is added behind it. -/
theorem Lexeme.append (h : Lexeme s gap kind text rest) (ht : rest = "" → Stops kind.runsOn t) :
    Lexeme (s ++ t) gap kind text (rest ++ t) := by
  refine ⟨by rw [h.source, String.append_assoc], h.blank, h.spelled, ?_⟩
  by_cases hr : rest = ""
  · rw [hr, String.empty_append]
    exact ht hr
  · rw [stops_append hr]
    exact h.longest

theorem Lexes.append (hs : Lexes start s S) (ht : Lexes (start + s.utf8ByteSize) t T)
    (ha : ¬ Meet Char.isAlpha s t) (hd : ¬ Meet Char.isDigit s t) :
    Lexes start (s ++ t) (S ++ T) := by
  -- on the division of the first text: only its last token touches the second
  induction hs with
  | blank hb => exact ht.blank_append hb
  | @token start s gap text rest kind ts hl _ ih =>
    have hsize := hl.size.1
    rw [hl.source] at ha hd
    refine .token (hl.append (t := t) ?_) (ih ?_ ?_ ?_)
    · rintro rfl
      rw [String.append_empty, meet_append hl.spelled.ne_empty] at ha hd
      exact hl.spelled.stops_of_not_meet ha hd
    · rwa [show start + gap.utf8ByteSize + text.utf8ByteSize + rest.utf8ByteSize =
        start + s.utf8ByteSize by omega]
    all_goals
      by_cases hr : rest = ""
      · rw [hr]; exact not_meet_empty
      · rwa [← meet_append hr]

theorem Lexes.run_head (hq : Kind.RunClass q kindOf) (h : Lexes start s S) {d : Char}
    (hd : s.toList.head? = some d) (hqd : q d = true) :
    ∃ text rest S', Lexeme s "" (kindOf text) text rest ∧ Within q text ∧
      S = ⟨kindOf text, text, start⟩ :: S' ∧ Lexes (start + text.utf8ByteSize) rest S' := by
  obtain ⟨kind, text, rest, S', hl, hc, rfl, hS⟩ := h.head hd (hq.notBlank hqd)
  obtain ⟨rfl, hw⟩ := hq.only hl.spelled (List.mem_of_mem_head? hc) hqd
  exact ⟨text, rest, S', hl, hw, rfl, hS⟩

/-- A run at the end of a text and a run at the start of the next are one run. -/
theorem Lexeme.join (hq : Kind.RunClass q kindOf) {text' rest' : String}
    (h : Lexeme s gap (kindOf text) text "") (h' : Lexeme t "" (kindOf text') text' rest')
    (hw : Within q text) (hw' : Within q text') :
    Lexeme (s ++ t) gap (kindOf (text ++ text')) (text ++ text') rest' := by
  refine ⟨?_, h.blank, hq.spells ?_ (within_append.2 ⟨hw, hw'⟩), ?_⟩
  · rw [h.source, h'.source]
    simp [String.append_assoc]
  · simp [h.spelled.ne_empty]
  · rw [hq.runsOn, ← hq.runsOn text']
    exact h'.longest

/-- Where two texts meet inside a run, the last token of the first and the first token of the second
are one token of the division of both. -/
theorem Lexes.append_of_meet (hq : Kind.RunClass q kindOf) (hs : Lexes start s S)
    (ht : Lexes (start + s.utf8ByteSize) t T) (hm : Meet q s t) :
    ∃ S' a b T', S = S' ++ [a] ∧ T = b :: T' ∧
      Lexes start (s ++ t)
        (S' ++ ⟨kindOf (a.text ++ b.text), a.text ++ b.text, a.offset⟩ :: T') := by
  induction hs with
  | blank hb =>
    obtain ⟨⟨c, hc, hqc⟩, -⟩ := hm
    have := hq.notBlank hqc
    rw [hb c (List.mem_of_getLast? hc)] at this
    cases this
  | @token start s gap text rest kind S hl hS ih =>
    have hsize := hl.size.1
    by_cases hr : rest = ""
    · -- this is the last token of the first text, and goes on with the first of the second
      subst hr
      cases hS.eq_nil
      rw [hl.source, String.append_empty, meet_append hl.spelled.ne_empty] at hm
      obtain ⟨⟨c, hc, hqc⟩, d, hd, hqd⟩ := hm
      obtain ⟨rfl, hw⟩ := hq.only hl.spelled (List.mem_of_getLast? hc) hqc
      obtain ⟨text', rest', T', hl', hw', rfl, hT⟩ := ht.run_head hq hd hqd
      refine ⟨[], _, _, T', rfl, rfl, ?_⟩
      refine .token (hl.join hq hl' hw hw') ?_
      rw [String.utf8ByteSize_append]
      convert hT using 1
      rw [String.utf8ByteSize_empty] at hsize
      dsimp only
      omega
    · obtain ⟨S', a, b, T', rfl, rfl, h⟩ := ih (by convert ht using 1; omega) (by
        rwa [hl.source, meet_append hr] at hm)
      exact ⟨_ :: S', a, b, T', rfl, rfl, .token (hl.append fun h => absurd h hr) h⟩

/-! ## The tokens of a source in two parts -/

/-- The tokens of two texts in a row, by those of each: if the texts meet inside a run of letters or
of digits, the two tokens there become one; else they are the tokens of the first and, further on
by its size, those of the second. -/
theorem Buffer.tokens_append (s t : String) (h : s.utf8ByteSize + t.utf8ByteSize ≤ maxLength) :
    ∃ bs bt b S T R, ofText? s = .ok bs ∧ ofText? t = .ok bt ∧ ofText? (s ++ t) = .ok b ∧
      bs.tokens = .ok (S ++ [⟨.eof, "", s.utf8ByteSize⟩]) ∧
      bt.tokens = .ok (T ++ [⟨.eof, "", t.utf8ByteSize⟩]) ∧
      b.tokens = .ok (R ++ [⟨.eof, "", s.utf8ByteSize + t.utf8ByteSize⟩]) ∧
      (∀ r ∈ S ++ T ++ R, r.kind ≠ .eof) ∧
      (¬ Meet Char.isAlpha s t → ¬ Meet Char.isDigit s t →
        R = S ++ T.map (Token.shift s.utf8ByteSize)) ∧
      (Meet Char.isAlpha s t → ∃ S' a b T', S = S' ++ [a] ∧ T = b :: T' ∧
        R = S' ++ [⟨Kind.ofWord (a.text ++ b.text), a.text ++ b.text, a.offset⟩] ++
          T'.map (Token.shift s.utf8ByteSize)) ∧
      (Meet Char.isDigit s t → ∃ S' a b T', S = S' ++ [a] ∧ T = b :: T' ∧
        R = S' ++ [⟨.number, a.text ++ b.text, a.offset⟩] ++
          T'.map (Token.shift s.utf8ByteSize)) := by
  have hst : (s ++ t).utf8ByteSize ≤ maxLength := by simpa using h
  obtain ⟨S, hS⟩ := exists_lexes 0 s
  obtain ⟨T, hT⟩ := exists_lexes 0 t
  obtain ⟨R, hR⟩ := exists_lexes 0 (s ++ t)
  have hT' : Lexes (0 + s.utf8ByteSize) t (T.map (Token.shift s.utf8ByteSize)) := by
    simpa using hT.shift s.utf8ByteSize
  have hRt := tokens_lexes hR hst
  have huniq : ∀ {R'}, Lexes 0 (s ++ t) R' → R = R' := fun hR' => by
    simpa [hRt] using tokens_lexes hR' hst
  refine ⟨pad s, pad t, pad (s ++ t), S, T, R, ofText?_eq (by omega), ofText?_eq (by omega),
    ofText?_eq hst, tokens_lexes hS (by omega), tokens_lexes hT (by omega), by simpa using hRt, ?_,
    fun ha hd => huniq (hS.append hT' ha hd), fun hm => ?_, fun hm => ?_⟩
  · simp only [List.mem_append]
    rintro r ((hr | hr) | hr)
    exacts [hS.ne_eof r hr, hT.ne_eof r hr, hR.ne_eof r hr]
  · obtain ⟨S', a, b, T', rfl, hb, hL⟩ := hS.append_of_meet Kind.runClass_word hT' hm
    obtain ⟨b, T', rfl, rfl, rfl⟩ := List.map_eq_cons_iff.1 hb
    exact ⟨S', a, b, T', rfl, rfl, by rw [huniq hL]; simp [Token.shift]⟩
  · obtain ⟨S', a, b, T', rfl, hb, hL⟩ := hS.append_of_meet Kind.runClass_number hT' hm
    obtain ⟨b, T', rfl, rfl, rfl⟩ := List.map_eq_cons_iff.1 hb
    exact ⟨S', a, b, T', rfl, rfl, by rw [huniq hL]; simp [Token.shift]⟩

/-- Two identifiers become the reserved word where they meet. -/
theorem Buffer.tokens_append_with : (pad ("a wi" ++ "th 1")).tokens = .ok [⟨.ident, "a", 0⟩,
    ⟨.kwWith, "with", 2⟩, ⟨.number, "1", 7⟩, ⟨.eof, "", 8⟩] := by
  obtain ⟨bs, bt, b, S, T, R, hbs, hbt, hb, hS, hT, hR, -, -, hmeet, -⟩ :=
    tokens_append "a wi" "th 1" (by decide)
  rw [ofText?_eq (by decide)] at hbs hbt hb
  cases hbs
  cases hbt
  cases hb
  rw [show (pad "a wi").tokens = .ok ([⟨.ident, "a", 0⟩, ⟨.ident, "wi", 2⟩] ++ [⟨.eof, "", 4⟩]) by
    decide +kernel] at hS
  rw [show (pad "th 1").tokens = .ok ([⟨.ident, "th", 0⟩, ⟨.number, "1", 3⟩] ++ [⟨.eof, "", 4⟩]) by
    decide +kernel] at hT
  cases List.append_inj_left' (Except.ok.inj hS) rfl
  cases List.append_inj_left' (Except.ok.inj hT) rfl
  obtain ⟨S', a, b, T', hS', hT', rfl⟩ :=
    hmeet ⟨⟨'i', by decide, by decide⟩, 't', by decide, by decide⟩
  have hsplit : [⟨.ident, "a", 0⟩] ++ [⟨.ident, "wi", 2⟩] = S' ++ [a] := hS'
  obtain ⟨rfl, ha⟩ := List.append_inj' hsplit rfl
  cases ha
  cases hT'
  exact hR

end ExprLexer
