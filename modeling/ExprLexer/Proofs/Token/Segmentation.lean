/-
Soundness of the stream of tokens: the tokens of a source are pieces of it, in order and apart from
each other, with white space only between them; each is a legal spelling of its kind, and none could
have been longer.
-/
import ExprLexer.Proofs.Token.Stream

namespace ExprLexer

/-! ## Places in a division -/

theorem Text.mem_of_append_eq {p q a b : String} {c : Char}
    (h : p ++ (String.singleton c ++ q) = a ++ b) (hlt : p.utf8ByteSize < a.utf8ByteSize) :
    c ∈ a.toList := by
  obtain ⟨mid, rfl, hmid⟩ := append_split h (by omega)
  rcases eq_empty_or_singleton_append mid with rfl | ⟨d, m, rfl⟩
  · simp at hlt
  · have hd := congrArg (fun s => s.toList.head?) hmid
    simp at hd
    simp [hd]

variable {start : Nat} {s : String} {ts : List Token}

/-- Each token of a division is a legal spelling that what follows it does not go on with. -/
theorem Lexes.place (h : Lexes start s ts) : ∀ t ∈ ts, ∃ p q, s = p ++ t.text ++ q ∧
    t.offset = start + p.utf8ByteSize ∧ t.kind.Spells t.text ∧ Stops t.kind.runsOn q := by
  induction h with
  | blank _ => simp
  | @token start s gap text rest kind ts hl _ ih =>
    intro t ht
    rcases List.mem_cons.1 ht with rfl | ht
    · exact ⟨gap, rest, hl.source, rfl, hl.spelled, hl.longest⟩
    · obtain ⟨p, q, hs, ho, hk, hq⟩ := ih t ht
      refine ⟨gap ++ text ++ p, q, ?_, by simp [ho]; omega, hk, hq⟩
      rw [hl.source, hs]
      simp [String.append_assoc]

theorem Lexes.ascending (h : Lexes start s ts) :
    ts.Pairwise fun a b => a.offset + a.text.utf8ByteSize ≤ b.offset := by
  induction h with
  | blank _ => simp
  | token hl hts ih =>
    refine List.pairwise_cons.2 ⟨fun b hb => ?_, ih⟩
    obtain ⟨p, -, -, ho, -, -⟩ := hts.place b hb
    dsimp only
    omega

/-- What stands outside all tokens of a division is white space. -/
theorem Lexes.gap (h : Lexes start s ts) {p q : String} {c : Char}
    (hs : s = p ++ (String.singleton c ++ q))
    (hout : ∀ t ∈ ts, ¬ (t.offset ≤ start + p.utf8ByteSize ∧
      start + p.utf8ByteSize < t.offset + t.text.utf8ByteSize)) : isBlank c = true := by
  induction h generalizing p with
  | blank hb => exact hb c (by simp [hs])
  | @token start s gap text rest kind ts hl _ ih =>
    have he : p ++ (String.singleton c ++ q) = gap ++ (text ++ rest) := by
      rw [← hs, hl.source, String.append_assoc]
    have hfirst := hout _ (List.mem_cons_self ..)
    dsimp only at hfirst
    -- the character is not in the first token, so it stands before it or after it
    by_cases h1 : p.utf8ByteSize < gap.utf8ByteSize
    · exact hl.blank c (Text.mem_of_append_eq he h1)
    · have he' : gap ++ text ++ rest = p ++ (String.singleton c ++ q) := by
        rw [he, String.append_assoc]
      obtain ⟨p', rfl, hp'⟩ := Text.append_split he' (by
        simp only [String.utf8ByteSize_append] at hfirst ⊢; omega)
      refine ih hp' fun t ht => ?_
      have := hout t (List.mem_cons_of_mem _ ht)
      simp only [String.utf8ByteSize_append] at this
      omega

/-! ## The tokens of a source -/

/-- What the tokens of a source are, its end left out. -/
structure Segmentation (s : String) (ts : List Token) : Prop where
  /-- Each token is a piece of the source, and not an empty one. -/
  piece : ∀ t ∈ ts, t.text ≠ "" ∧ Text.cut s t.offset (t.offset + t.length) = .ok t.text
  /-- Each token ends where the next one starts or before. -/
  ascending : ts.Pairwise fun a b => a.offset + a.length ≤ b.offset
  /-- A character that stands in no token is white space. -/
  gap : ∀ pre c suf, s = pre ++ String.singleton c ++ suf →
    (∀ t ∈ ts, ¬ (t.offset ≤ pre.utf8ByteSize ∧ pre.utf8ByteSize < t.offset + t.length)) →
    isBlank c = true
  /-- Each token is a legal spelling of its kind. -/
  spelled : ∀ t ∈ ts, t.kind.Spells t.text
  /-- The character after a token does not go on with it. -/
  longest : ∀ t ∈ ts, ∀ pre c suf, s = pre ++ String.singleton c ++ suf →
    pre.utf8ByteSize = t.offset + t.length → t.kind.runsOn c = false

theorem Lexes.length_token (h : Lexes start s ts) (hs : s.utf8ByteSize ≤ Buffer.maxLength) :
    ∀ t ∈ ts, t.length = t.text.utf8ByteSize := by
  intro t ht
  obtain ⟨p, q, rfl, -, -, -⟩ := h.place t ht
  simp only [String.utf8ByteSize_append] at hs
  exact Buffer.ofLength_eq (by omega)

theorem Lexes.segmentation (h : Lexes 0 s ts) (hs : s.utf8ByteSize ≤ Buffer.maxLength) :
    Segmentation s ts := by
  have hlen := h.length_token hs
  constructor
  case piece =>
    intro t ht
    obtain ⟨p, q, he, ho, hk, -⟩ := h.place t ht
    exact ⟨hk.ne_empty, Text.cut_eq_ok_iff.2 ⟨p, q, he, by omega, by rw [hlen t ht]⟩⟩
  case ascending =>
    exact h.ascending.imp_of_mem fun {a b} ha _ hab => by rwa [hlen a ha]
  case gap =>
    intro pre c suf he hout
    rw [String.append_assoc] at he
    refine h.gap he fun t ht => ?_
    have := hout t ht
    rw [hlen t ht] at this
    omega
  case spelled =>
    intro t ht
    obtain ⟨-, -, -, -, hk, -⟩ := h.place t ht
    exact hk
  case longest =>
    intro t ht pre c suf he hp
    obtain ⟨p, q, hq, ho, -, hstop⟩ := h.place t ht
    rw [hlen t ht] at hp
    have heq : pre ++ (String.singleton c ++ suf) = p ++ t.text ++ q := by
      rw [← hq, he, String.append_assoc]
    obtain ⟨-, rfl⟩ := Text.append_inj heq (by simp; omega)
    exact stops_singleton_append.1 hstop

/-- The tokens of a source that is not too long are a segmentation of it into longest legal
spellings, followed by the end. -/
theorem Buffer.tokens_segmentation (s : String) (h : s.utf8ByteSize ≤ maxLength) :
    ∃ b ts, ofText? s = .ok b ∧ b.tokens = .ok (ts ++ [⟨.eof, "", s.utf8ByteSize⟩]) ∧
      Segmentation s ts ∧ ∀ t ∈ ts, t.kind ≠ .eof := by
  obtain ⟨ts, hts⟩ := exists_lexes 0 s
  exact ⟨pad s, ts, ofText?_eq h, tokens_lexes hts h, hts.segmentation h, hts.ne_eof⟩

/-- A byte order mark in front and a NUL at the end are tokens like any other. -/
theorem Buffer.tokens_segmentation_nul : "\uFEFF with12\x00".utf8ByteSize ≤ maxLength ∧
    Segmentation "\uFEFF with12\x00" [⟨.unknown, "\uFEFF", 0⟩, ⟨.kwWith, "with", 4⟩,
      ⟨.number, "12", 8⟩, ⟨.unknown, "\x00", 10⟩] := by
  have hs : "\uFEFF with12\x00".utf8ByteSize ≤ maxLength := by decide
  obtain ⟨b, ts, hb, hts, hseg, -⟩ := tokens_segmentation "\uFEFF with12\x00" hs
  have htok : (pad "\uFEFF with12\x00").tokens = .ok ([⟨.unknown, "\uFEFF", 0⟩,
      ⟨.kwWith, "with", 4⟩, ⟨.number, "12", 8⟩, ⟨.unknown, "\x00", 10⟩] ++ [⟨.eof, "", 11⟩]) := by
    decide +kernel
  rw [ofText?_eq hs] at hb
  cases hb
  rw [htok] at hts
  have h := List.append_inj_left' (Except.ok.inj hts) rfl
  exact ⟨hs, by rwa [h]⟩

end ExprLexer
