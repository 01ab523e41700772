/-
Reading undoes writing: tokens written one after the other, each in a legal spelling and with white
space of any kind between them, are read back as they were written and where they were written. The
white space may be left out but for two words or two numbers in a row, so a text is written in one
way only.
-/
import ExprLexer.Proofs.Token.Stream
import Mathlib.Data.List.Chain

namespace ExprLexer

/-! ## Written tokens -/

/-- A token as it is written: its kind and its text, and the white space in front of it. -/
structure Piece where
  gap : String
  kind : Kind
  text : String

/-- Pieces written one after the other, and white space after the last. -/
def render : List Piece → String → String
  | [], last => last
  | p :: ps, last => p.gap ++ p.text ++ render ps last

/-- The tokens of pieces, each at the position where it is written. -/
def placed : Nat → List Piece → List Token
  | _, [] => []
  | start, p :: ps =>
    ⟨p.kind, p.text, start + p.gap.utf8ByteSize⟩ ::
      placed (start + p.gap.utf8ByteSize + p.text.utf8ByteSize) ps

/-- Whether tokens of two kinds would become one if nothing stood between them. -/
def Kind.fuses : Kind → Kind → Bool
  | .ident, .ident | .ident, .kwWith | .kwWith, .ident | .kwWith, .kwWith => true
  | .number, .number => true
  | _, _ => false

/-- Pieces that can be read back. -/
structure Legible (ps : List Piece) (last : String) : Prop where
  gap : ∀ p ∈ ps, Blank p.gap
  last : Blank last
  spelled : ∀ p ∈ ps, p.kind.Spells p.text
  apart : ps.IsChain fun p q => p.kind.fuses q.kind = true → q.gap ≠ ""

/-! ## Reading them -/

theorem Blank.stops {s : String} (h : Blank s) (k : Kind) : Stops k.runsOn s := by
  intro c hc
  have hb := h c (List.mem_of_mem_head? hc)
  rw [← Bool.not_eq_true]
  intro hr
  rcases Kind.runsOn_cases hr with hk | hk <;> rw [hk] at hr
  · rw [not_isBlank_of_isAlpha hr] at hb
    cases hb
  · rw [not_isBlank_of_isDigit hr] at hb
    cases hb

theorem Kind.Spells.stops {k k' : Kind} {text : String} (h : k'.Spells text)
    (hf : k.fuses k' = false) : Stops k.runsOn text := by
  intro c hc
  have hm := List.mem_of_mem_head? hc
  rw [← Bool.not_eq_true]
  intro hr
  cases k <;> simp only [runsOn, Bool.false_eq_true] at hr
  case number =>
    obtain ⟨rfl, -⟩ := runClass_number.only h hm hr
    cases hf
  all_goals
    obtain ⟨rfl, -⟩ := runClass_word.only h hm hr
    unfold ofWord at hf
    split at hf <;> cases hf

theorem Legible.tail {p : Piece} {ps : List Piece} {last : String} (h : Legible (p :: ps) last) :
    Legible ps last :=
  ⟨fun q hq => h.gap q (List.mem_cons_of_mem _ hq), h.last,
    fun q hq => h.spelled q (List.mem_cons_of_mem _ hq), h.apart.tail⟩

theorem Legible.stops {p : Piece} {ps : List Piece} {last : String} (h : Legible (p :: ps) last) :
    Stops p.kind.runsOn (render ps last) := by
  cases ps with
  | nil => exact h.last.stops _
  | cons q qs =>
    have hq : q ∈ p :: q :: qs := by simp
    rw [render, String.append_assoc]
    -- either white space stops the piece or, if there is none, the next piece does
    by_cases hgap : q.gap = ""
    · rw [hgap, String.empty_append, stops_append (h.spelled q hq).ne_empty]
      refine (h.spelled q hq).stops ?_
      rw [← Bool.not_eq_true]
      exact fun hf => (List.isChain_cons_cons.1 h.apart).1 hf hgap
    · rw [stops_append hgap]
      exact (h.gap q hq).stops _

theorem Legible.lexes {ps : List Piece} {last : String} (h : Legible ps last) (start : Nat) :
    Lexes start (render ps last) (placed start ps) := by
  induction ps generalizing start with
  | nil => exact .blank h.last
  | cons p ps ih =>
    exact .token ⟨rfl, h.gap p (by simp), h.spelled p (by simp), h.stops⟩ (ih h.tail _)

theorem kind_text_placed (start : Nat) (ps : List Piece) :
    (placed start ps).map (fun t => (t.kind, t.text)) = ps.map fun p => (p.kind, p.text) := by
  induction ps generalizing start with
  | nil => rfl
  | cons p ps ih => simp [placed, ih]

/-- Two ways to write a text that have the same tokens are the same. -/
theorem placed_inj {start : Nat} {ps qs : List Piece} {last last' : String}
    (h : placed start ps = placed start qs) (hr : render ps last = render qs last') :
    ps = qs ∧ last = last' := by
  induction ps generalizing start qs with
  | nil =>
    cases qs with
    | nil => exact ⟨rfl, hr⟩
    | cons q qs => cases h
  | cons p ps ih =>
    cases qs with
    | nil => cases h
    | cons q qs =>
      obtain ⟨gap, kind, text⟩ := p
      obtain ⟨gap', kind', text'⟩ := q
      simp only [placed, List.cons.injEq, Token.mk.injEq] at h
      obtain ⟨⟨rfl, rfl, hg⟩, h⟩ := h
      simp only [render, String.append_assoc] at hr
      obtain ⟨rfl, hr'⟩ := Text.append_inj hr (by omega)
      obtain ⟨rfl, rfl⟩ := ih h (Text.append_inj hr' rfl).2
      exact ⟨rfl, rfl⟩

/-- Reading what legible pieces write gives their kinds and texts in order, each at the position
where it was written, whatever the white space, and then the end. No other pieces write the same. -/
theorem Buffer.tokens_render (ps : List Piece) (last : String) (h : Legible ps last)
    (hs : (render ps last).utf8ByteSize ≤ maxLength) :
    (∃ b, ofText? (render ps last) = .ok b ∧
      b.tokens = .ok (placed 0 ps ++ [⟨.eof, "", (render ps last).utf8ByteSize⟩])) ∧
    (placed 0 ps).map (fun t => (t.kind, t.text)) = ps.map (fun p => (p.kind, p.text)) ∧
    ∀ qs last', Legible qs last' → render qs last' = render ps last → qs = ps ∧ last' = last := by
  have htok := tokens_lexes (h.lexes 0) hs
  refine ⟨⟨pad _, ofText?_eq hs, htok⟩, kind_text_placed 0 ps, fun qs last' hq hr => ?_⟩
  have htok' := tokens_lexes (hq.lexes 0) (hr ▸ hs)
  rw [hr, htok] at htok'
  have hp : placed 0 qs = placed 0 ps := by simpa using htok'.symm
  exact placed_inj hp hr

/-- Only the first two of these pieces have white space in front of them. -/
theorem Buffer.tokens_render_mixed : (pad "\tab 12\x00é\n").tokens = .ok [⟨.ident, "ab", 1⟩,
    ⟨.number, "12", 4⟩, ⟨.unknown, "\x00", 6⟩, ⟨.unknown, "é", 7⟩, ⟨.eof, "", 10⟩] := by
  have hspelled : ∀ p ∈ [Piece.mk "\t" .ident "ab", ⟨" ", .number, "12"⟩, ⟨"", .unknown, "\x00"⟩,
      ⟨"", .unknown, "é"⟩], p.kind.Spells p.text := by
    simp only [List.forall_mem_cons]
    exact ⟨.ident (by decide) (by decide) (by decide), .number (by decide) (by decide),
      .stray (c := '\x00') (by decide), .stray (c := 'é') (by decide), nofun⟩
  obtain ⟨⟨b, hb, htok⟩, -⟩ := tokens_render _ "\n"
    ⟨by decide, by decide, hspelled, by simp; decide⟩ (by decide)
  rw [ofText?_eq (by decide)] at hb
  cases hb
  exact htok

end ExprLexer
