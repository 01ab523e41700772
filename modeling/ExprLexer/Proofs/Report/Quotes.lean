/-
The quoted fields of a report beside each other. The line of the input shows the source, and each
line of a token shows the part of it that the token takes. The two show it alike but for a combining
character that stands behind others: the source has it as itself, and its token, of which it is the
start, by its code point.
-/
import ExprLexer.Proofs.Report.Reading
import ExprLexer.Proofs.Report.Trace
import ExprLexer.Proofs.Text.Combining
import ExprLexer.Proofs.Token.Rendering

namespace ExprLexer

variable {s last : String} {ps : List Piece} {ts : List Token} {start : Nat}

/-! ## Tokens that combine -/

/-- A token behind other characters that is a combining character. -/
def Token.Combines (t : Token) : Prop := t.offset ≠ 0 ∧ Text.IsCombining t.text

theorem Blank.stops_combines (h : Blank s) : Stops Text.combines s := by
  intro c hc
  have hb := isBlank_iff.1 (h c (List.mem_of_mem_head? hc))
  exact Text.not_combines (by omega)

theorem Kind.Spells.stops_combines {k : Kind} {text : String} (h : k.Spells text) :
    Stops Text.combines text ∨ Text.IsCombining text := by
  -- the characters of a run are below 128, so only one that is a token by itself may combine
  rcases h.cases with ⟨-, -, -, hw⟩ | ⟨-, -, hw⟩ | ⟨c, rfl, -⟩
  · refine .inl fun c hc => Text.not_combines ?_
    have := isAlpha_iff.1 (hw c (List.mem_of_mem_head? hc))
    omega
  · refine .inl fun c hc => Text.not_combines ?_
    have := isDigit_iff.1 (hw c (List.mem_of_mem_head? hc))
    omega
  · cases hc : Text.combines c with
    | true => exact .inr ⟨c, hc, rfl⟩
    | false => exact .inl (by simpa [Stops] using hc)

/-! ## A source and its pieces -/

theorem Lexes.exists_render (h : Lexes start s ts) :
    ∃ ps last, render ps last = s ∧ placed start ps = ts ∧ Blank last ∧
      ∀ p ∈ ps, Blank p.gap ∧ p.kind.Spells p.text := by
  induction h with
  | blank h => exact ⟨[], _, rfl, rfl, h, List.forall_mem_nil _⟩
  | @token start s gap text rest kind ts hl _ ih =>
    obtain ⟨ps, last, hr, hp, hlast, hps⟩ := ih
    refine ⟨⟨gap, kind, text⟩ :: ps, last, ?_, ?_, hlast, ?_⟩
    · rw [render, hr, hl.source]
    · rw [placed, hp]
    · exact List.forall_mem_cons.2 ⟨⟨hl.blank, hl.spelled⟩, hps⟩

/-- A piece with its parts in their written forms. -/
def Piece.escaped (p : Piece) : Piece :=
  ⟨Text.escape .field p.gap, p.kind, Text.escape .field p.text⟩

/-- The written form of pieces is that of their parts if none of the tokens combines. -/
theorem escapeAt_render_iff (hlast : Blank last)
    (h : ∀ p ∈ ps, Blank p.gap ∧ p.kind.Spells p.text) (start : Nat) :
    Text.escapeAt start (render ps last) =
        render (ps.map Piece.escaped) (Text.escape .field last) ↔
      ∀ t ∈ placed start ps, ¬ t.Combines := by
  induction ps generalizing start with
  | nil => simpa [render, placed] using Text.escapeAt_of_stops hlast.stops_combines start
  | cons p ps ih =>
    obtain ⟨⟨hgap, hspelled⟩, hps⟩ := List.forall_mem_cons.1 h
    rw [render, String.append_assoc, Text.escapeAt_append, Text.escapeAt_append,
      Text.escapeAt_of_stops hgap.stops_combines, List.map_cons, render, String.append_assoc,
      placed, List.forall_mem_cons, ← ih hps]
    show _ ++ _ = Text.escape .field p.gap ++ (Text.escape .field p.text ++ _) ↔ _
    rw [String.append_right_inj, Text.escapeAt_append_eq_iff hspelled.stops_combines]
    rfl

theorem exists_piece {t : Token} {pre suf : String} (hk : t.kind.Spells t.text)
    (ho : t.offset = pre.utf8ByteSize) :
    ∃ piece rest,
      Text.escape .field (pre ++ t.text) = Text.escape .field pre ++ piece ∧
      Text.escape .field (pre ++ t.text ++ suf) = Text.escape .field pre ++ piece ++ rest ∧
      (piece = Text.escape .field t.text ↔ ¬ t.Combines) ∧ (t.Combines → piece = t.text) := by
  have hpiece : Text.escape .field (pre ++ t.text) =
      Text.escape .field pre ++ Text.escapeAt t.offset t.text := by
    rw [← Text.escapeAt_zero, Text.escapeAt_append, Nat.zero_add, ← ho, Text.escapeAt_zero]
  have hsource : Text.escape .field (pre ++ t.text ++ suf) =
      Text.escape .field (pre ++ t.text) ++ Text.escapeAt (pre ++ t.text).utf8ByteSize suf := by
    rw [← Text.escapeAt_zero, Text.escapeAt_append, Nat.zero_add, Text.escapeAt_zero]
  refine ⟨_, _, hpiece, by rw [hsource, hpiece], ?_, ?_⟩
  · have hiff : _ ↔ ¬ t.Combines ∧ "" = "" :=
      Text.escapeAt_append_eq_iff hk.stops_combines "" ""
    simpa using hiff
  · rintro ⟨hn, ht⟩
    exact Text.escapeAt_combining hn ht

namespace Report

/-- The fields of a report on an inline text agree unless a combining character stands in it behind
other characters. The written form of the text is that of its white space and of its tokens in turn,
and the field of each token is the part of it that the token takes, just if there is none. The field
of a token that is one differs from its part, which is the character itself. -/
theorem fields_agree_iff {s : String} (h : s.utf8ByteSize ≤ Buffer.maxLength)
    (positions names : Bool) (files : Files) :
    ∃ b ps last summary events, Buffer.ofText? s = .ok b ∧
      b.tokens = .ok (placed 0 ps ++ [⟨.eof, "", s.utf8ByteSize⟩]) ∧
      render ps last = s ∧ (∀ p ∈ ps, Blank p.gap) ∧ Blank last ∧
      run ⟨.inline s, positions, names⟩ files .unlimited = .ok ⟨.ok summary,
        ("Input: " ++ Listing.field s ++ "\n"
          ++ String.join ((placed 0 ps).map fun t =>
            "token type: " ++ Listing.kindField names t.kind ++ ", token text: "
              ++ Listing.field t.text
              ++ placeText (placeFor ⟨.inline s, positions, names⟩ s t) ++ "\n")
          ++ Listing.versionLine).toUTF8, events⟩ ∧
      (∀ t ∈ placed 0 ps, ∃ pre suf piece rest,
        s = pre ++ t.text ++ suf ∧ t.offset = pre.utf8ByteSize ∧
        Text.escape .field (pre ++ t.text) = Text.escape .field pre ++ piece ∧
        Text.escape .field s = Text.escape .field pre ++ piece ++ rest ∧
        (piece = Text.escape .field t.text ↔ ¬ t.Combines) ∧ (t.Combines → piece = t.text)) ∧
      (Text.escape .field s = render (ps.map Piece.escaped) (Text.escape .field last) ↔
        ∀ t ∈ placed 0 ps, ¬ t.Combines) := by
  obtain ⟨ts, hl⟩ := exists_lexes 0 s
  obtain ⟨ps, last, hr, rfl, hlast, hps⟩ := hl.exists_render
  have hfits : ∀ output, Device.cut? .unlimited output = none := fun _ => rfl
  have hrun : run ⟨.inline s, positions, names⟩ files .unlimited = _ :=
    run_of_fits rfl h hl (hfits _)
  refine ⟨Buffer.pad s, ps, last, _, _, Buffer.ofText?_eq h, Buffer.tokens_lexes hl h, hr,
    fun p hp => (hps p hp).1, hlast, hrun, fun t ht => ?_, ?_⟩
  · obtain ⟨pre, suf, rfl, ho, hk, -⟩ := hl.place t ht
    rw [Nat.zero_add] at ho
    obtain ⟨piece, rest, hpiece⟩ := exists_piece hk ho
    exact ⟨pre, suf, piece, rest, rfl, ho, hpiece⟩
  · rw [← Text.escapeAt_zero, ← hr]
    exact escapeAt_render_iff hlast hps 0

/-- A combining character at the start of a text, and characters that are escaped. -/
theorem fields_agree_iff_start :
    Text.escape .field "\u0301 \"\t" = Text.escape .field "\u0301" ++
      (Text.escape .field " " ++ (Text.escape .field "\"" ++ Text.escape .field "\t")) := by
  have hs : "\u0301 \"\t".utf8ByteSize ≤ Buffer.maxLength := by decide
  obtain ⟨b, ps, last, -, -, hb, htokens, hr, -, -, -, -, hiff⟩ :=
    fields_agree_iff hs false false fun _ => .error .notFound
  rw [Buffer.ofText?_eq hs] at hb
  cases hb
  have hvalue : (Buffer.pad "\u0301 \"\t").tokens = .ok
      (placed 0 [⟨"", .unknown, "\u0301"⟩, ⟨" ", .unknown, "\""⟩] ++ [⟨.eof, "", 5⟩]) := by
    decide +kernel
  have hrender : render [⟨"", .unknown, "\u0301"⟩, ⟨" ", .unknown, "\""⟩] "\t" =
      render ps last := by
    rw [hr]
    decide +kernel
  rw [hvalue] at htokens
  obtain ⟨rfl, rfl⟩ := placed_inj (List.append_inj' (Except.ok.inj htokens) rfl).1 hrender
  have hcombines : ∀ t ∈ placed 0 [⟨"", .unknown, "\u0301"⟩, ⟨" ", .unknown, "\""⟩],
      ¬ t.Combines := by
    simp only [placed, List.forall_mem_cons]
    refine ⟨fun h => h.1 rfl, ?_, List.forall_mem_nil _⟩
    rintro ⟨-, c, hc, htext⟩
    obtain rfl : '\"' = c := by simpa using congrArg String.toList htext
    exact absurd (Text.le_of_combines hc) (by decide)
  rw [hiff.2 hcombines]
  simp [render, Piece.escaped, String.append_assoc]

theorem fields_differ : ¬ ∀ s b, s.utf8ByteSize ≤ Buffer.maxLength → Buffer.ofText? s = .ok b →
    ∀ ps last, b.tokens = .ok (placed 0 ps ++ [⟨.eof, "", s.utf8ByteSize⟩]) → render ps last = s →
      Text.escape .field s = render (ps.map Piece.escaped) (Text.escape .field last) := by
  intro h
  have hsame := h "a\u0301" _ (by decide) rfl [⟨"", .ident, "a"⟩, ⟨"", .unknown, "\u0301"⟩] ""
    (by decide +kernel) (by decide)
  revert hsame
  decide +kernel

end Report

end ExprLexer
