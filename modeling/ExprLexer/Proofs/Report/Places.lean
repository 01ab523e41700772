/-
The places of tokens and of the lines of a report. Tokens ascend in their source, so their places do
too, and so do the places that a report prints, however much of it a device has room for.
-/
import ExprLexer.Proofs.Report.Reading
import ExprLexer.Proofs.Source.Order

namespace ExprLexer

variable {s : String} {ts : List Token} {a : Token}

/-! ## The places of tokens -/

/-- The tokens of a source and its end stand one after the other. -/
theorem Lexes.pairwise_offset (h : Lexes 0 s ts) :
    (ts ++ [Token.mk .eof "" s.utf8ByteSize]).Pairwise fun a b => a.offset < b.offset := by
  have hpos : ∀ t ∈ ts, 0 < t.text.utf8ByteSize ∧
      t.offset + t.text.utf8ByteSize ≤ s.utf8ByteSize := by
    intro t ht
    obtain ⟨p, q, rfl, ho, hk, -⟩ := h.place t ht
    have hne := mt String.utf8ByteSize_eq_zero_iff.1 hk.ne_empty
    simp only [String.utf8ByteSize_append]
    omega
  refine List.pairwise_append.2 ⟨h.ascending.imp_of_mem fun {a b} ha _ hab => ?_,
    List.pairwise_singleton _ _, fun a ha b hb => ?_⟩
  · have := hpos a ha
    omega
  · obtain rfl := List.mem_singleton.1 hb
    have := hpos a ha
    dsimp only
    omega

theorem Token.Stands.boundary (h : a.Stands s) : Text.Boundary s a.offset := by
  obtain ⟨pre, suf, hs, ho⟩ := h
  exact ⟨pre, a.text ++ suf, by rw [hs, String.append_assoc], ho⟩

theorem Lexes.pairwise_locate (h : Lexes 0 s ts) (hs : s.utf8ByteSize ≤ Buffer.maxLength) :
    (ts ++ [Token.mk .eof "" s.utf8ByteSize]).Pairwise fun a b =>
      ∃ p q, (LineTable.mk s (lineStarts s)).locate a = .ok p ∧
        (LineTable.mk s (lineStarts s)).locate b = .ok q ∧ compare p q = .lt :=
  h.pairwise_offset.imp_of_mem fun {a b} ha hb hab =>
    LineTable.lineCol_lt hs (h.stands a ha).boundary (h.stands b hb).boundary hab

namespace Report

variable {config : Config} {files : Files}

/-! ## The places that are printed -/

theorem placeFor_eq (hp : config.positions = true) (s : String) (t : Token) :
    placeFor config s t = ((LineTable.mk s (lineStarts s)).locate t).toOption :=
  if_pos hp

theorem pairwise_placeFor (h : Lexes 0 s ts) (hs : s.utf8ByteSize ≤ Buffer.maxLength)
    (hp : config.positions = true) :
    (ts.filterMap (placeFor config s)).Pairwise fun p q => compare p q = .lt := by
  rw [List.pairwise_filterMap]
  refine (List.pairwise_append.1 (h.pairwise_locate hs)).1.imp ?_
  rintro a b ⟨p, q, ha, hb, hpq⟩ p' ha' q' hb'
  rw [placeFor_eq hp, ha] at ha'
  rw [placeFor_eq hp, hb] at hb'
  cases ha'
  cases hb'
  exact hpq

/-- What a report leaves on a device is the start of what it prints. -/
theorem exists_play_extract (x : Script) (device : Device) :
    ∃ n, (x.play device).output = (Step.printed x.steps).toUTF8.extract 0 n := by
  obtain ⟨steps, ending⟩ := x
  cases hc : device.cut? (Step.printed steps).toUTF8 with
  | none =>
    refine ⟨(Step.printed steps).toUTF8.size, ?_⟩
    rw [play_of_fits hc, ByteArray.extract_zero_size]
  | some kept =>
    obtain ⟨n, -, -, rfl⟩ := Device.cut?_eq_some_iff.1 hc
    obtain ⟨shown, hplay⟩ : ∃ shown, Script.play ⟨steps, ending⟩ device =
        ⟨.error (.unwritable device.refusal), _, shown⟩ := play_of_cut hc
    exact ⟨n, by rw [hplay]⟩

/-- Places are in the order of their positions: of two character boundaries of a source the one
further on has the later place. None is left out: a line has a column for each of its characters and
one more, for the line feed that ends it or, on the last line, for the end of the source. So all
tokens and the end have places of their own, in ascending order, and so do the lines of a report
that prints places, all of which or the first bytes of which any device is left with. -/
theorem places_ascend (s : String) (h : s.utf8ByteSize ≤ Buffer.maxLength) :
    ∃ b table tokens, Buffer.ofText? s = .ok b ∧ LineTable.ofBuffer b = .ok table ∧
      b.tokens = .ok tokens ∧
      (∀ i j, Text.Boundary s i → Text.Boundary s j → i < j →
        ∃ p q, table.lineCol i = .ok p ∧ table.lineCol j = .ok q ∧ compare p q = .lt) ∧
      (∀ q, (∃ i, Text.Boundary s i ∧ table.lineCol i = .ok q) ↔
        ∃ n line, (Text.lines s)[n]? = some line ∧ q.line = n + 1 ∧
          1 ≤ q.col ∧ q.col ≤ line.length + 1) ∧
      tokens.Pairwise (fun a b =>
        ∃ p q, table.locate a = .ok p ∧ table.locate b = .ok q ∧ compare p q = .lt) ∧
      ∀ config files, config.positions = true → sourceText files config.input = .ok s →
        ∃ full reading, read config.names true full = some reading ∧
          reading.entries.map Entry.place = (tokens.filter fun t => !t.isEof).map
            (fun t => (table.locate t).toOption) ∧
          (∀ e ∈ reading.entries, e.place.isSome) ∧
          (reading.entries.filterMap Entry.place).Pairwise (fun p q => compare p q = .lt) ∧
          (∃ outcome, run config files .unlimited = .ok outcome ∧ outcome.output = full) ∧
          ∀ device, ∃ outcome n, run config files device = .ok outcome ∧
            outcome.output = full.extract 0 n := by
  obtain ⟨ts, hl⟩ := exists_lexes 0 s
  refine ⟨_, _, _, Buffer.ofText?_eq h, LineTable.ofBuffer_pad h, Buffer.tokens_lexes hl h,
    fun i j hi hj => LineTable.lineCol_lt h hi hj, fun q => LineTable.exists_lineCol_iff h,
    hl.pairwise_locate h, fun config files hp hs => ?_⟩
  have hplaces := isSome_placeFor hl h config
  have hread := read_printed config hplaces
  rw [← printed_lines, ← printed_script hl, hp] at hread
  have hscript := script_lexes h hl config
  refine ⟨_, _, hread, ?_, ?_, ?_, ⟨_, run_eq_play hs hscript, ?_⟩, fun device => ?_⟩
  · rw [filter_not_isEof hl.ne_eof, List.map_map]
    exact List.map_congr_left fun t _ => placeFor_eq hp s t
  · simpa [hp] using hplaces
  · simpa [List.filterMap_map, Function.comp_def] using pairwise_placeFor hl h hp
  · rw [play_of_fits rfl]
  · obtain ⟨n, hn⟩ := exists_play_extract _ device
    exact ⟨_, n, run_eq_play hs hscript, hn⟩

/-- The place of a line feed is before that of the next line, behind a character of two bytes. -/
theorem places_ascend_line_feed :
    (∃ p q, (LineTable.mk "é\n b" (lineStarts "é\n b")).lineCol 2 = .ok p ∧
      (LineTable.mk "é\n b" (lineStarts "é\n b")).lineCol 3 = .ok q ∧ compare p q = .lt) ∧
    ∃ outcome reading,
      run ⟨.inline "é\n b", true, false⟩ (fun _ => .error .notFound) .unlimited = .ok outcome ∧
      read false true outcome.output = some reading ∧
      (reading.entries.filterMap Entry.place).Pairwise fun p q => compare p q = .lt := by
  have hs : "é\n b".utf8ByteSize ≤ Buffer.maxLength := by decide
  obtain ⟨b, table, tokens, hb, htable, -, hlt, -, -, hrun⟩ := places_ascend "é\n b" hs
  rw [Buffer.ofText?_eq hs] at hb
  cases hb
  rw [LineTable.ofBuffer_pad hs] at htable
  cases htable
  refine ⟨hlt 2 3 ⟨"é", "\n b", rfl, rfl⟩ ⟨"é\n", " b", rfl, rfl⟩ (by decide), ?_⟩
  obtain ⟨full, reading, hread, -, -, hplaces, ⟨outcome, hout, rfl⟩, -⟩ :=
    hrun ⟨.inline "é\n b", true, false⟩ (fun _ => .error .notFound) rfl rfl
  exact ⟨outcome, reading, hout, hread, hplaces⟩

end Report

end ExprLexer
