/-
No contract is broken. For every source that is not too long, making the buffer, reading its tokens
in whatever order they are asked for, finding the span and the place of each, and making a report on
a device with or without room all come to their end: no read past the padding, no cut inside a
character, no line that is not there and no sum out of range.

What carries this is that every token found stands in the source at its position, so the position is
a character boundary, and that the places of boundaries are known.
-/
import ExprLexer.Proofs.Report.Script
import ExprLexer.Proofs.Token.Course
import ExprLexer.Proofs.Token.Issues

namespace ExprLexer.Report

variable {s : String}

theorem exists_run_eq (h : s.utf8ByteSize ≤ Buffer.maxLength) (config : Config) (files : Files)
    (device : Device) (hs : sourceText files config.input = .ok s) :
    ∃ outcome, run config files device = .ok outcome := by
  obtain ⟨ts, hl⟩ := exists_lexes 0 s
  exact ⟨_, run_eq_play hs (script_lexes h hl config)⟩

/-- Nothing that is done with a source that is not too long ends in a fault: neither its buffer, the
search for its issues, its tokens, its line table nor a session with its tokens, neither the span
nor the place of a token found, and no report, whatever its options, where its source comes from and
what its device takes. The sums that are not checked stay small: the padded size, the places of
issues and the number of tokens. -/
theorem no_fault (s : String) (h : s.utf8ByteSize ≤ Buffer.maxLength) :
    ∃ b c ts table, Buffer.ofText? s = .ok b ∧ b.cursor = .ok c ∧ b.tokens = .ok ts ∧
      (∀ find, Text.FindsFirst find → Issue.detect find s.toUTF8 = .ok b.issues) ∧
      LineTable.ofBuffer b = .ok table ∧
      (∀ calls, ∃ answers last, Session.run ⟨c, []⟩ calls = .ok (answers, last) ∧
        ∀ t ∈ ts ++ answers.flatMap Answer.tokens,
          (∃ span, t.span = .ok span) ∧ ∃ place, table.locate t = .ok place) ∧
      (∀ config files device, sourceText files config.input = .ok s →
        ∃ outcome, run config files device = .ok outcome) ∧
      s.utf8ByteSize + 2 + Buffer.blockSize < UInt64.size ∧ b.size ≤ Offset.bound ∧
      (∀ i ∈ b.issues, i.pos + i.length ≤ s.utf8ByteSize) ∧ ts.length ≤ s.utf8ByteSize + 1 := by
  obtain ⟨ts, hts⟩ := exists_lexes 0 s
  have hbound := Buffer.lt_bound h
  refine ⟨_, _, _, _, Buffer.ofText?_eq h, Buffer.cursor_pad h, Buffer.tokens_lexes hts h,
    fun _ hfind => Issue.detect_all hfind h, LineTable.ofBuffer_pad h, fun calls => ?_,
    exists_run_eq h, ?_, ?_, Issue.all_le h, ?_⟩
  · obtain ⟨answers, last, hrun, -, hanswers⟩ :=
      Session.run_tallied h hts.ne_eof (Session.tallied_start hts) calls
    refine ⟨answers, last, hrun, fun t ht => ?_⟩
    have ht : t.Stands s := hts.stands t ((List.mem_append.1 ht).elim id (hanswers t))
    exact ⟨⟨_, Token.span_stands h ht⟩, LineTable.locate_stands h ht⟩
  · unfold Offset.bound at hbound
    unfold Buffer.blockSize UInt64.size
    omega
  · rw [Buffer.size_pad]
    exact Buffer.paddedSize_le h
  · have := hts.length_le
    rw [List.length_append]
    simpa using this

/-- A file with a line feed inside and a character of two bytes, on a device with little room. -/
theorem no_fault_file : ∃ outcome, run ⟨.file "a", true, true⟩ (fun _ => .ok "é\n\x00with".toUTF8)
    ⟨some 40, .full⟩ = .ok outcome := by
  obtain ⟨-, -, -, -, -, -, -, -, -, -, hrun, -⟩ := no_fault "é\n\x00with" (by decide)
  exact hrun _ _ _ (by decide)

end ExprLexer.Report
