/-
Places at character boundaries. The table of a source gives the position between two halves of it
the place that reading the first half from line one, column one leads to: past a line feed to the
start of the next line, past any other character to the next column.
-/
import ExprLexer.Proofs.Source.Cursor
import ExprLexer.Proofs.Text.Search
import ExprLexer.Source.Lines

namespace ExprLexer

namespace Text

theorem length_le (s : String) : s.length ≤ s.utf8ByteSize := by
  induction s using char_induction with
  | empty => simp
  | cons c t ih =>
    have := c.utf8Size_pos
    simp only [String.length_append, String.length_singleton, String.utf8ByteSize_append,
      String.utf8ByteSize_singleton]
    omega

end Text

theorem positionsOf_newline {s : String} (h : '\n' ∉ s.toList) : Text.positionsOf 0x0A s = [] :=
  Text.positionsOf_eq_nil (by decide) h

/-! ## Reading a text -/

/-- The place after a character. -/
def LineCol.next (p : LineCol) (c : Char) : LineCol :=
  if c = '\n' then ⟨p.line + 1, 1⟩ else ⟨p.line, p.col + 1⟩

/-- The place that reading a text from the first place leads to. -/
def LineCol.after (s : String) : LineCol := s.toList.foldl next ⟨1, 1⟩

/-- A text ends in the part of it that its last line is. -/
theorem exists_last_line (s : String) :
    ∃ a b, s = a ++ b ∧ '\n' ∉ b.toList ∧ (a = "" ∨ ∃ a', a = a' ++ "\n") := by
  -- from the front: what stands before a line feed does not change the last line
  induction s using Text.char_induction with
  | empty => exact ⟨"", "", by simp, by simp, .inl rfl⟩
  | cons c t ih =>
    obtain ⟨a, b, rfl, hb, rfl | ⟨a, rfl⟩⟩ := ih
    · by_cases hc : c = '\n'
      · exact ⟨"\n", b, by rw [hc, String.empty_append]; rfl, hb, .inr ⟨"", by simp⟩⟩
      · exact ⟨"", String.singleton c ++ b, by simp, by simp [hb, Ne.symm hc], .inl rfl⟩
    · refine ⟨String.singleton c ++ a ++ "\n", b, ?_, hb, .inr ⟨_, rfl⟩⟩
      simp only [String.append_assoc]

namespace LineCol

theorem line_foldl (s : String) (p : LineCol) :
    (s.toList.foldl next p).line = p.line + (Text.positionsOf 0x0A s).length := by
  induction s using Text.char_induction generalizing p with
  | empty => rfl
  | cons c t ih =>
    rw [String.toList_append, List.foldl_append, ih, Text.positionsOf_append, List.length_append,
      List.length_map, ← Nat.add_assoc]
    congr 1
    by_cases hc : c = '\n'
    · subst hc
      rfl
    · rw [positionsOf_newline (by simpa using Ne.symm hc)]
      simp [next, hc]

theorem col_foldl {s : String} (h : '\n' ∉ s.toList) (p : LineCol) :
    (s.toList.foldl next p).col = p.col + s.length := by
  induction s using Text.char_induction generalizing p with
  | empty => rfl
  | cons c t ih =>
    simp only [String.toList_append, String.toList_singleton, List.mem_append, List.mem_singleton,
      not_or] at h
    rw [String.toList_append, List.foldl_append, ih h.2, String.length_append]
    simp [next, Ne.symm h.1, Nat.add_assoc]

/-- The place after a text whose last line is known. -/
theorem after_append {a b : String} (ha : a = "" ∨ ∃ a', a = a' ++ "\n") (hb : '\n' ∉ b.toList) :
    after (a ++ b) = ⟨(Text.positionsOf 0x0A a).length + 1, b.length + 1⟩ := by
  have hcol : (after a).col = 1 := by
    rcases ha with rfl | ⟨a', rfl⟩
    · rfl
    · rw [after, String.toList_append, List.foldl_append]
      rfl
  have hline : (after a).line = 1 + _ := line_foldl a ⟨1, 1⟩
  have hline' := line_foldl b (after a)
  rw [positionsOf_newline hb, hline] at hline'
  have hcol' := col_foldl hb (after a)
  rw [hcol] at hcol'
  rw [after, String.toList_append, List.foldl_append, ← after, LineCol.mk.injEq]
  exact ⟨by rw [hline', List.length_nil]; omega, by omega⟩

end LineCol

/-! ## The table -/

section mapM

variable {α β : Type} {f : α → Except Fault β} {l : List α}

theorem mapM_eq_ok {g : α → β} (h : ∀ x ∈ l, f x = .ok (g x)) : l.mapM f = .ok (l.map g) := by
  induction l with
  | nil => rfl
  | cons x l ih =>
    rw [List.mapM_cons, h x (by simp), ih fun y hy => h y (List.mem_cons_of_mem _ hy)]
    rfl

end mapM

/-- The positions at which the lines of a text start. -/
def lineStarts (s : String) : List Nat := 0 :: (Text.positionsOf 0x0A s).map (· + 1)

theorem lineStarts_append (s t : String) : lineStarts (s ++ t) =
    lineStarts s ++ (Text.positionsOf 0x0A t).map (· + s.utf8ByteSize + 1) := by
  rw [lineStarts, Text.positionsOf_append, List.map_append, List.map_map]
  rfl

theorem length_lineStarts (s : String) :
    (lineStarts s).length = (Text.positionsOf 0x0A s).length + 1 := by
  simp [lineStarts]

theorem le_of_mem_lineStarts {s : String} {i : Nat} (h : i ∈ lineStarts s) :
    i ≤ s.utf8ByteSize := by
  simp only [lineStarts, List.mem_cons, List.mem_map] at h
  rcases h with rfl | ⟨j, hj, rfl⟩
  · omega
  · have := Text.lt_of_mem_positionsOf hj
    omega

/-- The line after a text that is empty or ends in a line feed starts right behind it. -/
theorem lineStarts_getElem? {a : String} (ha : a = "" ∨ ∃ a', a = a' ++ "\n") (t : String) :
    (lineStarts (a ++ t))[(Text.positionsOf 0x0A a).length]? = some a.utf8ByteSize := by
  rw [lineStarts_append, List.getElem?_append_left (by rw [length_lineStarts]; omega)]
  rcases ha with rfl | ⟨a', rfl⟩
  · rfl
  · have hn : Text.positionsOf 0x0A "\n" = [0] := rfl
    simp [lineStarts, Text.positionsOf_append, hn]
    rfl

namespace LineTable

variable {s pre rest : String}

/-- The table of a source, whatever search finds its line feeds. -/
theorem build_pad {places : UInt8 → ByteArray → List Nat} (hplaces : Text.FindsAll places)
    (h : s.utf8ByteSize ≤ Buffer.maxLength) :
    build places (Buffer.pad s) = .ok ⟨s, lineStarts s⟩ := by
  have hadd : ∀ i ∈ Text.positionsOf 0x0A s, Offset.add (Offset.ofLength i) 1 = .ok (i + 1) := by
    intro i hi
    have := Text.lt_of_mem_positionsOf hi
    have := Buffer.lt_bound h
    rw [Buffer.ofLength_eq (by omega), Offset.add_eq (by omega)]
  unfold build
  rw [Buffer.text_pad h]
  simp only [bind, Except.bind, hplaces.eq]
  rw [← Text.positionsOf, mapM_eq_ok hadd]
  rfl

theorem ofBuffer_pad (h : s.utf8ByteSize ≤ Buffer.maxLength) :
    ofBuffer (Buffer.pad s) = .ok ⟨s, lineStarts s⟩ := build_pad Text.findsAll_placesOf h

/-- The lines that start at the position between two halves or before are those of the first. -/
theorem findIdx_lineStarts (pre rest : String) :
    (lineStarts (pre ++ rest)).findIdx (pre.utf8ByteSize < ·) = (lineStarts pre).length := by
  have h : (lineStarts pre).findIdx (pre.utf8ByteSize < ·) = (lineStarts pre).length := by
    refine List.findIdx_eq_length_of_false fun i hi => ?_
    have := le_of_mem_lineStarts hi
    simpa using this
  rw [lineStarts_append, List.findIdx_append, h, if_neg (Nat.lt_irrefl _)]
  cases Text.positionsOf 0x0A rest with
  | nil => simp
  | cons i l =>
    have : pre.utf8ByteSize < i + pre.utf8ByteSize + 1 := by omega
    simp [List.findIdx_cons, this]

theorem line_between (h : pre.utf8ByteSize ≤ Buffer.maxLength) :
    (LineTable.mk (pre ++ rest) (lineStarts (pre ++ rest))).line pre.utf8ByteSize =
      .ok ((Text.positionsOf 0x0A pre).length + 1) := by
  have := Text.length_positionsOf_le 0x0A pre
  have := Buffer.lt_bound h
  unfold line
  dsimp only
  rw [findIdx_lineStarts, length_lineStarts]
  exact Offset.add_eq (by omega)

/-- The place of the position between two halves of a source is the place after the first. -/
theorem lineCol_between (h : (pre ++ rest).utf8ByteSize ≤ Buffer.maxLength) :
    (LineTable.mk (pre ++ rest) (lineStarts (pre ++ rest))).lineCol pre.utf8ByteSize =
      .ok (LineCol.after pre) := by
  obtain ⟨a, b, rfl, hb, ha⟩ := exists_last_line pre
  have hmin : min (a ++ b).utf8ByteSize (Offset.ofLength (a ++ b ++ rest).utf8ByteSize) =
      (a ++ b).utf8ByteSize := by
    rw [Buffer.ofLength_eq h]; simp
  -- the last line of the first half is that of its end, and starts where the end does
  have hn : (Text.positionsOf 0x0A (a ++ b)).length = (Text.positionsOf 0x0A a).length := by
    rw [Text.positionsOf_append, positionsOf_newline hb]; simp
  have hstart : (lineStarts (a ++ b ++ rest))[(Text.positionsOf 0x0A a).length]? =
      some a.utf8ByteSize := by
    rw [String.append_assoc]
    exact lineStarts_getElem? ha _
  have hcut : Text.cut (a ++ b ++ rest) a.utf8ByteSize (a ++ b).utf8ByteSize = .ok b :=
    Text.cut_eq_ok_iff.2 ⟨a, rest, rfl, rfl, by simp⟩
  have hadd : Offset.add b.length 1 = .ok (b.length + 1) := by
    have := Text.length_le b
    have := Buffer.lt_bound h
    simp only [String.utf8ByteSize_append] at this
    exact Offset.add_eq (by omega)
  have hsize : (a ++ b).utf8ByteSize ≤ Buffer.maxLength := by
    rw [String.utf8ByteSize_append] at h; omega
  unfold lineCol
  dsimp only
  rw [hmin, line_between hsize, hn]
  simp only [bind, Except.bind, Nat.add_sub_cancel, hstart, hcut, hadd]
  rw [LineCol.after_append ha hb]
  rfl

end LineTable

end ExprLexer
