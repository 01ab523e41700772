/-
The order of places. Reading on always leads to a later place, so places are in the order of their
positions; and it leads to every place that a line has: a column for each of its characters and one
more, for the line feed that ends it or for the end of the source.
-/
import ExprLexer.Proofs.Source.Lines

namespace ExprLexer

namespace LineCol

/-- A place on an earlier line, or on the same line further to the left. -/
def Before (p q : LineCol) : Prop := p.line < q.line ∨ p.line = q.line ∧ p.col < q.col

theorem compare_eq_lt_iff {p q : LineCol} : compare p q = .lt ↔ p.Before q := by
  show (compare p.line q.line).then (compare p.col q.col) = .lt ↔ _
  rw [Ordering.then_eq_lt, Nat.compare_eq_lt, Nat.compare_eq_eq, Nat.compare_eq_lt, Before]

theorem Before.trans {p q r : LineCol} (h : p.Before q) (h' : q.Before r) : p.Before r := by
  unfold Before at *
  omega

variable {p q : LineCol} {c : Char} {l line : List Char} {lines : List (List Char)}

/-! ## Reading on -/

theorem before_next (p : LineCol) (c : Char) : p.Before (p.next c) := by
  unfold next Before
  split <;> simp

theorem before_foldl (h : l ≠ []) (p : LineCol) : p.Before (l.foldl next p) := by
  induction l generalizing p with
  | nil => exact absurd rfl h
  | cons c l ih =>
    by_cases hl : l = []
    · subst hl
      exact before_next p c
    · exact (before_next p c).trans (ih hl _)

theorem after_before {pre mid : String} (h : mid ≠ "") :
    (after pre).Before (after (pre ++ mid)) := by
  rw [after, after, String.toList_append, List.foldl_append]
  exact before_foldl (by simpa using h) _

/-- Reading a text from a place on leads to another place. -/
def Leads (p : LineCol) (l : List Char) (q : LineCol) : Prop :=
  ∃ front, front <+: l ∧ front.foldl next p = q

theorem leads_nil : p.Leads [] q ↔ q = p := by
  simp [Leads, eq_comm]

theorem leads_cons : p.Leads (c :: l) q ↔ q = p ∨ (p.next c).Leads l q := by
  unfold Leads
  constructor
  · rintro ⟨front, hfront, rfl⟩
    rcases List.prefix_cons_iff.1 hfront with rfl | ⟨rest, rfl, hrest⟩
    · exact .inl rfl
    · exact .inr ⟨rest, hrest, rfl⟩
  · rintro (rfl | ⟨front, hfront, rfl⟩)
    · exact ⟨[], List.nil_prefix, rfl⟩
    · exact ⟨c :: front, List.prefix_cons_iff.2 (.inr ⟨front, rfl, hfront⟩), rfl⟩

/-! ## The places of lines -/

/-- Lines written from a place on have a place: a line starts at the first place, or else in column
one, and has one place more than characters. -/
def Holds (p : LineCol) (lines : List (List Char)) (q : LineCol) : Prop :=
  ∃ n line, lines[n]? = some line ∧ q.line = p.line + n ∧
    (if n = 0 then p.col else 1) ≤ q.col ∧ q.col ≤ (if n = 0 then p.col else 1) + line.length

theorem holds_cons : p.Holds (line :: lines) q ↔
    (q.line = p.line ∧ p.col ≤ q.col ∧ q.col ≤ p.col + line.length) ∨
      LineCol.Holds ⟨p.line + 1, 1⟩ lines q := by
  unfold Holds
  constructor
  · rintro ⟨n, line', hn, hq⟩
    cases n with
    | zero =>
      obtain rfl : line = line' := by simpa using hn
      exact .inl (by simpa using hq)
    | succ n =>
      refine .inr ⟨n, line', hn, ?_⟩
      simp at hq ⊢
      omega
  · rintro (hq | ⟨n, line', hn, hq⟩)
    · exact ⟨0, line, rfl, by simpa using hq⟩
    · refine ⟨n + 1, line', hn, ?_⟩
      simp at hq ⊢
      omega

theorem holds_nil : ¬ p.Holds [] q := by
  simp [Holds]

theorem eq_iff : q = p ↔ q.line = p.line ∧ q.col = p.col := by
  cases p
  cases q
  simp

/-- Reading a text leads to the places of its lines. -/
theorem leads_iff_holds : p.Leads l q ↔ p.Holds (l.splitOn '\n') q := by
  induction l generalizing p with
  | nil =>
    rw [leads_nil, List.splitOn_nil, holds_cons, eq_iff]
    simp only [holds_nil, or_false, List.length_nil]
    omega
  | cons c l ih =>
    rw [leads_cons, ih, List.splitOn_cons_eq_if_modifyHead, eq_iff, next]
    by_cases hc : c = '\n'
    · -- the line feed ends an empty line
      rw [if_pos hc, if_pos (by simpa using hc), holds_cons]
      refine or_congr_left ?_
      simp only [List.length_nil]
      omega
    · -- the first line is longer by the character
      obtain ⟨line, lines, hsplit⟩ :=
        List.exists_cons_of_ne_nil (List.splitOnP_ne_nil (· == '\n') l)
      rw [if_neg hc, if_neg (by simpa using hc), List.splitOn, hsplit, List.modifyHead_cons,
        holds_cons, holds_cons, ← or_assoc]
      refine or_congr_left ?_
      simp only [List.length_cons]
      omega

end LineCol

/-! ## The places of a source -/

/-- The lines of a text, without the line feeds between them. -/
def Text.lines (s : String) : List (List Char) := s.toList.splitOn '\n'

namespace LineTable

variable {s : String} {i j : Nat} {q : LineCol}

theorem lineCol_boundary (h : s.utf8ByteSize ≤ Buffer.maxLength) (hi : Text.Boundary s i) :
    ∃ pre rest, s = pre ++ rest ∧ i = pre.utf8ByteSize ∧
      (LineTable.mk s (lineStarts s)).lineCol i = .ok (LineCol.after pre) := by
  obtain ⟨pre, rest, rfl, rfl⟩ := hi
  exact ⟨pre, rest, rfl, rfl, lineCol_between h⟩

/-- Of two character boundaries the one further on has the later place. -/
theorem lineCol_lt (h : s.utf8ByteSize ≤ Buffer.maxLength) (hi : Text.Boundary s i)
    (hj : Text.Boundary s j) (hij : i < j) :
    ∃ p q, (LineTable.mk s (lineStarts s)).lineCol i = .ok p ∧
      (LineTable.mk s (lineStarts s)).lineCol j = .ok q ∧ compare p q = .lt := by
  obtain ⟨pre, rest, hs, rfl, hp⟩ := lineCol_boundary h hi
  obtain ⟨pre', rest', hs', rfl, hq⟩ := lineCol_boundary h hj
  obtain ⟨mid, rfl, -⟩ := Text.append_split (hs.symm.trans hs') (Nat.le_of_lt hij)
  have hmid : mid ≠ "" := by
    rintro rfl
    simp at hij
  exact ⟨_, _, hp, hq, LineCol.compare_eq_lt_iff.2 (LineCol.after_before hmid)⟩

/-- The places of a source are those of its lines. -/
theorem exists_lineCol_iff (h : s.utf8ByteSize ≤ Buffer.maxLength) :
    (∃ i, Text.Boundary s i ∧ (LineTable.mk s (lineStarts s)).lineCol i = .ok q) ↔
      ∃ n line, (Text.lines s)[n]? = some line ∧ q.line = n + 1 ∧
        1 ≤ q.col ∧ q.col ≤ line.length + 1 := by
  have hholds : LineCol.Holds ⟨1, 1⟩ (Text.lines s) q ↔ ∃ n line, (Text.lines s)[n]? = some line ∧
      q.line = n + 1 ∧ 1 ≤ q.col ∧ q.col ≤ line.length + 1 := by
    simp only [LineCol.Holds, ite_self, Nat.add_comm 1]
  rw [← hholds, Text.lines, ← LineCol.leads_iff_holds]
  constructor
  · rintro ⟨i, hi, hq⟩
    obtain ⟨pre, rest, rfl, -, hp⟩ := lineCol_boundary h hi
    obtain rfl := Except.ok.inj (hp.symm.trans hq)
    exact ⟨pre.toList, by simp, rfl⟩
  · rintro ⟨front, ⟨back, hsplit⟩, rfl⟩
    obtain rfl : String.ofList front ++ String.ofList back = s :=
      String.toList_inj.1 (by simpa using hsplit)
    refine ⟨_, ⟨_, _, rfl, rfl⟩, ?_⟩
    rw [lineCol_between h, LineCol.after, String.toList_ofList]

end LineTable

end ExprLexer
