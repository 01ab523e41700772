/-
Places looked up at any position. The line of a position is one more than the number of line feeds
before it: the table has the start of the first line and one for each line feed, ascending, so it
does not matter how the table is searched. The column counts the characters from there, which can be
cut out exactly if the position, taken to the end of the source if it is past it, is on a character
boundary.
-/
import ExprLexer.Proofs.Source.Lines

namespace ExprLexer

/-! ## Searching an ascending list -/

/-- What a search for a number in an ascending list answers. -/
inductive Search where
  /-- The number stands at this index. -/
  | found (i : Nat)
  /-- The number is missing, and can be put in at this index. -/
  | missing (i : Nat)
  deriving DecidableEq, Repr

namespace Search

/-- Which answers are right for a list and a number. -/
def Answers (l : List Nat) (x : Nat) : Search → Prop
  | found i => l[i]? = some x
  | missing i => i ≤ l.length ∧ (∀ y ∈ l.take i, y < x) ∧ ∀ y ∈ l.drop i, x < y

/-- The line of a position, by a search for it among the starts of lines: the line that starts
there, or else the one before the first that starts further on. -/
def line : Search → Except Fault Nat
  | found i => .ok (i + 1)
  | missing 0 => .error .noSuchLine
  | missing (i + 1) => .ok (i + 1)

variable {l : List Nat} {x : Nat}

/-- Where a list is cut between what is up to a number and what is past it, the first part is as
long as the list has members up to the number. -/
theorem countP_eq {k : Nat} (hk : k ≤ l.length) (hfront : ∀ y ∈ l.take k, y ≤ x)
    (hback : ∀ y ∈ l.drop k, x < y) : l.countP (· ≤ x) = k := by
  have hf : (l.take k).countP (· ≤ x) = (l.take k).length :=
    List.countP_eq_length.2 fun y hy => by simpa using hfront y hy
  have hb : (l.drop k).countP (· ≤ x) = 0 :=
    List.countP_eq_zero.2 fun y hy => by simpa using hback y hy
  rw [← List.take_append_drop k l, List.countP_append, hf, hb, List.length_take]
  omega

/-- An ascending list is cut so at the first of its members that is past the number. -/
theorem findIdx_cut (h : l.Pairwise (· < ·)) (x : Nat) :
    (∀ y ∈ l.take (l.findIdx (x < ·)), y ≤ x) ∧ ∀ y ∈ l.drop (l.findIdx (x < ·)), x < y := by
  induction l with
  | nil => simp
  | cons z l ih =>
    obtain ⟨hz, hl⟩ := List.pairwise_cons.1 h
    by_cases hx : x < z
    · rw [List.findIdx_cons, decide_eq_true hx]
      refine ⟨by simp, fun y hy => ?_⟩
      rcases List.mem_cons.1 hy with rfl | hy
      exacts [hx, Nat.lt_trans hx (hz y hy)]
    · rw [List.findIdx_cons, decide_eq_false hx]
      refine ⟨fun y hy => ?_, (ih hl).2⟩
      rcases List.mem_cons.1 hy with rfl | hy
      exacts [Nat.not_lt.1 hx, (ih hl).1 y hy]

theorem findIdx_eq (h : l.Pairwise (· < ·)) (x : Nat) :
    l.findIdx (x < ·) = l.countP (· ≤ x) :=
  (countP_eq List.findIdx_le_length (findIdx_cut h x).1 (findIdx_cut h x).2).symm

theorem exists_answers (h : l.Pairwise (· < ·)) (x : Nat) : ∃ a : Search, a.Answers l x := by
  by_cases hx : x ∈ l
  · obtain ⟨i, hi⟩ := List.getElem?_of_mem hx
    exact ⟨found i, hi⟩
  · obtain ⟨hfront, hback⟩ := findIdx_cut h x
    refine ⟨missing (l.findIdx (x < ·)), List.findIdx_le_length, fun y hy => ?_, hback⟩
    have hne : y ≠ x := fun hyx => hx (hyx ▸ List.mem_of_mem_take hy)
    have := hfront y hy
    omega

/-- Every right answer gives the number of lines that start at a position or before. -/
theorem line_eq (h : l.Pairwise (· < ·)) {a : Search} (ha : a.Answers l x)
    (hpos : 0 < l.countP (· ≤ x)) : a.line = .ok (l.countP (· ≤ x)) := by
  cases a with
  | found i =>
    -- what stands before the number is smaller, and what stands behind it is larger
    obtain ⟨hlt, hget⟩ := List.getElem?_eq_some_iff.1 ha
    rw [line, countP_eq hlt]
    · intro y hy
      obtain ⟨j, hj, rfl⟩ := List.mem_take_iff_getElem.1 hy
      rw [← hget]
      rcases Nat.lt_or_eq_of_le (show j ≤ i by omega) with hji | rfl
      exacts [Nat.le_of_lt (List.pairwise_iff_getElem.1 h j i (by omega) hlt hji), Nat.le_refl _]
    · intro y hy
      obtain ⟨j, hj, rfl⟩ := List.mem_drop_iff_getElem.1 hy
      rw [← hget]
      exact List.pairwise_iff_getElem.1 h i (i + 1 + j) hlt (by omega) (by omega)
  | missing i =>
    obtain ⟨hi, hfront, hback⟩ := ha
    have hcount := countP_eq hi (fun y hy => Nat.le_of_lt (hfront y hy)) hback
    rw [hcount] at hpos ⊢
    obtain ⟨i, rfl⟩ : ∃ j, i = j + 1 := ⟨i - 1, by omega⟩
    rfl

end Search

/-! ## The starts of lines -/

theorem lineStarts_pairwise (s : String) : (lineStarts s).Pairwise (· < ·) := by
  rw [lineStarts, List.pairwise_cons, List.pairwise_map]
  refine ⟨fun i hi => ?_, (Text.positionsOf_pairwise 0x0A s).imp fun h => Nat.add_lt_add_right h 1⟩
  obtain ⟨j, -, rfl⟩ := List.mem_map.1 hi
  omega

/-- The lines that start at a position or before it are the first one and one more for each line
feed before it. -/
theorem countP_lineStarts (s : String) (o : Nat) :
    (lineStarts s).countP (· ≤ o) = 1 + ((Text.bytes s).take o).count 0x0A := by
  rw [lineStarts, List.countP_cons_of_pos (by simp), List.countP_map, ← Text.countP_positionsOf,
    Nat.add_comm]
  rfl

namespace LineTable

variable {s : String} {o : Nat}

theorem line_lineStarts (h : s.utf8ByteSize ≤ Buffer.maxLength) (o : Nat) :
    (LineTable.mk s (lineStarts s)).line o = .ok (1 + ((Text.bytes s).take o).count 0x0A) := by
  have hle : ((Text.bytes s).take o).count 0x0A ≤ s.utf8ByteSize := by
    have hcount := List.count_le_length (a := 0x0A) (l := (Text.bytes s).take o)
    rw [List.length_take, Text.length_bytes] at hcount
    omega
  have := Buffer.lt_bound h
  unfold line
  dsimp only
  rw [Search.findIdx_eq (lineStarts_pairwise s), countP_lineStarts, Nat.add_comm]
  exact Offset.add_eq (by omega)

theorem exists_lineStart (s : String) (o : Nat) :
    ∃ start, (lineStarts s)[((Text.bytes s).take o).count 0x0A]? = some start ∧ start ≤ o := by
  have hidx : ((Text.bytes s).take o).count 0x0A < (lineStarts s).findIdx (o < ·) := by
    rw [Search.findIdx_eq (lineStarts_pairwise s), countP_lineStarts]
    omega
  have hlt := Nat.lt_of_lt_of_le hidx List.findIdx_le_length
  refine ⟨_, List.getElem?_eq_getElem hlt, ?_⟩
  exact (Search.findIdx_cut (lineStarts_pairwise s) o).1 _
    (List.mem_take_iff_getElem.2 ⟨_, by omega, rfl⟩)

theorem lineCol_min (h : s.utf8ByteSize ≤ Buffer.maxLength) (o : Nat) (starts : List Nat) :
    (LineTable.mk s starts).lineCol o = (LineTable.mk s starts).lineCol (min o s.utf8ByteSize) := by
  unfold lineCol
  dsimp only
  rw [Buffer.ofLength_eq h, Nat.min_assoc, Nat.min_self]

theorem lineCol_inside (h : s.utf8ByteSize ≤ Buffer.maxLength) (hle : o ≤ s.utf8ByteSize)
    (ho : ¬ Text.Boundary s o) :
    (LineTable.mk s (lineStarts s)).lineCol o = .error .insideCharacter := by
  obtain ⟨start, hstart, hso⟩ := exists_lineStart s o
  unfold lineCol
  dsimp only
  rw [Buffer.ofLength_eq h, Nat.min_eq_left hle, line_lineStarts h]
  simp only [bind, Except.bind, Nat.add_sub_cancel_left, hstart]
  rw [Text.cut_error hso fun hb => ho hb.2]

/-- Looking up a position is counting. The table is the same whatever search finds the line feeds.
The line of a position is one more than the number of line feeds before it, however the table is
searched, and its place is the one that reading the source up to it leads to. A position past the
end is taken to the end for its place, and is on the last line. There is no place exactly inside a
character. -/
theorem lookup_eq_count (s : String) (h : s.utf8ByteSize ≤ Buffer.maxLength) :
    ∃ b table, Buffer.ofText? s = .ok b ∧ ofBuffer b = .ok table ∧
      (∀ places, Text.FindsAll places → build places b = .ok table) ∧
      table.starts.Pairwise (· < ·) ∧
      ∀ o, table.line o = .ok (1 + ((Text.bytes s).take o).count 0x0A) ∧
        (s.utf8ByteSize ≤ o → table.line o = .ok table.lineCount) ∧
        (∃ a : Search, a.Answers table.starts o) ∧
        (∀ a : Search, a.Answers table.starts o → table.line o = a.line) ∧
        (∀ pre rest, s = pre ++ rest → min o s.utf8ByteSize = pre.utf8ByteSize →
          table.lineCol o = .ok (LineCol.after pre)) ∧
        (¬ Text.Boundary s (min o s.utf8ByteSize) →
          table.lineCol o = .error .insideCharacter) := by
  have hsorted := lineStarts_pairwise s
  refine ⟨Buffer.pad s, ⟨s, lineStarts s⟩, Buffer.ofText?_eq h, ofBuffer_pad h,
    fun _ hplaces => build_pad hplaces h, hsorted,
    fun o => ⟨line_lineStarts h o, fun ho => ?_, Search.exists_answers hsorted o, fun a ha => ?_,
      fun pre rest hs ho => ?_, fun ho => ?_⟩⟩
  · have hall : (lineStarts s).countP (· ≤ o) = (lineStarts s).length :=
      List.countP_eq_length.2 fun i hi => by
        have := le_of_mem_lineStarts hi
        simp only [decide_eq_true_eq]
        omega
    rw [line_lineStarts h, ← countP_lineStarts, hall]
    rfl
  · have hcount := countP_lineStarts s o
    rw [line_lineStarts h, Search.line_eq hsorted ha (by omega), hcount]
  · rw [lineCol_min h, ho]
    subst hs
    exact lineCol_between h
  · rw [lineCol_min h]
    exact lineCol_inside h (Nat.min_le_right _ _) ho

/-- A position inside a character, and one past the end of a source that ends in a line feed. -/
theorem lookup_eq_count_inside : ∃ table, (Buffer.ofText? "é\n").toOption.map ofBuffer =
      some (.ok table) ∧ table.line 1 = .ok 1 ∧ table.lineCol 1 = .error .insideCharacter ∧
    table.line 7 = .ok 2 ∧ table.lineCol 7 = .ok ⟨2, 1⟩ := by
  obtain ⟨b, table, hb, htable, -, -, hat⟩ := lookup_eq_count "é\n" (by decide)
  have hinside : ¬ Text.Boundary "é\n" (min 1 "é\n".utf8ByteSize) := by
    rw [← Text.isValid_iff_boundary]
    decide
  refine ⟨table, by simp [hb, htable, Except.toOption], ?_, (hat 1).2.2.2.2.2 hinside, ?_, ?_⟩
  · exact (hat 1).1.trans (by decide)
  · exact (hat 7).1.trans (by decide)
  · exact (hat 7).2.2.2.2.1 "é\n" "" (by simp) (by decide)

end LineTable

end ExprLexer
