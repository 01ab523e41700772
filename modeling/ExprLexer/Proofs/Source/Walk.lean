/-
Walks with a cursor over a source. A user moves a cursor by bytes, by characters and over runs of
bytes, cuts pieces out of the source, keeps cursors and goes back to them. One move keeps all
cursors in the source, and so a walk of any length does; nothing fails on the way but a slice whose
bounds are not those of a piece of the source.
-/
import ExprLexer.Proofs.Source.Moves

namespace ExprLexer

/-! ## Moves -/

/-- What can be asked of a cursor. -/
inductive Move where
  | advance
  | advanceChar
  | eatSpace
  /-- To go past a run of bytes with a property that a zero lacks. -/
  | eatWhile (p : UInt8 → Bool) (ends : p 0 = false)
  | slice (start stop : Nat)
  | sliceFrom (start : Nat)
  /-- That the cursor is kept. -/
  | save
  /-- To go on from a kept cursor, the newest one being the first. -/
  | restore (i : Nat)

/-- The bounds of the piece that a move cuts out, if it does. -/
def Move.bounds? (c : Cursor) : Move → Option (Nat × Nat)
  | slice start stop => some (start, stop)
  | sliceFrom start => some (start, c.pos)
  | advance | advanceChar | eatSpace | eatWhile _ _ | save | restore _ => none

/-- A cursor that is moved, and the cursors that are kept. -/
structure Walk where
  cursor : Cursor
  saved : List Cursor
  deriving DecidableEq

namespace Walk

/-- Makes a move, which gives a piece if it cuts one out. There is nothing to go back to before a
cursor has been kept. -/
def move (w : Walk) : Move → Except Fault (Option String × Walk)
  | .advance => do return (none, { w with cursor := ← w.cursor.advance })
  | .advanceChar => do return (none, { w with cursor := ← w.cursor.advanceChar })
  | .eatSpace => do return (none, { w with cursor := ← w.cursor.eatSpace })
  | .eatWhile p _ => do return (none, { w with cursor := ← w.cursor.eatWhile p })
  | .slice start stop => do return (some (← w.cursor.slice start stop), w)
  | .sliceFrom start => do return (some (← w.cursor.sliceFrom start), w)
  | .save => .ok (none, { w with saved := w.cursor :: w.saved })
  | .restore i => .ok (none, { w with cursor := w.saved.getD i w.cursor })

def run (w : Walk) : List Move → Except Fault Walk
  | [] => .ok w
  | m :: ms => do
    let (_, w) ← w.move m
    w.run ms

/-- All cursors of a walk stand in a source. -/
structure InSource (s : String) (w : Walk) : Prop where
  cursor : w.cursor.InSource s
  saved : ∀ c ∈ w.saved, c.InSource s

variable {s : String} {w w' : Walk} {m : Move} {ms : List Move} {start stop : Nat}
  {piece : Option String} {fault : Fault}

/-! ## Single moves -/

theorem move_slice (hb : m.bounds? w.cursor = some (start, stop)) :
    w.move m = (w.cursor.slice start stop).map fun text => (some text, w) := by
  cases m <;> cases hb <;> rfl

theorem InSource.moved (hw : w.InSource s) {c : Cursor} (hc : c.InSource s) :
    InSource s { w with cursor := c } :=
  ⟨hc, hw.saved⟩

theorem InSource.getD (hw : w.InSource s) (i : Nat) :
    (w.saved.getD i w.cursor).InSource s := by
  rw [List.getD_eq_getElem?_getD]
  cases hi : w.saved[i]? with
  | none => exact hw.cursor
  | some c => exact hw.saved c (List.mem_of_getElem? hi)

/-- A move that cuts nothing out is made, and leaves the cursors in the source. Only one that goes
back to a kept cursor can lead to an earlier position. -/
theorem exists_move (h : s.utf8ByteSize ≤ Buffer.maxLength) (hw : w.InSource s)
    (hb : m.bounds? w.cursor = none) : ∃ w', w.move m = .ok (none, w') ∧ w'.InSource s ∧
      ((∀ i, m ≠ .restore i) → w.cursor.pos ≤ w'.cursor.pos) := by
  have hle := hw.cursor.pos_le
  have run : ∀ p : UInt8 → Bool, p 0 = false → ∃ c, w.cursor.eatWhile p = .ok c ∧
      c.InSource s ∧ w.cursor.pos ≤ c.pos := by
    intro p hp
    obtain ⟨k, hk, hend, -⟩ := Cursor.eatWhile_inSource h hw.cursor hp
    exact ⟨_, hk, hw.cursor.moved hend, Nat.le_add_right ..⟩
  cases m with
  | advance =>
    refine ⟨_, by rw [move, Cursor.advance_inSource h hw.cursor]; rfl,
      hw.moved (hw.cursor.moved (Nat.min_le_right ..)), fun _ => ?_⟩
    show w.cursor.pos ≤ min _ _
    omega
  | advanceChar =>
    refine ⟨_, by rw [move, Cursor.advanceChar_inSource h hw.cursor]; rfl,
      hw.moved (hw.cursor.moved (Nat.min_le_right ..)), fun _ => ?_⟩
    show w.cursor.pos ≤ min _ _
    omega
  | eatSpace =>
    obtain ⟨c, hc, hin, hpos⟩ := run isSpace rfl
    exact ⟨_, by rw [move, Cursor.eatSpace, hc]; rfl, hw.moved hin, fun _ => hpos⟩
  | eatWhile p ends =>
    obtain ⟨c, hc, hin, hpos⟩ := run p ends
    exact ⟨_, by rw [move, hc]; rfl, hw.moved hin, fun _ => hpos⟩
  | slice start stop => cases hb
  | sliceFrom start => cases hb
  | save => exact ⟨_, rfl, ⟨hw.cursor, List.forall_mem_cons.2 ⟨hw.cursor, hw.saved⟩⟩, fun _ => le_rfl⟩
  | restore i => exact ⟨_, rfl, hw.moved (hw.getD i), fun hi => absurd rfl (hi i)⟩

theorem InSource.move (h : s.utf8ByteSize ≤ Buffer.maxLength) (hw : w.InSource s)
    (hm : w.move m = .ok (piece, w')) : w'.InSource s := by
  cases hb : m.bounds? w.cursor with
  | none =>
    obtain ⟨x, hx, hin, -⟩ := exists_move h hw hb
    rw [hm] at hx
    cases hx
    exact hin
  | some bounds =>
    rw [move_slice hb] at hm
    cases hs : w.cursor.slice bounds.1 bounds.2 with
    | error fault => simp [hs, Except.map] at hm
    | ok text =>
      rw [hs] at hm
      cases hm
      exact hw

/-! ## Whole walks -/

theorem InSource.run (h : s.utf8ByteSize ≤ Buffer.maxLength) (hw : w.InSource s)
    (hr : w.run ms = .ok w') : w'.InSource s := by
  induction ms generalizing w with
  | nil =>
    cases hr
    exact hw
  | cons m ms ih =>
    rw [Walk.run] at hr
    cases hm : w.move m with
    | error fault => simp [hm, bind, Except.bind] at hr
    | ok made =>
      rw [hm] at hr
      exact ih (hw.move h hm) hr

theorem exists_failing (hr : w.run ms = .error fault) : ∃ done m later w',
    ms = done ++ m :: later ∧ w.run done = .ok w' ∧ w'.move m = .error fault := by
  induction ms generalizing w with
  | nil => cases hr
  | cons m ms ih =>
    rw [run] at hr
    cases hm : w.move m with
    | error f =>
      rw [hm] at hr
      cases hr
      exact ⟨[], m, ms, w, rfl, rfl, hm⟩
    | ok made =>
      rw [hm] at hr
      obtain ⟨done, x, later, w', rfl, hdone, hx⟩ := ih hr
      refine ⟨m :: done, x, later, w', rfl, ?_, hx⟩
      rw [run, hm]
      exact hdone

end Walk

/-- What a cursor sees of a source: the byte at it and the one behind that, and zeros where the
source has none. -/
structure Cursor.Sees (s : String) (c : Cursor) : Prop where
  pos_le : c.pos ≤ s.utf8ByteSize
  atEnd : c.atEnd = true ↔ c.pos = s.utf8ByteSize
  current : c.current = .ok ((Text.bytes s).getD c.pos 0)
  peek : c.peek = .ok ((Text.bytes s).getD (c.pos + 1) 0)

theorem Cursor.InSource.sees {s : String} {c : Cursor} (h : s.utf8ByteSize ≤ Buffer.maxLength)
    (hc : c.InSource s) : c.Sees s := by
  constructor
  case pos_le => exact hc.pos_le
  case atEnd => rw [atEnd_eq_decide h hc, decide_eq_true_iff]
  case current => exact current_inSource hc
  case peek => exact peek_inSource h hc

namespace Walk

/-- What comes of a move: it is made and does not go back unless it is asked to, or it cuts out the
piece of the source between its bounds, and fails just if there is none. -/
structure Allows (s : String) (w : Walk) (m : Move) : Prop where
  move : m.bounds? w.cursor = none → ∃ w', w.move m = .ok (none, w') ∧
    ((∀ i, m ≠ .restore i) → w.cursor.pos ≤ w'.cursor.pos ∧
      (w.cursor.pos = s.utf8ByteSize → w'.cursor.pos = s.utf8ByteSize))
  slice : ∀ start stop, m.bounds? w.cursor = some (start, stop) →
    ((∃ fault, w.move m = .error fault) ↔ s.utf8ByteSize < stop ∨ stop < start ∨
      ¬ Text.Boundary s start ∨ ¬ Text.Boundary s stop) ∧
    ∀ piece w', w.move m = .ok (piece, w') → w' = w ∧ ∃ pre text suf, piece = some text ∧
      s = pre ++ text ++ suf ∧ start = pre.utf8ByteSize ∧ stop = start + text.utf8ByteSize

variable {s : String} {w : Walk}

theorem InSource.allows (h : s.utf8ByteSize ≤ Buffer.maxLength) (hw : w.InSource s) (m : Move) :
    w.Allows s m := by
  constructor
  case move =>
    intro hb
    obtain ⟨w', hm, hw', hpos⟩ := exists_move h hw hb
    refine ⟨w', hm, fun hi => ⟨hpos hi, fun hend => ?_⟩⟩
    have hle := hw'.cursor.pos_le
    have hmono := hpos hi
    omega
  case slice =>
    intro start stop hb
    rw [move_slice hb, ← Cursor.exists_slice_error_iff h hw.cursor]
    cases hs : w.cursor.slice start stop with
    | error fault => exact ⟨by simp [Except.map], by simp [Except.map]⟩
    | ok text =>
      obtain ⟨pre, suf, hsource, hstart, hstop⟩ := Cursor.slice_eq_ok h hw.cursor hs
      refine ⟨by simp [Except.map], ?_⟩
      rintro piece w' hm
      cases hm
      exact ⟨rfl, pre, text, suf, rfl, hsource, hstart, hstop⟩

/-- Wherever moves lead from the start of a source, the cursor stands in the source and sees its
bytes, and zeros behind them; no move goes back but the one that restores a cursor, and none leaves
the end of the source. Slices are cut out of the source wherever the cursor stands. Nothing else can
fail, and a slice only if its end is past the source, its start past its end, or one of them inside a
character. -/
theorem run_stays (s : String) (h : s.utf8ByteSize ≤ Buffer.maxLength) :
    ∃ b c, Buffer.ofText? s = .ok b ∧ b.cursor = .ok c ∧ c.pos = 0 ∧
      (∀ moves w, run ⟨c, []⟩ moves = .ok w → w.cursor.Sees s ∧ ∀ m, w.Allows s m) ∧
      ∀ moves fault, run ⟨c, []⟩ moves = .error fault →
        ∃ done m later w, moves = done ++ m :: later ∧ run ⟨c, []⟩ done = .ok w ∧
          w.move m = .error fault ∧ (m.bounds? w.cursor).isSome := by
  refine ⟨_, _, Buffer.ofText?_eq h, Buffer.cursor_pad h, rfl, fun moves w hr => ?_,
    fun moves fault hr => ?_⟩
  all_goals have hstart : InSource s ⟨.between "" s, []⟩ := ⟨Cursor.inSource_start s, by simp⟩
  · have hw := hstart.run h hr
    exact ⟨hw.cursor.sees h, hw.allows h⟩
  · obtain ⟨done, m, later, w, hmoves, hdone, hm⟩ := exists_failing hr
    refine ⟨done, m, later, w, hmoves, hdone, hm, ?_⟩
    have hw := hstart.run h hdone
    by_contra hb
    obtain ⟨w', hok, -⟩ := (hw.allows h m).move (by simpa using hb)
    rw [hm] at hok
    cases hok

/-- A cursor that goes back inside a character, in front of a NUL character. -/
theorem run_stays_inside : ∃ w,
    run ⟨.between "" "é\x00a", []⟩
      [.advance, .save, .eatWhile (· != 0) rfl, .advanceChar, .restore 0] = .ok w ∧
    w.cursor.pos = 1 ∧ w.cursor.current = .ok 0xA9 ∧ w.cursor.peek = .ok 0 ∧
    ∃ fault, w.move (.slice 1 2) = .error fault := by
  have hs : "é\x00a".utf8ByteSize ≤ Buffer.maxLength := by decide
  obtain ⟨b, c, hb, hc, -, hreach, -⟩ := run_stays "é\x00a" hs
  rw [Buffer.ofText?_eq hs] at hb
  cases hb
  rw [Buffer.cursor_pad hs] at hc
  cases hc
  have hrun : run ⟨.between "" "é\x00a", []⟩
      [.advance, .save, .eatWhile (· != 0) rfl, .advanceChar, .restore 0] =
        .ok ⟨⟨Buffer.pad "é\x00a", 1⟩, [⟨Buffer.pad "é\x00a", 1⟩]⟩ := by decide +kernel
  have hin : ¬ Text.Boundary "é\x00a" 1 := by
    rw [← Text.isValid_iff_boundary]
    decide
  obtain ⟨hsees, hallows⟩ := hreach _ _ hrun
  refine ⟨_, hrun, rfl, hsees.current.trans (by decide), hsees.peek.trans (by decide), ?_⟩
  exact ((hallows (.slice 1 2)).slice 1 2 rfl).1.2 (.inr (.inr (.inl hin)))

end Walk

end ExprLexer
