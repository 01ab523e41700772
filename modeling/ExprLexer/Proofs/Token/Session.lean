/-
Sessions with a stream of tokens. A user asks for tokens one at a time, in either of two ways, or
for all that are left, asks whether any are, and keeps cursors to go back to. Every token of a
source stands in it where it says, so its span fits.
-/
import ExprLexer.Proofs.Token.Segmentation

namespace ExprLexer

/-! ## Calls -/

/-- What can be asked for. -/
inductive Call where
  /-- The next token, which may be the end. -/
  | next
  /-- The next token unless it is the end. -/
  | next?
  /-- All tokens before the end. -/
  | rest
  /-- Whether nothing but white space is left. -/
  | isDone
  /-- That the cursor is kept. -/
  | save
  /-- To go on from a kept cursor, the newest one being the first. -/
  | restore (i : Nat)
  deriving DecidableEq, Repr

/-- What comes of a call. -/
inductive Answer where
  | token (t : Token)
  | item (t : Option Token)
  | items (ts : List Token)
  | flag (b : Bool)
  | none
  deriving DecidableEq, Repr

def Answer.tokens : Answer → List Token
  | token t => [t]
  | item t => t.toList
  | items ts => ts
  | flag _ | none => []

/-- A cursor in use, and the cursors that are kept. -/
structure Session where
  cursor : Cursor
  saved : List Cursor
  deriving DecidableEq, Repr

namespace Session

/-- Answers a call. There is nothing to go back to before a cursor has been kept. -/
def call (s : Session) : Call → Except Fault (Answer × Session)
  | .next => do
    let (t, c) ← s.cursor.next
    return (.token t, { s with cursor := c })
  | .next? => do
    let (t, c) ← s.cursor.next?
    return (.item t, { s with cursor := c })
  | .rest => do
    let (ts, c) ← s.cursor.rest
    return (.items ts, { s with cursor := c })
  | .isDone => do
    return (.flag (← s.cursor.isDone), s)
  | .save => .ok (.none, { s with saved := s.cursor :: s.saved })
  | .restore i => .ok (.none, { s with cursor := s.saved.getD i s.cursor })

def run (s : Session) : List Call → Except Fault (List Answer × Session)
  | [] => .ok ([], s)
  | x :: xs => do
    let (a, s) ← s.call x
    let (as, s) ← s.run xs
    return (a :: as, s)

end Session

/-! ## Standing in a source -/

/-- A token whose text stands in a source at its position. -/
def Token.Stands (s : String) (t : Token) : Prop :=
  ∃ pre suf, s = pre ++ t.text ++ suf ∧ t.offset = pre.utf8ByteSize

theorem Token.stands_eof (s : String) : Token.Stands s ⟨.eof, "", s.utf8ByteSize⟩ :=
  ⟨s, "", by simp, rfl⟩

variable {s pre rest : String} {t : Token}

theorem Lexes.stands {ts : List Token} (h : Lexes 0 s ts) :
    ∀ t ∈ ts ++ [⟨.eof, "", s.utf8ByteSize⟩], t.Stands s := by
  intro t ht
  rcases List.mem_append.1 ht with ht | ht
  · obtain ⟨p, q, hs, ho, -, -⟩ := h.place t ht
    exact ⟨p, q, hs, by omega⟩
  · rw [List.mem_singleton.1 ht]
    exact Token.stands_eof s

theorem Token.span_stands (h : s.utf8ByteSize ≤ Buffer.maxLength) (ht : t.Stands s) :
    t.span = .ok (t.offset, t.offset + t.text.utf8ByteSize) := by
  obtain ⟨pre, suf, rfl, ho⟩ := ht
  have := Buffer.lt_bound h
  simp only [String.utf8ByteSize_append] at h this
  have hlen : t.length = t.text.utf8ByteSize := Buffer.ofLength_eq (by omega)
  unfold span
  rw [hlen, Offset.add_eq (by omega)]
  rfl

/-! ## Answers -/

namespace Cursor

/-- Nothing is left exactly when the second half is white space. -/
theorem isDone_between (h : (pre ++ rest).utf8ByteSize ≤ Buffer.maxLength) :
    ∃ b, (between pre rest).isDone = .ok b ∧ (b = true ↔ Blank rest) := by
  obtain ⟨gap, suf, rfl, hgap, hsuf⟩ := exists_run isBlank rest
  refine ⟨(between (pre ++ gap) suf).atEnd, ?_, ?_⟩
  · rw [isDone, eatSpace_between h hgap hsuf]; rfl
  · rw [atEnd_iff (by rwa [String.append_assoc])]
    constructor
    · rintro rfl
      simpa using hgap
    · exact fun hb => eq_empty_of_within_of_stops (within_append.1 hb).2 hsuf

end Cursor

namespace Session

theorem run_cons {w w₁ w₂ : Session} {x : Call} {xs : List Call} {a : Answer} {as : List Answer}
    (hx : w.call x = .ok (a, w₁)) (hxs : w₁.run xs = .ok (as, w₂)) :
    w.run (x :: xs) = .ok (a :: as, w₂) := by
  rw [run, hx]
  simp [bind, Except.bind, hxs, pure, Except.pure]

end Session

end ExprLexer
