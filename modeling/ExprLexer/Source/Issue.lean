/-
What is odd about the encoding of a source that can be read all the same: a byte order mark in
front, and NUL characters inside. The NUL characters are found one after the other: the search for a
zero byte begins anew behind each that it has found, until there is none.
-/
import ExprLexer.Offset
import ExprLexer.Text.Search

namespace ExprLexer

/-- What is odd about a place in a source. -/
inductive IssueKind where
  /-- A byte order mark at the start. -/
  | byteOrderMark
  /-- A NUL character inside. -/
  | nul
  deriving DecidableEq, Repr

/-- How a kind of issue is written inside the printed form of a value. -/
def IssueKind.label : IssueKind → String
  | byteOrderMark => "Utf8Bom"
  | nul => "InteriorNull"

def IssueKind.describe : IssueKind → String
  | byteOrderMark => "byte order mark"
  | nul => "NUL byte"

/-- An odd place in a source: where it starts and how many bytes it takes. -/
structure Issue where
  kind : IssueKind
  pos : Nat
  length : Nat
  deriving DecidableEq, Repr

namespace Issue

/-- The issue of a byte order mark in front, if there is one. -/
def markOf (source : ByteArray) : List Issue :=
  if [0xEF, 0xBB, 0xBF].isPrefixOf source.data.toList then [⟨.byteOrderMark, 0, 3⟩] else []

/-- The issues of the zero bytes from an offset on. The search begins anew behind each of them. -/
def zerosFrom (find : UInt8 → ByteArray → Option Nat) (source : ByteArray) (offset : Nat) :
    Except Fault (List Issue) := do
  if _ : source.size < offset then throw .reversedBounds else
    match find 0 (source.extract offset source.size) with
    | none => return []
    | some i =>
      let absolute := offset + i
      let issues ← zerosFrom find source (absolute + 1)
      return if absolute < Offset.bound then ⟨.nul, absolute, 1⟩ :: issues else issues
termination_by source.size + 1 - offset

/-- The issues of a source, from front to back, the byte order mark before all others. -/
def detect (find : UInt8 → ByteArray → Option Nat) (source : ByteArray) :
    Except Fault (List Issue) := do
  return markOf source ++ (← zerosFrom find source 0)

variable {find : UInt8 → ByteArray → Option Nat} {source : ByteArray} {offset : Nat}

theorem exists_zerosFrom (hfind : Text.FindsFirst find) (h : offset ≤ source.size) :
    ∃ issues, zerosFrom find source offset = .ok issues := by
  induction offset using zerosFrom.induct find source with
  | case1 offset hlt => exact absurd h (Nat.not_le.2 hlt)
  | case2 offset _ hnone =>
    rw [zerosFrom, dif_neg (Nat.not_lt.2 h), hnone]
    exact ⟨[], rfl⟩
  | case3 offset _ i hi absolute ih =>
    -- a place that was found is inside, so the next search begins at the end at the latest
    have hlt := hfind.lt_size hi
    rw [ByteArray.size_extract] at hlt
    obtain ⟨issues, hrest⟩ := ih (by omega)
    rw [zerosFrom, dif_neg (Nat.not_lt.2 h), hi]
    simp only [hrest, absolute]
    exact ⟨_, rfl⟩

theorem exists_detect (hfind : Text.FindsFirst find) (source : ByteArray) :
    ∃ issues, detect find source = .ok issues := by
  obtain ⟨issues, h⟩ := exists_zerosFrom hfind (Nat.zero_le source.size)
  rw [detect, h]
  exact ⟨_, rfl⟩

/-- The issues of a source together with the search that found them, which is never cut short. -/
def found (source : String) : { issues // detect Text.firstOf source.toUTF8 = .ok issues } :=
  match h : detect Text.firstOf source.toUTF8 with
  | .ok issues => ⟨issues, rfl⟩
  | .error _ => False.elim <| by
    obtain ⟨issues, hok⟩ := exists_detect Text.findsFirst_firstOf source.toUTF8
    rw [h] at hok
    cases hok

def all (source : String) : List Issue := (found source).val

end Issue

end ExprLexer
