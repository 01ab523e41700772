/-
Lines and columns. Both count from one; a line ends after a line feed, and the column counts
characters, not bytes. The table of line starts is made once for a source.
-/
import ExprLexer.Source.Buffer
import ExprLexer.Token.Basic

namespace ExprLexer

/-- A place in a source as a reader counts it. -/
structure LineCol where
  line : Nat
  col : Nat
  deriving DecidableEq, Repr

/-- Places are ordered by line, and on one line by column. -/
instance : Ord LineCol :=
  ⟨fun a b => (compare a.line b.line).then (compare a.col b.col)⟩

def LineCol.display (p : LineCol) : String := s!"{p.line}:{p.col}"

/-- A source and the positions at which its lines start, ascending from zero. -/
structure LineTable where
  source : String
  starts : List Nat
  deriving DecidableEq, Repr

namespace LineTable

/-- The table of a source: a line starts behind each line feed that the search finds. -/
def build (places : UInt8 → ByteArray → List Nat) (b : Buffer) : Except Fault LineTable := do
  let source ← b.text
  let starts ← (places 0x0A source.toUTF8).mapM fun i => Offset.add (Offset.ofLength i) 1
  return ⟨source, 0 :: starts⟩

def ofBuffer (b : Buffer) : Except Fault LineTable := build Text.placesOf b

def lineCount (t : LineTable) : Nat := t.starts.length

/-- The line of a position: the number of lines that start there or before. A position past the
source is on the last line. -/
def line (t : LineTable) (offset : Nat) : Except Fault Nat :=
  match t.starts.findIdx (offset < ·) with
  | 0 => .error .noSuchLine
  | n + 1 => Offset.add n 1

/-- The place of a position; a position past the source is taken to its end. -/
def lineCol (t : LineTable) (offset : Nat) : Except Fault LineCol := do
  let offset := min offset (Offset.ofLength t.source.utf8ByteSize)
  let line ← t.line offset
  match t.starts[line - 1]? with
  | none => throw .noSuchLine
  | some start =>
    let before ← Text.cut t.source start offset
    return ⟨line, ← Offset.add before.length 1⟩

/-- The place of the first character of a token. -/
def locate (t : LineTable) (token : Token) : Except Fault LineCol := t.lineCol token.offset

end LineTable

end ExprLexer
