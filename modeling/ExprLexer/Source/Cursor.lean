/-
Cursors: byte positions in a source buffer. A cursor moves by bytes, by whole characters, or over a
run of bytes with a property. Runs are not compared with the length of the source: the zero after
it ends every run whose property a zero lacks. A cursor is a value, so keeping an earlier one is
all it takes to go back.
-/
import ExprLexer.Source.Buffer

namespace ExprLexer

/-- A byte position in a source buffer. -/
structure Cursor where
  buffer : Buffer
  pos : Nat
  deriving DecidableEq, Repr

/-- The bytes that separate tokens: the space, the tab, the line feed, the vertical tab, the form
feed and the carriage return. -/
def isSpace (b : UInt8) : Bool :=
  b = 0x20 || (0x09 ≤ b && b ≤ 0x0D)

/-- The number of bytes that a character takes by its first byte; a byte that starts none counts
for itself. -/
def charWidth (b : UInt8) : Nat :=
  if 0xC0 ≤ b && b ≤ 0xDF then 2
  else if 0xE0 ≤ b && b ≤ 0xEF then 3
  else if 0xF0 ≤ b && b ≤ 0xF7 then 4
  else 1

/-- The start of a source. The byte after it has to be a zero. -/
def Buffer.cursor (b : Buffer) : Except Fault Cursor := do
  if (← b.byte b.length) = 0 then return ⟨b, 0⟩ else throw .missingSentinel

namespace Cursor

/-! ## Looking -/

/-- The byte at the cursor; a zero at the end of the source. -/
def current (c : Cursor) : Except Fault UInt8 := c.buffer.byte c.pos

/-- The byte after the one at the cursor; a zero if the source has none there. -/
def peek (c : Cursor) : Except Fault UInt8 := do
  let next ← Offset.add c.pos 1
  if c.buffer.length ≤ next then return 0 else c.buffer.byte next

def atEnd (c : Cursor) : Bool := c.buffer.length ≤ c.pos

def slice (c : Cursor) (start stop : Nat) : Except Fault String :=
  if c.buffer.length < stop then .error .pastSource else Text.cut c.buffer.padded start stop

def sliceFrom (c : Cursor) (start : Nat) : Except Fault String := c.slice start c.pos

/-! ## Moving -/

def advance (c : Cursor) : Except Fault Cursor := do
  if c.atEnd then return c else return { c with pos := ← Offset.add c.pos 1 }

/-- One character on, unless at the end; never past it. -/
def advanceChar (c : Cursor) : Except Fault Cursor := do
  if c.atEnd then return c else
    let next ← Offset.add c.pos (charWidth (← c.current))
    return { c with pos := min next c.buffer.length }

/-- Past the bytes with a property, of which `n` are left at most. -/
def skipRun (p : UInt8 → Bool) : Nat → Cursor → Except Fault Cursor
  | 0, _ => .error .pastPadding
  | n + 1, c => do
    if p (← c.current) then skipRun p n { c with pos := ← Offset.add c.pos 1 } else return c

/-- Past the run of bytes with a property. The padded text ends the search, so a property of the
zero that all bytes from the cursor on have is a fault. -/
def eatWhile (p : UInt8 → Bool) (c : Cursor) : Except Fault Cursor :=
  skipRun p (c.buffer.size - c.pos) c

def eatSpace (c : Cursor) : Except Fault Cursor := c.eatWhile isSpace

end Cursor

end ExprLexer
