/-
The tokens of a source, one after the other. A cursor is all that is kept between two tokens. The
next token is found past white space: a longest run of letters or of digits, a punctuation mark, or
else a single character, whatever it is. At the end of the source the next token is the end, again
and again; a zero byte before the end is a character like any other.
-/
import ExprLexer.Source.Cursor
import ExprLexer.Token.Basic

namespace ExprLexer

def isLetter (b : UInt8) : Bool :=
  (0x61 ≤ b && b ≤ 0x7A) || (0x41 ≤ b && b ≤ 0x5A)

def isDigit (b : UInt8) : Bool := 0x30 ≤ b && b ≤ 0x39

namespace Cursor

/-! ## One token -/

/-- The token between two cursors, its kind given by its text, and the second of them. -/
def tokenUpTo (start stop : Cursor) (kind : String → Kind) : Except Fault (Token × Cursor) := do
  let text ← stop.sliceFrom start.pos
  return (⟨kind text, text, start.pos⟩, stop)

/-- The token at a cursor, where no white space stands, and the cursor after it. -/
def tokenHere (c : Cursor) : Except Fault (Token × Cursor) := do
  let b ← c.current
  if b = 0 && c.atEnd then
    return (⟨.eof, "", c.pos⟩, c)
  else if isLetter b then
    tokenUpTo c (← c.eatWhile isLetter) fun text => (Kind.ofKeyword? text).getD .ident
  else if isDigit b then
    tokenUpTo c (← c.eatWhile isDigit) fun _ => .number
  else
    match Kind.ofPunctuation? b with
    | some kind => tokenUpTo c (← c.advance) fun _ => kind
    | none => tokenUpTo c (← c.advanceChar) fun _ => .unknown

/-- The next token, which may be the end, and the cursor after it. -/
def next (c : Cursor) : Except Fault (Token × Cursor) := do
  (← c.eatSpace).tokenHere

/-- The next token unless it is the end, and the cursor after it. -/
def next? (c : Cursor) : Except Fault (Option Token × Cursor) := do
  let (t, c) ← c.next
  return (if t.isEof then none else some t, c)

def isDone (c : Cursor) : Except Fault Bool := do
  return (← c.eatSpace).atEnd

/-! ## All of them -/

/-- A number of calls that comes to the end: every token before it takes a byte at least. -/
def callsLeft (c : Cursor) : Nat := c.buffer.length - c.pos + 1

def drain : Nat → Cursor → Except Fault (List Token × Cursor)
  | 0, c => .ok ([], c)
  | n + 1, c => do
    let (t, c) ← c.next
    if t.isEof then return ([t], c) else
      let (ts, c) ← drain n c
      return (t :: ts, c)

/-- The next tokens up to the end and without it, from at most `n` calls. -/
def collect : Nat → Cursor → Except Fault (List Token × Cursor)
  | 0, c => .ok ([], c)
  | n + 1, c => do
    match ← c.next? with
    | (none, c) => return ([], c)
    | (some t, c) =>
      let (ts, c) ← collect n c
      return (t :: ts, c)

/-- The tokens before the end that are left, and the cursor after the end was found. -/
def rest (c : Cursor) : Except Fault (List Token × Cursor) := collect c.callsLeft c

end Cursor

def Buffer.tokens (b : Buffer) : Except Fault (List Token) := do
  let c ← b.cursor
  return (← c.drain c.callsLeft).1

end ExprLexer
