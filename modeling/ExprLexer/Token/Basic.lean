/-
Tokens: a kind, the piece of source it was read from, and the byte position of that piece. Printed,
a token is the name of its kind, followed by its text in quotes if it has one.
-/
import ExprLexer.Offset
import ExprLexer.Text.Escape
import ExprLexer.Token.Kind

namespace ExprLexer

/-- One lexical unit of a source. -/
structure Token where
  kind : Kind
  /-- The characters it was read from. -/
  text : String
  /-- The position of the first of them; of the end, the length of the source. -/
  offset : Nat
  deriving DecidableEq, Repr

namespace Token

def length (t : Token) : Nat := Offset.ofLength t.text.utf8ByteSize

/-- The positions at which a token starts and ends. -/
def span (t : Token) : Except Fault (Nat × Nat) := do
  return (t.offset, ← Offset.add t.offset t.length)

def isEmpty (t : Token) : Bool := t.text.isEmpty

def is (t : Token) (k : Kind) : Bool := t.kind == k

def isOneOf (t : Token) (ks : List Kind) : Bool := ks.any t.is

def isEof (t : Token) : Bool := t.is .eof

/-- The short printed form: the name, and the text if there is one. -/
def display (t : Token) : String :=
  if t.isEmpty then t.kind.name else t.kind.name ++ "(" ++ Text.quoted t.text ++ ")"

/-- The full printed form: every part under its name. -/
def record (t : Token) : String :=
  "Token \x7b kind: " ++ t.kind.label ++ ", text: " ++ Text.quoted t.text ++ ", offset: "
    ++ toString t.offset ++ " \x7d"

end Token

end ExprLexer
