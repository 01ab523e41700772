/-
Source buffers. A source is kept with zeros after it, so that whoever reads it byte by byte meets a
zero at its end and need not compare each position with the length. The zeros fill the text up to a
whole number of blocks, and there are always two of them at least. A source that would bring a
position out of range is refused.
-/
import ExprLexer.Offset
import ExprLexer.Source.Issue

namespace ExprLexer

inductive SourceError where
  | tooLong (length limit : Nat)
  deriving DecidableEq, Repr

def SourceError.message : SourceError → String
  | tooLong length limit =>
    s!"source is {length} bytes, exceeding the maximum of {limit} bytes"

/-- A source followed by zeros. -/
structure Buffer where
  /-- The source and the zeros after it. -/
  padded : String
  /-- The number of bytes of the source. -/
  length : Nat
  /-- What is odd about the encoding of the source. -/
  issues : List Issue
  deriving DecidableEq, Repr

namespace Buffer

/-- The number of bytes that a padded text is a multiple of. -/
def blockSize : Nat := 64

/-- The number of bytes of the longest source. -/
def maxLength : Nat := Offset.bound - 1 - blockSize

/-- The size of the padded text: the blocks that hold the source and two zeros. -/
def paddedSize (length : Nat) : Nat :=
  (length + 2 + (blockSize - 1)) / blockSize * blockSize

/-- A text padded with zeros, with its issues. -/
def pad (source : String) : Buffer where
  padded :=
    let n := source.utf8ByteSize
    source ++ String.ofList (List.replicate (paddedSize n - n) '\x00')
  length := Offset.ofLength source.utf8ByteSize
  issues := Issue.all source

def checkLength (n : Nat) : Except SourceError Unit :=
  if n ≤ maxLength then .ok () else .error (.tooLong n maxLength)

/-- The buffer of a source, if it is not too long. -/
def ofText? (source : String) : Except SourceError Buffer := do
  checkLength source.utf8ByteSize
  return pad source

/-- The longest list of first characters that takes at most `n` bytes. -/
def takeBytes : Nat → List Char → List Char
  | _, [] => []
  | n, c :: rest => if c.utf8Size ≤ n then c :: takeBytes (n - c.utf8Size) rest else []

/-- The buffer of a source, or of as much of it as is not too long. -/
def ofText (source : String) : Buffer :=
  match ofText? source with
  | .ok b => b
  | .error _ => pad (String.ofList (takeBytes maxLength source.toList))

def size (b : Buffer) : Nat := b.padded.utf8ByteSize

def isEmpty (b : Buffer) : Bool := b.length == 0

def text (b : Buffer) : Except Fault String := Text.cut b.padded 0 b.length

/-- The byte at a position of the padded text. -/
def byte (b : Buffer) (i : Nat) : Except Fault UInt8 :=
  match Text.byteAt? b.padded i with
  | some x => .ok x
  | none => .error .pastPadding

end Buffer

end ExprLexer
