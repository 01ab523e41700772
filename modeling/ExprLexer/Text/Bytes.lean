/-
A text as bytes: the byte at a position, the list of all of them, and the piece between two
positions. A piece can only be cut at positions that stand on a character boundary.
-/
import ExprLexer.Fault

namespace ExprLexer.Text

def bytes (s : String) : List UInt8 := s.toByteArray.data.toList

/-- The byte at a position of a text, if there is one. -/
def byteAt? (s : String) (i : Nat) : Option UInt8 :=
  if h : (⟨i⟩ : String.Pos.Raw) < s.rawEndPos then some (s.getUTF8Byte ⟨i⟩ h) else none

/-- The piece of a text between two positions. -/
def cut (s : String) (start stop : Nat) : Except Fault String :=
  if stop < start then .error .reversedBounds
  else match s.pos? ⟨start⟩, s.pos? ⟨stop⟩ with
    | some first, some last => .ok (s.extract first last)
    | _, _ => .error .insideCharacter

end ExprLexer.Text
