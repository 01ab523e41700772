/-
The counts that a report ends with.
-/
import ExprLexer.Token.Basic

namespace ExprLexer

/-- How many tokens a source has before its end, and how many of these are unknown. -/
structure Summary where
  tokens : Nat
  unknown : Nat
  deriving DecidableEq, Repr

def Summary.zero : Summary := ⟨0, 0⟩

/-- The counts with one more token. -/
def Summary.count (s : Summary) (t : Token) : Summary where
  tokens := s.tokens + 1
  unknown := if t.is .unknown then s.unknown + 1 else s.unknown

end ExprLexer
