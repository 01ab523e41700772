/-
Positions count bytes and fit in 32 bits. Lengths taken from a text are reduced to that range,
and a sum that leaves it is a fault.
-/
import ExprLexer.Fault

namespace ExprLexer.Offset

/-- One more than the largest position. -/
def bound : Nat := 0x100000000

/-- A length brought into the range of positions. -/
def ofLength (n : Nat) : Nat := n % bound

/-- The sum of two positions, where it is one. -/
def add (a b : Nat) : Except Fault Nat :=
  if a + b < bound then .ok (a + b) else .error .overflow

end ExprLexer.Offset
