/-
Properties of characters given by a table of code point ranges, ascending and disjoint.
-/
namespace ExprLexer.Text

/-- Whether a code point lies in a range of an ascending table; both ends belong to a range. -/
def inRanges : List (Nat × Nat) → Nat → Bool
  | [], _ => false
  | (first, last) :: rest, n => first ≤ n && (n ≤ last || inRanges rest n)

end ExprLexer.Text
