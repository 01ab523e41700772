/-
Broken contracts. A buffer is read by position, its text is cut between positions and positions
are added, and each of these relies on something: that the position is inside, that it stands on
a character boundary, that the sum still fits. An operation whose reliance does not hold ends in a
`Fault`; nothing is clamped, so that a missing fault means the reliance held.
-/
namespace ExprLexer

/-- What an operation relied on and did not find. -/
inductive Fault where
  /-- A byte was read at a position past the padded text. -/
  | pastPadding
  /-- The byte after the source is not the closing zero. -/
  | missingSentinel
  /-- A slice ends past the source. -/
  | pastSource
  /-- A slice starts past its end. -/
  | reversedBounds
  /-- A text was cut at a position that is not on a character boundary of it. -/
  | insideCharacter
  /-- A position stands before the first line, or a line was asked for that is not there. -/
  | noSuchLine
  /-- A sum of positions does not fit. -/
  | overflow
  deriving DecidableEq, Repr

end ExprLexer
