/-
The kinds of tokens: a closed set in a fixed order. The place of a kind in that order is its
number, which reports print in place of the name unless they are asked for names.
-/
namespace ExprLexer

/-- What a token is. -/
inductive Kind where
  /-- The end of the source; its text is empty. -/
  | eof
  /-- One character that belongs to no other kind. -/
  | unknown
  /-- A longest run of ASCII letters that is not a reserved word. -/
  | ident
  /-- A longest run of ASCII digits. -/
  | number
  | comma
  | colon
  | plus
  | minus
  | star
  | slash
  | leftParen
  | rightParen
  /-- The reserved word `with`. -/
  | kwWith
  deriving DecidableEq, Repr

namespace Kind

/-- Every kind, in order. -/
def all : List Kind :=
  [eof, unknown, ident, number, comma, colon, plus, minus, star, slash, leftParen, rightParen,
   kwWith]

/-- The place of a kind among all kinds. -/
def toNat : Kind → Nat
  | eof => 0
  | unknown => 1
  | ident => 2
  | number => 3
  | comma => 4
  | colon => 5
  | plus => 6
  | minus => 7
  | star => 8
  | slash => 9
  | leftParen => 10
  | rightParen => 11
  | kwWith => 12

def ofNat? (n : Nat) : Option Kind := all[n]?

/-- Kinds are ordered by their numbers. -/
instance : Ord Kind := ⟨fun a b => compare a.toNat b.toNat⟩

def name : Kind → String
  | eof => "eof"
  | unknown => "unknown"
  | ident => "ident"
  | number => "number"
  | comma => "comma"
  | colon => "colon"
  | plus => "plus"
  | minus => "minus"
  | star => "star"
  | slash => "slash"
  | leftParen => "l_paren"
  | rightParen => "r_paren"
  | kwWith => "kw_with"

/-- How a kind is written inside the printed form of a value. -/
def label : Kind → String
  | eof => "Eof"
  | unknown => "Unknown"
  | ident => "Ident"
  | number => "Number"
  | comma => "Comma"
  | colon => "Colon"
  | plus => "Plus"
  | minus => "Minus"
  | star => "Star"
  | slash => "Slash"
  | leftParen => "LeftParen"
  | rightParen => "RightParen"
  | kwWith => "KwWith"

/-- The text of the kinds that are always spelled alike. -/
def lexeme? : Kind → Option String
  | comma => some ","
  | colon => some ":"
  | plus => some "+"
  | minus => some "-"
  | star => some "*"
  | slash => some "/"
  | leftParen => some "("
  | rightParen => some ")"
  | kwWith => some "with"
  | eof | unknown | ident | number => none

def isPunctuation : Kind → Bool
  | comma | colon | plus | minus | star | slash | leftParen | rightParen => true
  | eof | unknown | ident | number | kwWith => false

def isKeyword : Kind → Bool
  | kwWith => true
  | _ => false

/-- The kind of a punctuation mark, by its byte. -/
def ofPunctuation? (b : UInt8) : Option Kind :=
  match b.toNat with
  | 0x28 => some leftParen
  | 0x29 => some rightParen
  | 0x2A => some star
  | 0x2B => some plus
  | 0x2C => some comma
  | 0x2D => some minus
  | 0x2F => some slash
  | 0x3A => some colon
  | _ => none

/-- The kind of a reserved word; capitals do not match. -/
def ofKeyword? (text : String) : Option Kind :=
  if text = "with" then some kwWith else none

end Kind

end ExprLexer
