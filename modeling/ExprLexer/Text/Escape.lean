/-
Text between double quotes on one line. A character that would end the quotes or the line, or that
cannot be seen, is written as an escape: `\0 \t \r \n \\` and the quote marks by a letter or by
themselves, any other by its code point, as in `\u{7f}`. The two styles differ in the apostrophe
and in where a character that attaches to the one before it is escaped.
-/
import ExprLexer.Text.GraphemeExtend
import ExprLexer.Text.Unprintable

namespace ExprLexer.Text

/-- What a style of escaping decides. -/
structure EscapeStyle where
  /-- The apostrophe is escaped. -/
  apostrophe : Bool
  /-- A character that attaches to the one before it is escaped wherever it stands, and not only
  at the start of the text. -/
  everyExtend : Bool
  deriving DecidableEq, Repr

def EscapeStyle.field : EscapeStyle := ⟨true, false⟩

def EscapeStyle.value : EscapeStyle := ⟨false, true⟩

/-- A character written by its code point, in lower-case hexadecimal without leading zeros. -/
def codeEscape (c : Char) : List Char :=
  ['\\', 'u', '\x7b'] ++ Nat.toDigits 16 c.toNat ++ ['\x7d']

/-- Whether a character is drawn on the one before it. The halfwidth katakana sound marks have the
property Grapheme_Extend too, but stand in a cell of their own. -/
def attaches (c : Char) : Bool :=
  isGraphemeExtend c && !(0xFF9E ≤ c.toNat && c.toNat ≤ 0xFF9F)

/-- Whether a character is written by its code point; `first` says that it starts the text. -/
def needsCode (style : EscapeStyle) (first : Bool) (c : Char) : Bool :=
  ((first || style.everyExtend) && attaches c) || isUnprintable c

def escapeChar (style : EscapeStyle) (first : Bool) (c : Char) : List Char :=
  if c = '\x00' then ['\\', '0']
  else if c = '\t' then ['\\', 't']
  else if c = '\r' then ['\\', 'r']
  else if c = '\n' then ['\\', 'n']
  else if c = '\\' then ['\\', '\\']
  else if c = '\x22' then ['\\', '\x22']
  else if c = '\x27' ∧ style.apostrophe then ['\\', '\x27']
  else if needsCode style first c then codeEscape c
  else [c]

def escapeChars (style : EscapeStyle) : Bool → List Char → List Char
  | _, [] => []
  | first, c :: rest => escapeChar style first c ++ escapeChars style false rest

/-- The written form of a text, without the quotes around it. -/
def escape (style : EscapeStyle) (s : String) : String :=
  String.ofList (escapeChars style true s.toList)

/-- A text in quotes, as it stands inside the printed form of a value. -/
def quoted (s : String) : String :=
  "\"" ++ escape .value s ++ "\""

end ExprLexer.Text
