/-
The lines of a report: the input, each token, and the version of the program. Quoted fields are
escaped, so that each stays on its line.
-/
import ExprLexer.Command.Basic
import ExprLexer.Source.Lines

namespace ExprLexer.Listing

def field (s : String) : String := "\"" ++ Text.escape .field s ++ "\""

/-- The line of the input: the text itself, or the path of its file. -/
def inputLine : Input → String
  | .inline text => "Input: " ++ field text ++ "\n"
  | .file path => "Input file: " ++ field path ++ "\n"

/-- How a kind is shown: by its name or by its number. -/
def kindField (names : Bool) (k : Kind) : String :=
  if names then k.name else toString k.toNat

/-- The line of a token, with its place if one is given. -/
def tokenLine (names : Bool) (place : Option LineCol) (t : Token) : String :=
  "token type: " ++ kindField names t.kind ++ ", token text: " ++ field t.text
    ++ (match place with
      | some p => " @ " ++ p.display
      | none => "")
    ++ "\n"

def versionLine : String := programName ++ " version " ++ version ++ "\n"

end ExprLexer.Listing
