/-
What the program can be asked to do: print how it is used, print its version, or report the tokens
of a source.
-/
namespace ExprLexer

/-- Where a source comes from. -/
inductive Input where
  | inline (text : String)
  /-- A file, by its path. -/
  | file (path : String)
  deriving DecidableEq, Repr

/-- What a report reads and how it is laid out. -/
structure Config where
  input : Input
  /-- The place of each token is printed after it. -/
  positions : Bool
  /-- Kinds are printed by name, not by number. -/
  names : Bool
  deriving DecidableEq, Repr

/-- The report that is made if nothing is asked for: of the empty text, without places and names. -/
def Config.default : Config := ⟨.inline "", false, false⟩

/-- What the program is asked to do. -/
inductive Command where
  | lex (config : Config)
  | help
  | version
  deriving DecidableEq, Repr

/-- The name under which the program presents itself. -/
def programName : String := "simplelexer"

def version : String := "0.1.0"

def usage : String :=
  "simplelexer - a simple lexical analyzer\n\n"
    ++ "Usage: simplelexer [options] [<input expression>]\n\n"
    ++ "Options:\n"
    ++ "  -f, --file <path>   Read the input from a file\n"
    ++ "      --positions     Append '@ line:col' to every token\n"
    ++ "      --names         Print kind names instead of numbers\n"
    ++ "  -h, --help          Print this message\n"
    ++ "  -V, --version       Print version"

end ExprLexer
