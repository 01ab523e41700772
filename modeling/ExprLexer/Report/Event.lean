/-
What is logged while a report is made. An event has a level, the part of the program that it comes
from, a message and fields, and is one line of a log.
-/
import ExprLexer.Report.Summary
import ExprLexer.Source.Issue

namespace ExprLexer

/-- How much an event matters. -/
inductive Level where
  | trace
  | debug
  | info
  | warn
  | error
  deriving DecidableEq, Repr

namespace Level

def name : Level → String
  | trace => "TRACE"
  | debug => "DEBUG"
  | info => "INFO"
  | warn => "WARN"
  | error => "ERROR"

/-- The place of a level in the order from the least to the most severe. -/
def severity : Level → Nat
  | trace => 0
  | debug => 1
  | info => 2
  | warn => 3
  | error => 4

/-- The name of a level set to the right in five columns. -/
def column (l : Level) : String :=
  String.ofList (List.replicate (5 - l.name.length) ' ') ++ l.name

end Level

/-- Something that happened while a report was made. -/
inductive Event where
  /-- A source of this many bytes is about to be read. -/
  | scanning (length : Nat)
  | issueFound (issue : Issue)
  /-- The user is warned of an issue. -/
  | issueWarned (issue : Issue)
  /-- A token was read, or the end. -/
  | token (token : Token)
  | complete (summary : Summary)
  deriving DecidableEq, Repr

inductive FieldValue where
  | number (n : Nat)
  | word (s : String)
  deriving DecidableEq, Repr

def FieldValue.display : FieldValue → String
  | number n => toString n
  | word s => s

namespace Event

def level : Event → Level
  | scanning _ => .debug
  | issueFound _ => .debug
  | issueWarned _ => .warn
  | token _ => .trace
  | complete _ => .info

/-- The part of the program that an event comes from. -/
def target : Event → String
  | scanning _ => "slc::driver"
  | issueFound _ => "sl_lexer::source_buffer"
  | issueWarned _ => "slc::driver"
  | token _ => "sl_lexer::scanner"
  | complete _ => "slc::driver"

def message : Event → String
  | scanning _ => "scanning input"
  | issueFound _ => "encoding issue in source"
  | issueWarned issue => issue.kind.describe ++ " in input"
  | token _ => "token"
  | complete _ => "scan complete"

/-- The fields of an event, in the order in which they are printed. -/
def fields : Event → List (String × FieldValue)
  | scanning length => [("len", .number length)]
  | issueFound issue => [("kind", .word issue.kind.label), ("pos", .number issue.pos)]
  | issueWarned issue => [("pos", .number issue.pos)]
  | token t =>
    [("kind", .word t.kind.name), ("offset", .number t.offset), ("len", .number t.length)]
  | complete summary =>
    [("tokens", .number summary.tokens), ("unknown", .number summary.unknown)]

/-- An event as a line of a log, without the time in front of it and without the end of the line. -/
def line (e : Event) : String :=
  e.level.column ++ " " ++ e.target ++ ": " ++ e.message
    ++ String.join (e.fields.map fun (name, value) => " " ++ name ++ "=" ++ value.display)

end Event

end ExprLexer
