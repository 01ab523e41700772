/-
Command lines. Each argument is classified by itself, except that the one after `-f` or `--file` is
a path and those after `--` are expressions, whatever they look like. The arguments are read from
left to right, and the first one that decides the outcome ends the reading; that an expression and
a file exclude each other is seen at the end.
-/
import ExprLexer.Command.Basic

namespace ExprLexer

inductive UsageError where
  /-- A second expression. -/
  | extraArgument (arg : String)
  /-- The option stands last and needs a path after it. -/
  | missingPath (option : String)
  | unknownOption (arg : String)
  /-- An expression and a file. -/
  | twoInputs
  deriving DecidableEq, Repr

def UsageError.message : UsageError → String
  | extraArgument arg => s!"unexpected extra argument '{arg}'"
  | missingPath option => s!"'{option}' requires a path"
  | unknownOption arg => s!"unknown option '{arg}'"
  | twoInputs => "give either an expression or --file, not both"

namespace Command

/-- What an argument is by itself. -/
inductive Item where
  | expression
  /-- All arguments after it are expressions. -/
  | endOfOptions
  | help
  | version
  | positions
  | names
  /-- The next argument is the path of a file. -/
  | fileNext
  | file (path : String)
  | unknown
  deriving DecidableEq, Repr

/-- Whether an argument is an expression by its first two characters: it has no dash in front, it
is a dash, or a character follows the dash that is neither an ASCII letter nor a dash. -/
def looksLikeExpression (arg : String) : Bool :=
  match arg.toList with
  | '-' :: c :: _ => !(c.isAlpha || c == '-')
  | _ => true

/-- The path in an argument that names the option and the path at once. -/
def attachedPath? (arg : String) : Option String :=
  ("--file=".toList.isPrefixOf? arg.toList).map String.ofList

def Item.ofArgument (arg : String) : Item :=
  if looksLikeExpression arg then .expression
  else if arg = "--" then .endOfOptions
  else if arg = "-h" ∨ arg = "--help" then .help
  else if arg = "-V" ∨ arg = "--version" then .version
  else if arg = "--positions" then .positions
  else if arg = "--names" then .names
  else if arg = "-f" ∨ arg = "--file" then .fileNext
  else match attachedPath? arg with
    | some path => .file path
    | none => .unknown

/-- What the arguments read so far have asked for. -/
structure Request where
  expression : Option String
  file : Option String
  positions : Bool
  names : Bool
  deriving DecidableEq, Repr

def Request.empty : Request := ⟨none, none, false, false⟩

/-- A request with an expression added, if it has none yet. -/
def Request.addExpression (r : Request) (arg : String) : Except UsageError Request :=
  match r.expression with
  | none => .ok { r with expression := some arg }
  | some _ => .error (.extraArgument arg)

/-- The command that a request stands for when all arguments are read. -/
def Request.finish (r : Request) : Except UsageError Command :=
  match r.file, r.expression with
  | some _, some _ => .error .twoInputs
  | some path, none => .ok (.lex ⟨.file path, r.positions, r.names⟩)
  | none, some text => .ok (.lex ⟨.inline text, r.positions, r.names⟩)
  | none, none => .ok (.lex ⟨.inline "", r.positions, r.names⟩)

def readExpressions (r : Request) : List String → Except UsageError Command
  | [] => r.finish
  | arg :: rest => do readExpressions (← r.addExpression arg) rest

/-- Reads arguments after those of a request. -/
def readArguments (r : Request) : List String → Except UsageError Command
  | [] => r.finish
  | arg :: rest =>
    match Item.ofArgument arg with
    | .expression => do readArguments (← r.addExpression arg) rest
    | .endOfOptions => readExpressions r rest
    | .help => .ok .help
    | .version => .ok .version
    | .positions => readArguments { r with positions := true } rest
    | .names => readArguments { r with names := true } rest
    | .file path => readArguments { r with file := some path } rest
    | .fileNext =>
      match rest with
      | [] => .error (.missingPath arg)
      | path :: rest => readArguments { r with file := some path } rest
    | .unknown => .error (.unknownOption arg)

def ofArguments (args : List String) : Except UsageError Command :=
  readArguments .empty args

end Command

end ExprLexer
