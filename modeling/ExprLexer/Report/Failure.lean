/-
Why the program ends without having done what it was asked for: the wording of each cause, and the
exit code that goes with it.
-/
import ExprLexer.Command.Arguments
import ExprLexer.Files.Error
import ExprLexer.Report.Device
import ExprLexer.Source.Buffer

namespace ExprLexer

/-- Why the program ends without having done what it was asked for. -/
inductive Failure where
  | usage (cause : UsageError)
  | unreadable (path : String) (cause : ReadError)
  | source (cause : SourceError)
  | unwritable (cause : WriteError)
  deriving DecidableEq, Repr

def Failure.message : Failure → String
  | usage cause => cause.message
  | unreadable path cause => s!"cannot read '{path}': " ++ cause.message
  | source cause => cause.message
  | unwritable cause => "cannot write output: " ++ cause.message

def Failure.exitCode : Failure → Nat
  | usage _ => 2
  | unreadable _ _ => 1
  | source _ => 1
  | unwritable _ => 1

end ExprLexer
