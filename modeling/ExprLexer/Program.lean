/-
The program as a whole: from its arguments, the files it may read and the log settings to its exit
code and what it prints. Failures are printed on the error stream after the log, and a usage error
is followed by an empty line and the usage.
-/
import ExprLexer.Report.Filter
import ExprLexer.Report.Run

namespace ExprLexer.Program

/-- How the program ends. -/
structure Exit where
  code : Nat
  stdout : ByteArray
  stderr : String

/-- The end of a program that has nothing to complain of. -/
def Exit.success (stdout : String) : Exit := ⟨0, stdout.toUTF8, ""⟩

def failureLine (f : Failure) : String := "error: " ++ f.message ++ "\n"

/-- The end of a program that has made a report. -/
def Exit.ofReport (logger : Logger) (settings : LogSettings) (o : Report.Outcome) : Exit :=
  let log := logger.log settings o.events
  match o.result with
  | .ok _ => ⟨0, o.output, log⟩
  | .error failure => ⟨failure.exitCode, o.output, log ++ failureLine failure⟩

/-- Runs the program with a logger, on a device that takes everything. -/
def runWith (logger : Logger) (args : List String) (files : Files) (settings : LogSettings) :
    Except Fault Exit := do
  match Command.ofArguments args with
  | .error cause =>
    let failure := Failure.usage cause
    return ⟨failure.exitCode, .empty, failureLine failure ++ "\n" ++ usage ++ "\n"⟩
  | .ok .help => return .success (usage ++ "\n")
  | .ok .version => return .success (programName ++ " " ++ version ++ "\n")
  | .ok (.lex config) =>
    return .ofReport logger settings (← Report.run config files .unlimited)

def run (args : List String) (files : Files) (settings : LogSettings) : Except Fault Exit :=
  runWith .standard args files settings

end ExprLexer.Program
