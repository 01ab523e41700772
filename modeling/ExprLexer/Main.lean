/-
The command line program. It reads the file that the arguments ask for, and prints what the rest of
the library makes of it.
-/
import ExprLexer.Program

namespace ExprLexer

/-- Whether a code that the system gives for an error is `n`; it may be negated. -/
def isErrorCode (code n : UInt32) : Bool := code == n || code == 0 - n

/-- Why the system did not let a file be read. -/
def ReadError.ofSystem (e : IO.Error) : ReadError :=
  match e with
  | .noFileOrDirectory .. => .notFound
  | .inappropriateType _ code _ =>
    if isErrorCode code 20 then .notADirectory
    else if isErrorCode code 21 then .isADirectory
    else .other (toString e)
  | .invalidArgument _ code _ =>
    if isErrorCode code 36 then .nameTooLong else .other (toString e)
  | _ => .other (toString e)

def Command.readFiles : Except UsageError Command → IO Files
  | .ok (.lex ⟨.file path, _, _⟩) => do
    try
      let content ← IO.FS.readBinFile path
      return fun _ => .ok content
    catch e => return fun _ => .error (ReadError.ofSystem e)
  | _ => return fun _ => .error .notFound

end ExprLexer

open ExprLexer in
/-- Runs the program on the arguments; a broken contract ends it with the code 101. -/
def main (args : List String) : IO UInt32 := do
  let own ← IO.getEnv LogSettings.ownName
  let shared ← IO.getEnv LogSettings.sharedName
  let files ← Command.readFiles (Command.ofArguments args)
  match Program.run args files ⟨own, shared⟩ with
  | .error _ =>
    IO.eprintln "error: a contract of the program was broken"
    return 101
  | .ok exit =>
    let stdout ← IO.getStdout
    stdout.write exit.stdout
    stdout.flush
    IO.eprint exit.stderr
    return exit.code.toUInt32
