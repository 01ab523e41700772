/-
Where a report is printed. A device may have room for so many bytes only: it takes exactly these,
and what is printed after them is refused. Printing and logging are steps of a script, and playing
a script on a device ends at the first step that is refused.
-/
import ExprLexer.Report.Event

namespace ExprLexer

/-- Why a device refuses what is printed. -/
inductive WriteError where
  /-- It takes no more bytes. -/
  | full
  /-- It reports a failure of its own. -/
  | failed (description : String)
  deriving DecidableEq, Repr

def WriteError.message : WriteError → String
  | full => "failed to write whole buffer"
  | failed description => description

/-- Where a report is printed. -/
structure Device where
  /-- The number of bytes that it takes, if there is a limit. -/
  room : Option Nat
  /-- What it answers when more comes. -/
  refusal : WriteError
  deriving DecidableEq, Repr

def Device.unlimited : Device := ⟨none, .full⟩

/-- A step in the making of a report. -/
inductive Step where
  | log (event : Event)
  | print (text : String)
  deriving DecidableEq, Repr

/-- What has been printed and logged. -/
structure Transcript where
  output : ByteArray
  events : Array Event

def Transcript.empty : Transcript := ⟨.empty, #[]⟩

/-- What a device keeps of an output that is too large for it; none if it takes all of it. -/
def Device.cut? (d : Device) (output : ByteArray) : Option ByteArray :=
  match d.room with
  | none => none
  | some n => if n < output.size then some (output.extract 0 n) else none

/-- Plays a script after what has been done, up to the first refused step, of which the bytes that
there is room for are printed. -/
def Device.play (d : Device) (done : Transcript) :
    List Step → Transcript × Except WriteError Unit
  | [] => (done, .ok ())
  | .log event :: rest => d.play { done with events := done.events.push event } rest
  | .print text :: rest =>
    let output := done.output ++ text.toUTF8
    match d.cut? output with
    | some kept => ({ done with output := kept }, .error d.refusal)
    | none => d.play { done with output := output } rest

end ExprLexer
