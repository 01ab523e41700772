/-
Making a report. A file is read before anything is printed; the line of the input is printed before
the source is looked at. Then each issue is logged, and the tokens are read one after the other,
each of them logged, counted and printed before the next is read. The line of the version comes
last. A report is first written as a script and then played on a device, so what a device with
little room shows is the start of what one with enough shows.
-/
import ExprLexer.Report.Failure
import ExprLexer.Report.Listing
import ExprLexer.Token.Stream

namespace ExprLexer.Report

/-- The text that a report is about. -/
def sourceText (files : Files) : Input → Except Failure String
  | .inline text => .ok text
  | .file path => (files.text path).mapError (.unreadable path)

/-- The table that places are taken from, if they are printed. -/
def tableOf (positions : Bool) (b : Buffer) : Except Fault (Option LineTable) :=
  if positions then some <$> LineTable.ofBuffer b else .ok none

/-- The steps for a token: it is logged, and printed unless it is the end. -/
def tokenSteps (names : Bool) (table : Option LineTable) (t : Token) :
    Except Fault (List Step) := do
  if t.isEof then return [.log (.token t)] else
    let place ← table.mapM (·.locate t)
    return [.log (.token t), .print (Listing.tokenLine names place t)]

/-- The steps for the tokens from a cursor on, at most `n` of them, and the counts after those that
were counted before. The end is logged and not counted. -/
def listFrom (names : Bool) (table : Option LineTable) :
    Nat → Cursor → Summary → Except Fault (List Step × Summary)
  | 0, _, counts => .ok ([], counts)
  | n + 1, c, counts => do
    let (t, c) ← c.next
    let steps ← tokenSteps names table t
    if t.isEof then return (steps, counts) else
      let (rest, counts) ← listFrom names table n c (counts.count t)
      return (steps ++ rest, counts)

/-- The steps for the issues of a source: all are logged, and then warned of. -/
def issueSteps (issues : List Issue) : List Step :=
  issues.map (fun issue => .log (.issueFound issue))
    ++ issues.map fun issue => .log (.issueWarned issue)

/-- What a report does, and how it ends if nothing is refused. -/
structure Script where
  steps : List Step
  ending : Except Failure Summary

/-- The steps of a report from its first line to the look at the source. -/
def opening (config : Config) (source : String) : List Step :=
  [.print (Listing.inputLine config.input), .log (.scanning source.utf8ByteSize)]

def script (config : Config) (source : String) : Except Fault Script := do
  match Buffer.ofText? source with
  | .error cause => return ⟨opening config source, .error (.source cause)⟩
  | .ok b =>
    let table ← tableOf config.positions b
    let c ← b.cursor
    let (listed, summary) ← listFrom config.names table c.callsLeft c .zero
    return ⟨opening config source ++ issueSteps b.issues ++ listed
      ++ [.print Listing.versionLine, .log (.complete summary)], .ok summary⟩

structure Outcome where
  result : Except Failure Summary
  output : ByteArray
  events : List Event

def Script.play (s : Script) (device : Device) : Outcome :=
  let (transcript, played) := device.play .empty s.steps
  { result := match played with
      | .ok () => s.ending
      | .error cause => .error (.unwritable cause)
    output := transcript.output
    events := transcript.events.toList }

def run (config : Config) (files : Files) (device : Device) : Except Fault Outcome := do
  match sourceText files config.input with
  | .error failure => return ⟨.error failure, .empty, []⟩
  | .ok source => return (← script config source).play device

end ExprLexer.Report
