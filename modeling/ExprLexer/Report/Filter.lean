/-
Which events are logged, and how. The program looks at two settings, of which its own wins over the
shared one even if it is empty; what the setting means and what the line of an event looks like is
left to a logger. The one given here reads a setting as a filter, which names the least severe level
that is shown, and may restrict the log to a part of the program by the first letters of its name.
-/
import ExprLexer.Report.Event

namespace ExprLexer

structure Filter where
  /-- How the target of a logged event starts. -/
  target : String
  /-- The least severe level that is logged; none if nothing is. -/
  threshold : Option Level
  deriving DecidableEq, Repr

/-- The threshold that a word stands for. -/
def Filter.threshold? : String → Option (Option Level)
  | "trace" => some (some .trace)
  | "debug" => some (some .debug)
  | "info" => some (some .info)
  | "warn" => some (some .warn)
  | "error" => some (some .error)
  | "off" => some none
  | _ => none

/-- The filter that a setting stands for: a threshold, a target and a threshold, or a target all of
whose events are shown. The empty setting shows errors. This is right for one such setting with its
threshold in lower case, not for a list of them, and not for a threshold that is a number. -/
def Filter.ofText (text : String) : Filter :=
  if text.isEmpty then ⟨"", some .error⟩ else
    match text.toList.splitOn '=' with
    | [target, word] =>
      match threshold? (String.ofList word) with
      | some threshold => ⟨String.ofList target, threshold⟩
      | none => ⟨"", some .error⟩
    | _ =>
      match threshold? text with
      | some threshold => ⟨"", threshold⟩
      | none => ⟨text, some .trace⟩

def Filter.passes (f : Filter) (e : Event) : Bool :=
  match f.threshold with
  | none => false
  | some level =>
    level.severity ≤ e.level.severity && f.target.toList.isPrefixOf e.target.toList

/-- The settings that decide which events are logged. -/
structure LogSettings where
  own : Option String
  shared : Option String
  deriving DecidableEq, Repr

def LogSettings.ownName : String := "SL_LOG"

/-- The name of the setting that the program shares with others. -/
def LogSettings.sharedName : String := "RUST_LOG"

def LogSettings.ofEnvironment (lookup : String → Option String) : LogSettings :=
  ⟨lookup ownName, lookup sharedName⟩

/-- The setting that counts, if there is one. -/
def LogSettings.chosen? (s : LogSettings) : Option String := s.own <|> s.shared

/-- What events are logged with: whether a setting lets an event pass, and the line of an event. -/
structure Logger where
  passes : String → Event → Bool
  line : Event → String

namespace Logger

def standard : Logger where
  passes text e := (Filter.ofText text).passes e
  line := Event.line

/-- Whether an event is logged. Nothing is if nothing is set. -/
def shows (logger : Logger) (s : LogSettings) (e : Event) : Bool :=
  s.chosen?.any fun text => logger.passes text e

/-- The log of events, a line for each that is shown. -/
def log (logger : Logger) (s : LogSettings) (events : List Event) : String :=
  String.join ((events.filter (logger.shows s)).map fun e => logger.line e ++ "\n")

end Logger

end ExprLexer
