/-
What is logged while a report is made, and how much of it where the device takes no more. The events
follow the tokens of the source. A token is logged before its line is printed, so a device that has
no room for the line of a token stops the report with the event of that token, and one that has no
room for the line of the version stops it with the event of the end.
-/
import ExprLexer.Proofs.Report.Delivery
import Mathlib.Data.List.Induction

namespace ExprLexer

/-- What an event says, whatever part of the program it comes from. -/
def Event.content (e : Event) : Level × String × List (String × FieldValue) :=
  (e.level, e.message, e.fields)

namespace Report

/-- The events of a report on a source with these issues, up to its first token. -/
def eventsBefore (s : String) (issues : List Issue) : List Event :=
  .scanning s.utf8ByteSize :: (issues.map .issueFound ++ issues.map .issueWarned)

/-- All events of a report on a source with these issues and tokens. -/
def allEvents (s : String) (issues : List Issue) (tokens : List Token) (summary : Summary) :
    List Event :=
  eventsBefore s issues ++ tokens.map .token ++ [.complete summary]

/-- What a report prints up to the lines of its first tokens. -/
def outputUpTo (config : Config) (s : String) (done : List Token) : String :=
  Listing.inputLine config.input ++ String.join (done.map (lineFor config s))

variable {config : Config} {files : Files} {s text : String} {ts done : List Token}
  {t : Token} {issues : List Issue} {xs ys : List Step} {ending : Except Failure Summary}
  {n : Nat} {refusal : WriteError}

/-! ## Where a script stops -/

/-- A script stops at the first text that there is no room for, with the events before it. -/
theorem play_stop (hfits : (Step.printed xs).utf8ByteSize ≤ n)
    (hcut : n < (Step.printed xs ++ text).utf8ByteSize) :
    Script.play ⟨xs ++ .print text :: ys, ending⟩ ⟨some n, refusal⟩ =
      ⟨.error (.unwritable refusal),
        (Step.printed (xs ++ .print text :: ys)).toUTF8.extract 0 n, Step.logged xs⟩ := by
  have hroom : Device.cut? ⟨some n, refusal⟩ (Step.printed xs).toUTF8 = none :=
    if_neg (Nat.not_lt.2 hfits)
  have hsize : n < ((Step.printed xs).toUTF8 ++ text.toUTF8).size := by simpa using hcut
  have hstop : Device.cut? ⟨some n, refusal⟩ ((Step.printed xs).toUTF8 ++ text.toUTF8) =
      some (((Step.printed xs).toUTF8 ++ text.toUTF8).extract 0 n) := if_pos hsize
  -- what is kept of the output up to this text is what is kept of the whole
  have hkept : (Step.printed (xs ++ .print text :: ys)).toUTF8.extract 0 n =
      ((Step.printed xs).toUTF8 ++ text.toUTF8).extract 0 n := by
    rw [Step.printed_append, Step.printed, ← String.append_assoc,
      String.toUTF8_eq_toByteArray, String.toByteArray_append, String.toByteArray_append]
    exact Device.extract_append_of_le (Nat.le_of_lt hsize)
  have hplay : Device.play ⟨some n, refusal⟩ .empty (xs ++ .print text :: ys) = _ :=
    Device.play_append (by simpa [Transcript.empty] using hroom) _
  rw [Script.play, hplay, hkept, Device.play_refused (by simpa [Transcript.empty] using hstop)]
  simp [Transcript.empty]

/-- Where a measure of the first members of a list passes a bound, it passes it at one of them. -/
theorem exists_passing {α : Type} {f : List α → Nat} {xs : List α} (hstart : f [] ≤ n)
    (h : n < f xs) :
    ∃ done x later, xs = done ++ x :: later ∧ f done ≤ n ∧ n < f (done ++ [x]) := by
  induction xs using List.reverseRecOn with
  | nil => omega
  | append_singleton xs x ih =>
    by_cases hx : n < f xs
    · obtain ⟨done, y, later, rfl, hdone, hy⟩ := ih hx
      exact ⟨done, y, later ++ [x], by simp, hdone, hy⟩
    · exact ⟨xs, x, [], by simp, by omega, h⟩

/-! ## The events and the output of a report -/

theorem logged_before (config : Config) (s : String) :
    Step.logged (opening config s ++ issueSteps (Issue.all s)) = eventsBefore s (Issue.all s) := by
  rw [Step.logged_append, issueSteps_eq, Step.logged_map_log]
  rfl

theorem printed_before (config : Config) (s : String) :
    Step.printed (opening config s ++ issueSteps (Issue.all s)) =
      Listing.inputLine config.input := by
  rw [Step.printed_append, issueSteps_eq, Step.printed_map_log]
  simp [opening, Step.printed]

/-- A report before some of its tokens, and what it logs and prints until then. -/
def stepsUpTo (config : Config) (s : String) (done : List Token) : List Step :=
  opening config s ++ issueSteps (Issue.all s) ++ done.flatMap (stepsFor config s)

theorem logged_stepsUpTo : Step.logged (stepsUpTo config s done) =
    eventsBefore s (Issue.all s) ++ done.map .token := by
  rw [stepsUpTo, Step.logged_append, logged_before, logged_stepsFor]

theorem printed_stepsUpTo (h : ∀ t ∈ done, t.kind ≠ .eof) :
    Step.printed (stepsUpTo config s done) = outputUpTo config s done := by
  rw [stepsUpTo, Step.printed_append, printed_before, printed_stepsFor h]
  rfl

theorem stepsUpTo_append (config : Config) (s : String) (done later : List Token) :
    stepsUpTo config s (done ++ later) =
      stepsUpTo config s done ++ later.flatMap (stepsFor config s) := by
  rw [stepsUpTo, List.flatMap_append, ← List.append_assoc]
  rfl

/-- Neither the event of the next token nor that of the end prints anything. -/
theorem printed_stepsUpTo_token (h : ∀ t ∈ done, t.kind ≠ .eof) (event : Event) :
    Step.printed (stepsUpTo config s done ++ [.log event]) = outputUpTo config s done := by
  rw [Step.printed_append, printed_stepsUpTo h]
  simp [Step.printed]

theorem printed_stepsUpTo_end (h : ∀ t ∈ done, t.kind ≠ .eof) (n : Nat) :
    Step.printed (stepsUpTo config s (done ++ [⟨.eof, "", n⟩])) = outputUpTo config s done :=
  (congrArg Step.printed (stepsUpTo_append config s done _)).trans (printed_stepsUpTo_token h _)

theorem stepsFor_of_ne_eof (h : t.isEof = false) :
    stepsFor config s t = [.log (.token t), .print (lineFor config s t)] := by
  simp [stepsFor, h, lineFor]

theorem outputUpTo_append (config : Config) (s : String) (done : List Token) (t : Token) :
    outputUpTo config s (done ++ [t]) = outputUpTo config s done ++ lineFor config s t := by
  simp [outputUpTo, String.append_assoc]

/-- The whole of a report on a source with these tokens before its end. -/
def allSteps (config : Config) (s : String) (ts : List Token) : List Step :=
  stepsUpTo config s (ts ++ [⟨.eof, "", s.utf8ByteSize⟩])
    ++ [.print Listing.versionLine, .log (.complete (summaryOf ts))]

theorem printed_allSteps (hl : Lexes 0 s ts) (config : Config) :
    Step.printed (allSteps config s ts) = outputUpTo config s ts ++ Listing.versionLine :=
  printed_script hl config

theorem logged_allSteps : Step.logged (allSteps config s ts) =
    allEvents s (Issue.all s) (ts ++ [⟨.eof, "", s.utf8ByteSize⟩]) (summaryOf ts) := by
  rw [allSteps, Step.logged_append, logged_stepsUpTo]
  rfl

theorem script_allSteps (h : s.utf8ByteSize ≤ Buffer.maxLength) (hl : Lexes 0 s ts)
    (config : Config) :
    script config s = .ok ⟨allSteps config s ts, .ok (summaryOf ts)⟩ :=
  script_lexes h hl config

/-- A device that has room for a report gets all of it. -/
theorem run_of_fits {device : Device} (hs : sourceText files config.input = .ok s)
    (h : s.utf8ByteSize ≤ Buffer.maxLength) (hl : Lexes 0 s ts)
    (hfits : device.cut? (outputUpTo config s ts ++ Listing.versionLine).toUTF8 = none) :
    run config files device = .ok ⟨.ok (summaryOf ts),
      (outputUpTo config s ts ++ Listing.versionLine).toUTF8,
      allEvents s (Issue.all s) (ts ++ [⟨.eof, "", s.utf8ByteSize⟩]) (summaryOf ts)⟩ := by
  rw [← printed_allSteps hl] at hfits
  rw [run_eq_play hs (script_allSteps h hl config), play_of_fits hfits, printed_allSteps hl,
    logged_allSteps]

/-! ## Reports that are interrupted -/

/-- What is logged for a source with these issues and tokens, the end apart, where the device takes
`n` bytes and the report has more. -/
structure Interrupted (config : Config) (s : String) (issues : List Issue) (ts : List Token)
    (eof : Token) (n : Nat) (events : List Event) : Prop where
  /-- Nothing is logged if there is no room for the line of the input. -/
  input : n < (Listing.inputLine config.input).utf8ByteSize → events = []
  /-- The last event is that of the first token for whose line there is no room. -/
  lines : (Listing.inputLine config.input).utf8ByteSize ≤ n →
    n < (outputUpTo config s ts).utf8ByteSize →
    ∃ done t later, ts = done ++ t :: later ∧
      (outputUpTo config s done).utf8ByteSize ≤ n ∧
      n < (outputUpTo config s (done ++ [t])).utf8ByteSize ∧
      events = eventsBefore s issues ++ (done ++ [t]).map .token
  /-- The last event is that of the end if there is room for the lines of all tokens. -/
  version : (outputUpTo config s ts).utf8ByteSize ≤ n →
    events = eventsBefore s issues ++ (ts ++ [eof]).map .token

/-- The events of a report that is interrupted are the first of all its events. -/
theorem Interrupted.isPrefix {eof : Token} {events : List Event}
    (h : Interrupted config s issues ts eof n events) (summary : Summary) :
    events <+: allEvents s issues (ts ++ [eof]) summary := by
  unfold allEvents
  by_cases hinput : n < (Listing.inputLine config.input).utf8ByteSize
  · rw [h.input hinput]
    exact List.nil_prefix
  by_cases htoken : n < (outputUpTo config s ts).utf8ByteSize
  · obtain ⟨done, t, later, rfl, -, -, rfl⟩ := h.lines (Nat.not_lt.1 hinput) htoken
    exact ⟨(later ++ [eof]).map .token ++ [.complete summary], by simp⟩
  · rw [h.version (Nat.not_lt.1 htoken)]
    exact List.prefix_append _ _

/-- The steps up to the line of a token, which is logged before its line is printed. -/
theorem exists_allSteps_token (config : Config) (s : String) (h : t.isEof = false)
    (done later : List Token) : ∃ ys, allSteps config s (done ++ t :: later) =
      stepsUpTo config s done ++ [.log (.token t)] ++ .print (lineFor config s t) :: ys := by
  refine ⟨later.flatMap (stepsFor config s) ++ stepsFor config s ⟨.eof, "", s.utf8ByteSize⟩ ++
    [.print Listing.versionLine, .log (.complete (summaryOf (done ++ t :: later)))], ?_⟩
  rw [allSteps, List.append_assoc, stepsUpTo_append]
  simp [stepsFor_of_ne_eof h]

/-- A report that is interrupted leaves the bytes that there is room for, and its events stop where
the room does. -/
theorem exists_interrupted (hl : Lexes 0 s ts)
    (hn : n < (outputUpTo config s ts ++ Listing.versionLine).utf8ByteSize) :
    ∃ shown, Script.play ⟨allSteps config s ts, ending⟩ ⟨some n, refusal⟩ =
        ⟨.error (.unwritable refusal),
          (outputUpTo config s ts ++ Listing.versionLine).toUTF8.extract 0 n, shown⟩ ∧
      Interrupted config s (Issue.all s) ts ⟨.eof, "", s.utf8ByteSize⟩ n shown := by
  have hheader : (Listing.inputLine config.input).utf8ByteSize ≤
      (outputUpTo config s ts).utf8ByteSize := by
    simp [outputUpTo]
  rw [← printed_allSteps hl]
  by_cases hinput : n < (Listing.inputLine config.input).utf8ByteSize
  · -- nothing stands before the line of the input
    have hsteps : allSteps config s ts = [] ++ .print (Listing.inputLine config.input) :: _ := rfl
    rw [hsteps, play_stop (Nat.zero_le n) (by simpa [Step.printed] using hinput)]
    exact ⟨_, rfl, fun _ => rfl, by omega, by omega⟩
  by_cases htoken : n < (outputUpTo config s ts).utf8ByteSize
  · -- the lines of some tokens are complete, and the line of the next one is not
    obtain ⟨done, t, later, rfl, hdone, ht⟩ :=
      exists_passing (f := fun done => (outputUpTo config s done).utf8ByteSize)
        (by simpa [outputUpTo] using hinput) htoken
    have hteof := Token.isEof_eq_false_iff.2 (hl.ne_eof t (by simp))
    have hprinted : Step.printed (stepsUpTo config s done ++ [.log (.token t)]) = _ :=
      printed_stepsUpTo_token (fun x hx => hl.ne_eof x (by simp [hx])) _
    obtain ⟨ys, hsteps⟩ := exists_allSteps_token config s hteof done later
    rw [hsteps, play_stop (by rwa [hprinted]) (by rwa [hprinted, ← outputUpTo_append])]
    refine ⟨_, rfl, by omega, fun _ _ => ⟨done, t, later, rfl, hdone, ht, ?_⟩, by omega⟩
    rw [Step.logged_append, logged_stepsUpTo, List.map_append, List.append_assoc]
    rfl
  · -- all tokens are listed, and the end has been found
    have hprinted : Step.printed (stepsUpTo config s (ts ++ [⟨.eof, "", s.utf8ByteSize⟩])) = _ :=
      printed_stepsUpTo_end hl.ne_eof _
    have hsteps : allSteps config s ts = _ ++ .print Listing.versionLine :: _ := rfl
    rw [hsteps, play_stop (by rw [hprinted]; omega) (by rwa [hprinted])]
    exact ⟨_, rfl, by omega, by omega, fun _ => logged_stepsUpTo⟩

/-! ## All reports -/

/-- The events of a report follow the tokens of its source. Where the device takes so many bytes
only, they end with the event of the first token whose line is not complete, or with that of the
end; there are none if the line of the input is not. -/
theorem run_events (config : Config) (files : Files) {s : String}
    (hs : sourceText files config.input = .ok s) (h : s.utf8ByteSize ≤ Buffer.maxLength) :
    ∃ b ts eof summary full events,
      Buffer.ofText? s = .ok b ∧ b.tokens = .ok (ts ++ [eof]) ∧
      (∀ t ∈ ts, t.isEof = false) ∧ eof.isEof = true ∧
      full = (outputUpTo config s ts ++ Listing.versionLine).toUTF8 ∧
      events = allEvents s b.issues (ts ++ [eof]) summary ∧
      events.map Event.content =
        (.debug, "scanning input", [("len", .number s.utf8ByteSize)]) ::
        (b.issues.map (fun issue => (.debug, "encoding issue in source",
            [("kind", .word issue.kind.label), ("pos", .number issue.pos)])) ++
          b.issues.map (fun issue => (.warn, issue.kind.describe ++ " in input",
            [("pos", .number issue.pos)])) ++
          (ts ++ [eof]).map (fun t => (.trace, "token",
            [("kind", .word t.kind.name), ("offset", .number t.offset),
              ("len", .number t.length)])) ++
          [(.info, "scan complete",
            [("tokens", .number summary.tokens), ("unknown", .number summary.unknown)])]) ∧
      (∀ room refusal, (∀ n, room = some n → full.size ≤ n) →
        run config files ⟨room, refusal⟩ = .ok ⟨.ok summary, full, events⟩) ∧
      (∀ n refusal, n < full.size → ∃ shown,
        run config files ⟨some n, refusal⟩ =
          .ok ⟨.error (.unwritable refusal), full.extract 0 n, shown⟩ ∧
        shown <+: events ∧ Interrupted config s b.issues ts eof n shown) ∧
      ∀ device v, runInPieces config files device v = run config files device := by
  obtain ⟨ts, hl⟩ := exists_lexes 0 s
  refine ⟨Buffer.pad s, ts, ⟨.eof, "", s.utf8ByteSize⟩, summaryOf ts, _, _,
    Buffer.ofText?_eq h, Buffer.tokens_lexes hl h, fun t ht => ?_, rfl, rfl, rfl, ?_,
    fun room refusal hroom => ?_, fun n refusal hn => ?_, fun device v => runInPieces_eq v⟩
  · exact Token.isEof_eq_false_iff.2 (hl.ne_eof t ht)
  · simp [allEvents, eventsBefore, Buffer.pad, Function.comp_def, Event.content, Event.level,
      Event.message, Event.fields]
  · have hfits : Device.cut? ⟨room, refusal⟩ _ = none := Device.cut?_eq_none_iff.2 hroom
    exact run_of_fits hs h hl hfits
  · obtain ⟨shown, hplay, hshown⟩ := exists_interrupted hl hn
    exact ⟨shown, by rw [run_eq_play hs (script_allSteps h hl config), hplay],
      hshown.isPrefix _, hshown⟩

/-- A device whose room ends just behind the line of a token. -/
theorem run_events_line_end : ∃ shown,
    run ⟨.inline "a\x00", false, false⟩ (fun _ => .error .notFound) ⟨some 44, .full⟩ =
      .ok ⟨.error (.unwritable .full),
        "Input: \"a\\0\"\ntoken type: 2, token text: \"a\"\n".toUTF8, shown⟩ ∧
    shown = [.scanning 2, .issueFound ⟨.nul, 1, 1⟩, .issueWarned ⟨.nul, 1, 1⟩,
      .token ⟨.ident, "a", 0⟩, .token ⟨.unknown, "\x00", 1⟩] ∧
    shown <+: [.scanning 2, .issueFound ⟨.nul, 1, 1⟩, .issueWarned ⟨.nul, 1, 1⟩,
      .token ⟨.ident, "a", 0⟩, .token ⟨.unknown, "\x00", 1⟩, .token ⟨.eof, "", 2⟩,
      .complete ⟨2, 1⟩] := by
  obtain ⟨b, ts, eof, summary, full, events, -, -, -, -, -, -, -, hall, hcut, -⟩ :=
    run_events ⟨.inline "a\x00", false, false⟩ (fun _ => .error .notFound) rfl (by decide)
  have hwhole : (run ⟨.inline "a\x00", false, false⟩ (fun _ => .error .notFound)
      ⟨none, .full⟩).map (fun o => (o.output, o.events)) =
        .ok (("Input: \"a\\0\"\ntoken type: 2, token text: \"a\"\n" ++
          "token type: 1, token text: \"\\0\"\nsimplelexer version 0.1.0\n").toUTF8,
          [.scanning 2, .issueFound ⟨.nul, 1, 1⟩, .issueWarned ⟨.nul, 1, 1⟩,
            .token ⟨.ident, "a", 0⟩, .token ⟨.unknown, "\x00", 1⟩, .token ⟨.eof, "", 2⟩,
            .complete ⟨2, 1⟩]) := by
    decide +kernel
  rw [hall none .full nofun] at hwhole
  obtain ⟨rfl, rfl⟩ := Prod.mk.inj (Except.ok.inj hwhole)
  obtain ⟨shown, hrun, hprefix, -⟩ := hcut 44 .full (by decide +kernel)
  have hshown : (run ⟨.inline "a\x00", false, false⟩ (fun _ => .error .notFound)
      ⟨some 44, .full⟩).map (·.events) =
        .ok [.scanning 2, .issueFound ⟨.nul, 1, 1⟩, .issueWarned ⟨.nul, 1, 1⟩,
          .token ⟨.ident, "a", 0⟩, .token ⟨.unknown, "\x00", 1⟩] := by
    decide +kernel
  rw [hrun] at hshown
  obtain rfl := Except.ok.inj hshown
  have hkept : ("Input: \"a\\0\"\ntoken type: 2, token text: \"a\"\n" ++
      "token type: 1, token text: \"\\0\"\nsimplelexer version 0.1.0\n").toUTF8.extract 0 44 =
        "Input: \"a\\0\"\ntoken type: 2, token text: \"a\"\n".toUTF8 := by
    decide +kernel
  exact ⟨_, hkept ▸ hrun, rfl, hprefix⟩

end Report

end ExprLexer
