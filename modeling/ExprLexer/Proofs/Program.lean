/-
How the program ends. It prints all that it was asked for or nothing: each failure comes before the
first byte is printed and the first event is logged, so a failed program leaves its complaint on
the error stream and no more. What is printed, and the code, do not depend on what is logged.
-/
import ExprLexer.Program
import ExprLexer.Proofs.Files.Text
import ExprLexer.Proofs.Files.Tree
import ExprLexer.Proofs.Report.Setting
import ExprLexer.Proofs.Report.Trace

namespace ExprLexer.Program

/-- The arguments ask for a report on a text. -/
def AsksFor (args : List String) (files : Files) (s : String) : Prop :=
  ∃ config, Command.ofArguments args = .ok (.lex config) ∧ config.input.HasText files s

/-- The ends of the program, where some events are shown and each has a line in the log. -/
inductive Ends (args : List String) (files : Files) (shown : Event → Bool) (line : Event → String) :
    Exit → Prop where
  | usage {cause : UsageError} (h : Command.ofArguments args = .error cause) :
    Ends args files shown line
      ⟨2, .empty, "error: " ++ cause.message ++ "\n" ++ "\n" ++ ExprLexer.usage ++ "\n"⟩
  | unreadable {config : Config} {path : String} {cause : ReadError}
      (h : Command.ofArguments args = .ok (.lex config)) (hi : config.input = .file path)
      (hu : files.Unreadable path cause) :
    Ends args files shown line
      ⟨1, .empty, "error: cannot read '" ++ path ++ "': " ++ cause.message ++ "\n"⟩
  | help (h : Command.ofArguments args = .ok .help) :
    Ends args files shown line ⟨0, (ExprLexer.usage ++ "\n").toUTF8, ""⟩
  | version (h : Command.ofArguments args = .ok .version) :
    Ends args files shown line
      ⟨0, (programName ++ " " ++ ExprLexer.version ++ "\n").toUTF8, ""⟩
  /-- A report that is complete, down to the line of the version. -/
  | report {config : Config} {front : String} {summary : Summary} {events : List Event}
      (h : Command.ofArguments args = .ok (.lex config))
      (hr : Report.run config files .unlimited =
        .ok ⟨.ok summary, (front ++ Listing.versionLine).toUTF8, events⟩) :
    Ends args files shown line ⟨0, (front ++ Listing.versionLine).toUTF8,
      String.join ((events.filter shown).map fun e => line e ++ "\n")⟩

variable {args : List String} {files : Files} {shown : Event → Bool} {line : Event → String}
  {x : Exit} {config : Config}

/-! ## What an end says -/

namespace Ends

theorem code_eq_two_iff (h : Ends args files shown line x) :
    x.code = 2 ↔ ∃ cause, Command.ofArguments args = .error cause := by
  cases h <;> simp_all

theorem code_eq_one_iff (h : Ends args files shown line x) :
    x.code = 1 ↔ ∃ config path, Command.ofArguments args = .ok (.lex config) ∧
      config.input = .file path ∧ ∀ s : String, files path ≠ .ok s.toUTF8 := by
  cases h with
  | usage h => simp [h]
  | unreadable h hi hu => exact iff_of_true rfl ⟨_, _, h, hi, hu.ne_ok⟩
  | help h => simp [h]
  | version h => simp [h]
  | report h hr =>
    refine iff_of_false nofun ?_
    rintro ⟨config, path, hlex, hi, hne⟩
    obtain rfl : _ = config := by simpa [h] using hlex
    obtain ⟨s, hs⟩ := Report.exists_hasText hr
    rw [hi] at hs
    exact hne s hs

theorem code_mem (h : Ends args files shown line x) : x.code ∈ [0, 1, 2] := by
  cases h <;> simp

theorem stdout_eq_empty (h : Ends args files shown line x) (hx : x.code ≠ 0) :
    x.stdout = .empty := by
  cases h <;> simp_all

end Ends

/-! ## The end of every run -/

section

variable (logger : Logger) (settings : LogSettings)

theorem run_of_usage {cause : UsageError} (h : Command.ofArguments args = .error cause) :
    runWith logger args files settings =
      .ok ⟨2, .empty, "error: " ++ cause.message ++ "\n" ++ "\n" ++ ExprLexer.usage ++ "\n"⟩ := by
  rw [runWith, h]
  rfl

/-- Nothing has been logged when a file cannot be read. -/
theorem run_of_unreadable {path : String} {cause : ReadError}
    (h : Command.ofArguments args = .ok (.lex config))
    (hs : Report.sourceText files config.input = .error (.unreadable path cause)) :
    runWith logger args files settings =
      .ok ⟨1, .empty, "error: cannot read '" ++ path ++ "': " ++ cause.message ++ "\n"⟩ := by
  have hlog : logger.log settings [] = "" := rfl
  have hline : failureLine (.unreadable path cause) =
      "error: " ++ ("cannot read '" ++ path ++ "': " ++ cause.message) ++ "\n" := rfl
  have hwords : "error: cannot read '" = "error: " ++ "cannot read '" := rfl
  rw [runWith, h, hwords]
  simp only [Report.run, hs, bind, Except.bind, pure, Except.pure, Exit.ofReport, hlog, hline,
    String.empty_append, String.append_assoc, Failure.exitCode]

theorem run_of_report {summary : Summary} {output : ByteArray} {events : List Event}
    (h : Command.ofArguments args = .ok (.lex config))
    (hr : Report.run config files .unlimited = .ok ⟨.ok summary, output, events⟩) :
    runWith logger args files settings = .ok ⟨0, output, logger.log settings events⟩ := by
  rw [runWith, h]
  simp only [hr, bind, Except.bind, pure, Except.pure, Exit.ofReport]

end

theorem exists_ends (h : ∀ s, AsksFor args files s → s.utf8ByteSize ≤ Buffer.maxLength) :
    ∃ code stdout, ∀ (logger : Logger) settings, ∃ stderr,
      runWith logger args files settings = .ok ⟨code, stdout, stderr⟩ ∧
      Ends args files (logger.shows settings) logger.line ⟨code, stdout, stderr⟩ := by
  cases hc : Command.ofArguments args with
  | error cause => exact ⟨_, _, fun logger settings => ⟨_, run_of_usage _ _ hc, .usage hc⟩⟩
  | ok command =>
    cases command with
    | help => exact ⟨_, _, fun logger settings => ⟨_, by rw [runWith, hc]; rfl, .help hc⟩⟩
    | version => exact ⟨_, _, fun logger settings => ⟨_, by rw [runWith, hc]; rfl, .version hc⟩⟩
    | lex config =>
      -- the text is sought before anything is printed, and once there is one nothing fails
      cases hs : Report.sourceText files config.input with
      | error failure =>
        obtain ⟨path, cause, hi, rfl, hu⟩ := Report.exists_unreadable hs
        exact ⟨_, _, fun logger settings =>
          ⟨_, run_of_unreadable _ _ hc hs, .unreadable hc hi hu⟩⟩
      | ok s =>
        have hsize := h s ⟨config, hc, Report.sourceText_eq_ok_iff.1 hs⟩
        obtain ⟨ts, hl⟩ := exists_lexes 0 s
        have hr : Report.run config files .unlimited = _ := Report.run_of_fits hs hsize hl rfl
        exact ⟨_, _, fun logger settings => ⟨_, run_of_report _ _ hc hr, .report hc hr⟩⟩

/-- The program ends with the code 2 if its arguments are not a command, with the code 1 if they
ask for a file that is not a text, and with the code 0 else. If it fails, it prints nothing and
complains, without a word of the log; if not, it prints all that it was asked for and logs the
events of its report that the settings show, in their order. Its code and what it prints are the
same whatever is set and whatever logger is used. -/
theorem run_ends (args : List String) (files : Files)
    (h : ∀ s, AsksFor args files s → s.utf8ByteSize ≤ Buffer.maxLength) :
    ∃ code stdout,
      (code = 2 ↔ ∃ cause, Command.ofArguments args = .error cause) ∧
      (code = 1 ↔ ∃ config path, Command.ofArguments args = .ok (.lex config) ∧
        config.input = .file path ∧ ∀ s : String, files path ≠ .ok s.toUTF8) ∧
      code ∈ [0, 1, 2] ∧ (code ≠ 0 → stdout = .empty) ∧
      (∀ (logger : Logger) settings, ∃ stderr,
        runWith logger args files settings = .ok ⟨code, stdout, stderr⟩ ∧
        Ends args files (logger.shows settings) logger.line ⟨code, stdout, stderr⟩) ∧
      ∀ own shared, ∃ stderr,
        run args files (.ofSettings own shared) = .ok ⟨code, stdout, stderr⟩ ∧
        Ends args files (Setting.shown own shared) Event.line ⟨code, stdout, stderr⟩ := by
  obtain ⟨code, stdout, hends⟩ := exists_ends h
  obtain ⟨stderr, -, hend⟩ := hends .standard ⟨none, none⟩
  refine ⟨code, stdout, hend.code_eq_two_iff, hend.code_eq_one_iff, hend.code_mem,
    hend.stdout_eq_empty, hends, fun own shared => ?_⟩
  rw [← LogSettings.shows_ofSettings]
  exact hends .standard (.ofSettings own shared)

/-- A setting for the warnings of a part of the program. -/
def warnings : Setting := .part "slc::driver" (Filter.isTarget_target (.scanning 0)) (some .warn)

/-- A file in the directory above, with a NUL character in it. -/
def nulFiles : Files := (Tree.ofList [("../b", .file "b\x00".toUTF8)]).read

/-- The user is warned of the NUL character although the shared setting shows nothing. -/
theorem run_ends_warned : ∃ x,
    run ["-f", "../b"] nulFiles (.ofSettings (some warnings) (some (.all none))) = .ok x ∧
    Ends ["-f", "../b"] nulFiles (Setting.shown (some warnings) (some (.all none))) Event.line x ∧
    x.code = 0 ∧ x.stderr = " WARN slc::driver: NUL byte in input pos=1\n" := by
  have hfile : nulFiles "../b" = .ok "b\x00".toUTF8 :=
    Tree.read_ofList [] []
      ⟨by decide, by decide, by decide, by decide +kernel⟩ (by decide +kernel) nofun
  have hsize : ∀ s, AsksFor ["-f", "../b"] nulFiles s → s.utf8ByteSize ≤ Buffer.maxLength := by
    rintro s ⟨config, hc, hs⟩
    have hargs : Command.ofArguments ["-f", "../b"] = .ok (.lex ⟨.file "../b", false, false⟩) := by
      decide
    rw [hargs] at hc
    cases hc
    obtain rfl : "b\x00" = s := String.toByteArray_inj.1 (Except.ok.inj (hfile.symm.trans hs))
    decide
  obtain ⟨code, stdout, -, -, -, -, -, hends⟩ := run_ends ["-f", "../b"] nulFiles hsize
  obtain ⟨stderr, hrun, hend⟩ := hends (some warnings) (some (.all none))
  have hexit : (run ["-f", "../b"] nulFiles
      (.ofSettings (some warnings) (some (.all none)))).map (fun x => (x.code, x.stderr)) =
      .ok (0, " WARN slc::driver: NUL byte in input pos=1\n") := by
    decide +kernel
  rw [hrun] at hexit
  obtain ⟨hcode, hstderr⟩ := Prod.mk.inj (Except.ok.inj hexit)
  exact ⟨_, hrun, hend, hcode, hstderr⟩

end ExprLexer.Program
