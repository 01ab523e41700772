/-
What is printed and logged in a report, by the tokens of its source: the line of the input, a line
for each token, with its place if places are asked for, and the line of the version.
-/
import ExprLexer.Proofs.Source.Lines
import ExprLexer.Proofs.Token.Session
import ExprLexer.Report.Run

namespace ExprLexer

/-! ## What steps print and log -/

namespace Step

/-- The text that steps print. -/
def printed : List Step → String
  | [] => ""
  | .log _ :: rest => printed rest
  | .print text :: rest => text ++ printed rest

/-- The events that steps log. -/
def logged : List Step → List Event
  | [] => []
  | .log event :: rest => event :: logged rest
  | .print _ :: rest => logged rest

theorem printed_append (xs ys : List Step) : printed (xs ++ ys) = printed xs ++ printed ys := by
  induction xs with
  | nil => simp [printed]
  | cons x xs ih => cases x <;> simp [printed, ih, String.append_assoc]

theorem printed_map_log (events : List Event) : printed (events.map Step.log) = "" := by
  induction events with
  | nil => rfl
  | cons e events ih => exact ih

theorem logged_append (xs ys : List Step) : logged (xs ++ ys) = logged xs ++ logged ys := by
  induction xs with
  | nil => rfl
  | cons x xs ih => cases x <;> simp [logged, ih]

theorem logged_map_log (events : List Event) : logged (events.map Step.log) = events := by
  induction events with
  | nil => rfl
  | cons e events ih => exact congrArg (e :: ·) ih

end Step

variable {s : String} {ts : List Token} {t : Token}

/-! ## The steps of a report -/

theorem LineTable.locate_stands (h : s.utf8ByteSize ≤ Buffer.maxLength) (ht : t.Stands s) :
    ∃ p, (LineTable.mk s (lineStarts s)).locate t = .ok p := by
  obtain ⟨pre, suf, rfl, ho⟩ := ht
  rw [String.append_assoc] at h ⊢
  exact ⟨_, by rw [locate, ho, lineCol_between h]⟩

namespace Report

/-- The line table that a report on a source uses. -/
def tableFor (config : Config) (s : String) : Option LineTable :=
  if config.positions then some ⟨s, lineStarts s⟩ else none

/-- The place that a report on a source prints after a token. -/
def placeFor (config : Config) (s : String) (t : Token) : Option LineCol :=
  if config.positions then ((LineTable.mk s (lineStarts s)).locate t).toOption else none

theorem isSome_placeFor (h : Lexes 0 s ts) (hs : s.utf8ByteSize ≤ Buffer.maxLength)
    (config : Config) : ∀ t ∈ ts, (placeFor config s t).isSome = config.positions := by
  intro t ht
  obtain ⟨p, hp⟩ := LineTable.locate_stands hs (h.stands t (by simp [ht]))
  cases hc : config.positions <;> simp [placeFor, hp, hc, Except.toOption]

/-- The steps of a report for a token of its source, or for the end. -/
def stepsFor (config : Config) (s : String) (t : Token) : List Step :=
  if t.isEof then [.log (.token t)]
  else [.log (.token t), .print (Listing.tokenLine config.names (placeFor config s t) t)]

theorem tokenSteps_eq (h : s.utf8ByteSize ≤ Buffer.maxLength) (ht : t.Stands s) (config : Config) :
    tokenSteps config.names (tableFor config s) t = .ok (stepsFor config s t) := by
  unfold tokenSteps stepsFor tableFor placeFor
  split
  · rfl
  · split
    · obtain ⟨p, hp⟩ := LineTable.locate_stands h ht
      rw [Option.mapM_some, hp]
      rfl
    · rfl

theorem filter_not_isEof (h : ∀ t ∈ ts, t.kind ≠ .eof) (n : Nat) :
    (ts ++ [Token.mk .eof "" n]).filter (fun t => !t.isEof) = ts := by
  have hall : ts.filter (fun t => !t.isEof) = ts :=
    List.filter_eq_self.2 fun t ht => by simp [Token.isEof_eq_false_iff.2 (h t ht)]
  rw [List.filter_append, hall]
  exact List.append_nil ts

/-- The counts in a report on a source with these tokens before its end. -/
def summaryOf (ts : List Token) : Summary := ⟨ts.length, ts.countP (·.is .unknown)⟩

theorem foldl_count (ts : List Token) (k : Summary) : ts.foldl Summary.count k =
    ⟨k.tokens + ts.length, k.unknown + ts.countP (·.is .unknown)⟩ := by
  induction ts generalizing k with
  | nil => rfl
  | cons t ts ih =>
    rw [List.foldl_cons, ih, List.length_cons, List.countP_cons, Summary.count]
    split <;> simp only [Summary.mk.injEq] <;> omega

/-- Reading tokens and listing each before the next is read comes to the same as reading them all
first and then listing them. -/
theorem listFrom_of_drain {names : Bool} {table : Option LineTable} {steps : Token → List Step}
    {n : Nat} {c c' : Cursor} (hd : c.drain n = .ok (ts, c'))
    (hsteps : ∀ t ∈ ts, tokenSteps names table t = .ok (steps t)) (k : Summary) :
    listFrom names table n c k =
      .ok (ts.flatMap steps, (ts.filter fun t => !t.isEof).foldl Summary.count k) := by
  induction n generalizing c ts k with
  | zero =>
    cases hd
    rfl
  | succ n ih =>
    obtain ⟨t, d, hn, ⟨ht, rfl⟩ | ⟨ht, us, hrest, rfl⟩⟩ := Cursor.drain_cases hd
    · have hlast := hsteps t (by simp)
      simp [listFrom, hn, hlast, ht, bind, Except.bind, pure, Except.pure]
    · have hfirst := hsteps t (by simp)
      have hothers := ih hrest (fun x hx => hsteps x (List.mem_cons_of_mem _ hx)) (k.count t)
      simp [listFrom, hn, hfirst, ht, hothers, bind, Except.bind, pure, Except.pure]

theorem tableOf_pad (h : s.utf8ByteSize ≤ Buffer.maxLength) (config : Config) :
    tableOf config.positions (Buffer.pad s) = .ok (tableFor config s) := by
  rw [tableOf, tableFor, LineTable.ofBuffer_pad h]
  split <;> rfl

/-- The script of a report, by the tokens of the source and the steps for them. -/
theorem script_eq (h : s.utf8ByteSize ≤ Buffer.maxLength) (config : Config) {tokens : List Token}
    {steps : Token → List Step} (ht : (Buffer.pad s).tokens = .ok tokens)
    (hsteps : ∀ t ∈ tokens, tokenSteps config.names (tableFor config s) t = .ok (steps t)) :
    script config s = .ok
      ⟨opening config s ++ issueSteps (Buffer.pad s).issues ++ tokens.flatMap steps
        ++ [.print Listing.versionLine,
          .log (.complete (summaryOf (tokens.filter fun t => !t.isEof)))],
        .ok (summaryOf (tokens.filter fun t => !t.isEof))⟩ := by
  rw [Buffer.tokens, Buffer.cursor_pad h] at ht
  simp only [bind, Except.bind] at ht
  split at ht
  · cases ht
  rename_i drained hd
  cases ht
  have hlist := listFrom_of_drain hd hsteps .zero
  rw [foldl_count] at hlist
  simp only [Summary.zero, Nat.zero_add] at hlist
  unfold script
  rw [Buffer.ofText?_eq h]
  simp only [tableOf_pad h, Buffer.cursor_pad h, bind, Except.bind, Summary.zero, hlist]
  rfl

/-- The script of a report, by the tokens of its source. -/
theorem script_lexes (h : s.utf8ByteSize ≤ Buffer.maxLength) (hl : Lexes 0 s ts) (config : Config) :
    script config s = .ok
      ⟨opening config s ++ issueSteps (Issue.all s)
        ++ (ts ++ [Token.mk .eof "" s.utf8ByteSize]).flatMap (stepsFor config s)
        ++ [.print Listing.versionLine, .log (.complete (summaryOf ts))], .ok (summaryOf ts)⟩ := by
  have hsteps : ∀ t ∈ ts ++ [⟨.eof, "", s.utf8ByteSize⟩],
      tokenSteps config.names (tableFor config s) t = .ok (stepsFor config s t) := by
    intro t ht
    exact tokenSteps_eq h (hl.stands t ht) config
  rw [script_eq h config (Buffer.tokens_lexes hl h) hsteps, filter_not_isEof hl.ne_eof]
  rfl

theorem run_eq_play {config : Config} {files : Files} {device : Device} {x : Script}
    (hs : sourceText files config.input = .ok s) (hx : script config s = .ok x) :
    run config files device = .ok (x.play device) := by
  rw [run, hs]
  simp only [hx]
  rfl

/-! ## The events of a report -/

theorem issueSteps_eq (issues : List Issue) : issueSteps issues =
    (issues.map Event.issueFound ++ issues.map Event.issueWarned).map .log := by
  simp [issueSteps, Function.comp_def]

theorem logged_stepsFor (config : Config) (tokens : List Token) :
    Step.logged (tokens.flatMap (stepsFor config s)) = tokens.map .token := by
  induction tokens with
  | nil => rfl
  | cons t tokens ih =>
    have ht : Step.logged (stepsFor config s t) = [.token t] := by
      unfold stepsFor
      split <;> rfl
    rw [List.flatMap_cons, Step.logged_append, ht, ih]
    rfl

/-! ## The lines of a report -/

/-- The line that a report prints for a token. -/
def lineFor (config : Config) (s : String) (t : Token) : String :=
  Listing.tokenLine config.names (placeFor config s t) t

theorem printed_stepsFor (h : ∀ t ∈ ts, t.kind ≠ .eof) (config : Config) :
    Step.printed (ts.flatMap (stepsFor config s)) = String.join (ts.map (lineFor config s)) := by
  induction ts with
  | nil => rfl
  | cons t ts ih =>
    have ht := Token.isEof_eq_false_iff.2 (h t (by simp))
    rw [List.flatMap_cons, Step.printed_append, ih fun x hx => h x (List.mem_cons_of_mem _ hx)]
    simp [stepsFor, ht, Step.printed, lineFor]

theorem printed_script (hl : Lexes 0 s ts) (config : Config) :
    Step.printed (opening config s ++ issueSteps (Issue.all s)
      ++ (ts ++ [Token.mk .eof "" s.utf8ByteSize]).flatMap (stepsFor config s)
      ++ [.print Listing.versionLine, .log (.complete (summaryOf ts))]) =
    Listing.inputLine config.input ++ String.join (ts.map (lineFor config s))
      ++ Listing.versionLine := by
  have hissues : Step.printed (issueSteps (Issue.all s)) = "" := by
    rw [issueSteps_eq, Step.printed_map_log]
  rw [List.flatMap_append, Step.printed_append, Step.printed_append, Step.printed_append,
    Step.printed_append, printed_stepsFor hl.ne_eof, hissues]
  simp [opening, Step.printed, stepsFor, Token.isEof, Token.is, String.append_assoc]

end Report

end ExprLexer
