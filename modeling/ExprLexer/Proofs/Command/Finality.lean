/-
Which outcomes of a command line are final. A stage that an argument has decided is left no more,
and out of every other stage a further argument leads to another outcome. So the outcomes that
nothing can change are just those that an argument decides, and the first such argument decides.
-/
import ExprLexer.Proofs.Command.Stage
import Mathlib.Tactic.Common

namespace ExprLexer

theorem UsageError.message_injective : Function.Injective message := by
  have hextra : ∀ arg, (extraArgument arg).message = "unexpected extra argument '" ++ arg ++ "'" :=
    fun _ => rfl
  have hpath : ∀ arg, (missingPath arg).message = "'" ++ arg ++ "' requires a path" := fun _ => rfl
  have hunknown : ∀ arg, (unknownOption arg).message = "unknown option '" ++ arg ++ "'" :=
    fun _ => rfl
  have htwo : twoInputs.message = "give either an expression or --file, not both" := rfl
  -- the first three letters tell two kinds of error apart
  intro a b h
  have hlist := congrArg String.toList h
  cases a <;> cases b <;> simp [hextra, hpath, hunknown, htwo] at hlist ⊢ <;>
    exact String.toList_inj.1 hlist

namespace Command

/-! ## Decided stages -/

namespace Stage

variable {x : Stage} {r : Request} {v : Verdict} {arg : String} {args : List String}

theorem finish_ne_verdict : r.finish ≠ v.outcome := by
  unfold Request.finish
  split <;> cases v <;> nofun

theorem outcome_eq_verdict_iff : x.outcome = v.outcome ↔ x = decided v := by
  refine ⟨fun h => ?_, fun h => h ▸ rfl⟩
  cases x with
  | options r => exact absurd h finish_ne_verdict
  | needsPath option r => cases v <;> cases h
  | expressions r => exact absurd h finish_ne_verdict
  | decided w => cases v <;> cases w <;> cases h <;> rfl

theorem outcome_addExpression_ne {stage : Request → Stage} (h : ∀ r, (stage r).outcome = r.finish)
    (harg : arg ≠ "") : (addExpression stage r arg).outcome ≠ r.finish := by
  unfold addExpression
  cases hr : r.expression with
  | none =>
    rw [h, Request.finish, Request.finish, hr]
    cases r.file with
    | none => simpa using harg
    | some path => nofun
  | some _ => exact (finish_ne_verdict (v := .extraArgument arg)).symm

theorem exists_outcome_ne (h : ∀ v, x ≠ decided v) :
    ∃ arg, (x.next arg).outcome ≠ x.outcome := by
  -- a letter is an expression where one may follow, and a path where one has to
  refine ⟨"x", ?_⟩
  have hitem : Item.ofArgument "x" = .expression := by decide
  cases x with
  | options r =>
    rw [next, hitem]
    exact outcome_addExpression_ne (fun _ => rfl) (by decide)
  | needsPath option r =>
    simp only [next, outcome, Request.finish]
    intro h
    split at h <;> cases h
  | expressions r => exact outcome_addExpression_ne (fun _ => rfl) (by decide)
  | decided v => exact absurd rfl (h v)

/-- The outcome of a stage is final exactly if an argument has decided it. -/
theorem final_iff : (∀ args, (x.after args).outcome = x.outcome) ↔ ∃ v, x = decided v := by
  constructor
  · intro h
    by_contra hv
    obtain ⟨arg, hne⟩ := exists_outcome_ne fun v hx => hv ⟨v, hx⟩
    exact hne (h [arg])
  · rintro ⟨v, rfl⟩ args
    rw [after_decided]

theorem exists_deciding (hx : ∀ w, x ≠ decided w) (h : x.after args = decided v) :
    ∃ front arg behind, args = front ++ arg :: behind ∧ (∀ w, x.after front ≠ decided w) ∧
      (x.after front).next arg = decided v := by
  induction args generalizing x with
  | nil => exact absurd h (hx v)
  | cons arg args ih =>
    by_cases hnext : ∃ w, x.next arg = decided w
    · obtain ⟨w, hw⟩ := hnext
      rw [after_cons, hw, after_decided] at h
      exact ⟨[], arg, args, rfl, hx, hw.trans h⟩
    · obtain ⟨front, last, behind, rfl, hfront, hlast⟩ := ih (fun w hw => hnext ⟨w, hw⟩) h
      exact ⟨arg :: front, last, behind, rfl, hfront, hlast⟩

end Stage

/-! ## Command lines -/

/-- An outcome as it is told: a usage error by its wording. -/
def told (o : Except UsageError Command) : Except String Command := o.mapError UsageError.message

theorem told_injective : Function.Injective told := by
  intro a b h
  cases a with
  | ok c =>
    cases b with
    | ok d => exact congrArg Except.ok (Except.ok.inj h)
    | error e => cases h
  | error e =>
    cases b with
    | ok d => cases h
    | error e' => exact congrArg Except.error (UsageError.message_injective (Except.error.inj h))

/-- What is told of a command line. -/
def answer (args : List String) : Except String Command := told (ofArguments args)

variable {p q : List String}

/-- The outcomes that an argument decides, as they are told. -/
theorem exists_verdict_iff : (∃ v : Verdict, ofArguments p = v.outcome) ↔
    answer p = .ok .help ∨ answer p = .ok .version ∨
      (∃ arg, answer p = .error ("unexpected extra argument '" ++ arg ++ "'")) ∨
      ∃ arg, answer p = .error ("unknown option '" ++ arg ++ "'") := by
  have htold : ∀ v : Verdict, ofArguments p = v.outcome ↔ answer p = told v.outcome :=
    fun v => told_injective.eq_iff.symm
  constructor
  · rintro ⟨v, hv⟩
    rw [htold] at hv
    cases v with
    | help => exact .inl hv
    | version => exact .inr (.inl hv)
    | extraArgument arg => exact .inr (.inr (.inl ⟨arg, hv⟩))
    | unknownOption arg => exact .inr (.inr (.inr ⟨arg, hv⟩))
  · rintro (h | h | ⟨arg, h⟩ | ⟨arg, h⟩)
    · exact ⟨.help, (htold _).2 h⟩
    · exact ⟨.version, (htold _).2 h⟩
    · exact ⟨.extraArgument arg, (htold _).2 h⟩
    · exact ⟨.unknownOption arg, (htold _).2 h⟩

/-- No continuation changes what is told of a command line exactly if an argument decided it. -/
theorem forall_answer_append_iff :
    (∀ q, answer (p ++ q) = answer p) ↔ ∃ v, (Stage.options .empty).after p = .decided v := by
  simp only [answer, told_injective.eq_iff, Stage.ofArguments_eq, Stage.after_append,
    Stage.final_iff]

theorem forall_answer_append_iff_verdict :
    (∀ q, answer (p ++ q) = answer p) ↔ ∃ v : Verdict, ofArguments p = v.outcome := by
  rw [forall_answer_append_iff, Stage.ofArguments_eq]
  simp only [Stage.outcome_eq_verdict_iff]

/-- A command line whose outcome is final has an argument that decides it, before which it was open
and behind which anything may follow. -/
theorem exists_deciding_argument (h : ∀ q, answer (p ++ q) = answer p) :
    ∃ front arg behind, p = front ++ arg :: behind ∧ (∃ q, answer (front ++ q) ≠ answer front) ∧
      ∀ q, answer (front ++ arg :: q) = answer p := by
  obtain ⟨v, hv⟩ := forall_answer_append_iff.1 h
  have hstart : ∀ w, Stage.options .empty ≠ .decided w := nofun
  obtain ⟨front, arg, behind, rfl, hfront, harg⟩ := Stage.exists_deciding hstart hv
  refine ⟨front, arg, behind, rfl, ?_, fun q => ?_⟩
  · by_contra! hq
    obtain ⟨w, hw⟩ := forall_answer_append_iff.1 hq
    exact hfront w hw
  · have hdecided : ∀ l, (Stage.options .empty).after (front ++ arg :: l) = .decided v := by
      intro l
      rw [Stage.after_append, Stage.after_cons, harg, Stage.after_decided]
    rw [answer, answer, Stage.ofArguments_eq, Stage.ofArguments_eq, hdecided, hdecided]

/-- Nothing that follows changes what is told of a command line exactly if that is the usage, the
version, an extra argument or an unknown option. All else some continuation changes: a report, a
path that is missing, and two inputs. So the first argument that decides wins over all that follows
it. -/
theorem answer_append_iff (p : List String) :
    ((∀ q, answer (p ++ q) = answer p) ↔
      answer p = .ok .help ∨ answer p = .ok .version ∨
        (∃ arg, answer p = .error ("unexpected extra argument '" ++ arg ++ "'")) ∨
        ∃ arg, answer p = .error ("unknown option '" ++ arg ++ "'")) ∧
    ((∃ config, answer p = .ok (.lex config)) ∨
      (∃ option, answer p = .error ("'" ++ option ++ "' requires a path")) ∨
      answer p = .error "give either an expression or --file, not both" →
        ∃ q, answer (p ++ q) ≠ answer p) ∧
    ((∀ q, answer (p ++ q) = answer p) → ∃ front arg behind, p = front ++ arg :: behind ∧
      (∃ q, answer (front ++ q) ≠ answer front) ∧ ∀ q, answer (front ++ arg :: q) = answer p) := by
  refine ⟨forall_answer_append_iff_verdict.trans exists_verdict_iff, fun hopen => ?_,
    exists_deciding_argument⟩
  by_contra! hq
  obtain ⟨v, hv⟩ := forall_answer_append_iff_verdict.1 hq
  rcases hopen with ⟨config, h⟩ | ⟨option, h⟩ | h
  · have hlex : ofArguments p = .ok (.lex config) := told_injective h
    cases v <;> cases hv.symm.trans hlex
  · have hpath : ofArguments p = .error (.missingPath option) := told_injective h
    cases v <;> cases hv.symm.trans hpath
  · have htwo : ofArguments p = .error .twoInputs := told_injective h
    cases v <;> cases hv.symm.trans htwo

/-- Behind `--` an option is an expression too many, and a path may still be given. -/
theorem answer_append_extra :
    (∀ q, answer (["a", "--", "-h"] ++ q) = .error "unexpected extra argument '-h'") ∧
    ∃ q, answer (["-f"] ++ q) ≠ answer ["-f"] := by
  have hextra : answer ["a", "--", "-h"] = .error "unexpected extra argument '-h'" := by decide
  have hpath : answer ["-f"] = .error "'-f' requires a path" := by decide
  constructor
  · have hfinal := (answer_append_iff ["a", "--", "-h"]).1.2 (.inr (.inr (.inl ⟨"-h", hextra⟩)))
    intro q
    rw [hfinal q, hextra]
  · exact (answer_append_iff ["-f"]).2.1 (.inr (.inl ⟨"-f", hpath⟩))

end Command

end ExprLexer
