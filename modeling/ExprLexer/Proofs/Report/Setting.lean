/-
The settings of the log as they are written, and what each of them shows. A setting is empty, or a
threshold for all events, or the start of a target, alone or with a threshold for the events from
there. The program's own setting hides the shared one, whatever is in it.
-/
import ExprLexer.Report.Filter

namespace ExprLexer

variable {threshold : Option Level} {target : String} {e : Event}

namespace Filter

/-- The word for a threshold. -/
def word : Option Level → String
  | some .trace => "trace"
  | some .debug => "debug"
  | some .info => "info"
  | some .warn => "warn"
  | some .error => "error"
  | none => "off"

/-- A target is written in letters, digits, colons, dashes and underscores. -/
def IsTarget (target : String) : Prop :=
  target ≠ "" ∧ target.toList.all fun c => c.isAlphanum || [':', '-', '_'].contains c

/-- A target that stands alone is told from a threshold: it is not the word for one, in whatever
case, and not a number. -/
structure IsLone (target : String) : Prop where
  legal : IsTarget target
  not_word : threshold? target.toLower = none
  not_number : target.toList.all Char.isDigit = false

/-- An event is as severe as a threshold or more. -/
def Reaches (threshold : Option Level) (e : Event) : Prop :=
  ∃ level ∈ threshold, level.severity ≤ e.level.severity

instance : Decidable (Reaches threshold e) :=
  inferInstanceAs (Decidable (∃ level ∈ threshold, level.severity ≤ e.level.severity))

/-! ## The filter of a setting -/

theorem threshold?_word (threshold : Option Level) :
    threshold? (word threshold) = some threshold := by
  cases threshold with
  | none => rfl
  | some level => cases level <;> rfl

theorem equals_not_mem_word (threshold : Option Level) : '=' ∉ (word threshold).toList := by
  cases threshold with
  | none => decide
  | some level => cases level <;> decide

theorem word_ne_empty (threshold : Option Level) : word threshold ≠ "" := by
  cases threshold with
  | none => decide
  | some level => cases level <;> decide

/-- A setting may name the target of any event. -/
theorem isTarget_target (e : Event) : IsTarget e.target := by
  have hdriver : IsTarget "slc::driver" := ⟨by decide, by decide⟩
  have hbuffer : IsTarget "sl_lexer::source_buffer" := ⟨by decide, by decide⟩
  have hscanner : IsTarget "sl_lexer::scanner" := ⟨by decide, by decide⟩
  cases e with
  | scanning | issueWarned | complete => exact hdriver
  | issueFound => exact hbuffer
  | token => exact hscanner

theorem IsTarget.equals_not_mem (h : IsTarget target) : '=' ∉ target.toList :=
  fun hmem => absurd (List.all_eq_true.1 h.2 '=' hmem) (by decide)

theorem splitOn_word (threshold : Option Level) :
    (word threshold).toList.splitOn '=' = [(word threshold).toList] :=
  List.splitOn_eq_singleton (equals_not_mem_word threshold)

theorem ofText_word (threshold : Option Level) : ofText (word threshold) = ⟨"", threshold⟩ := by
  simp [ofText, word_ne_empty, splitOn_word, threshold?_word]

theorem ofText_part (h : IsTarget target) (threshold : Option Level) :
    ofText (target ++ "=" ++ word threshold) = ⟨target, threshold⟩ := by
  have htarget : ∀ c ∈ target.toList, (c == '=') = false := fun c hc =>
    beq_false_of_ne fun heq => h.equals_not_mem (heq ▸ hc)
  have hsplit : (target.toList ++ '=' :: (word threshold).toList).splitOn '=' =
      [target.toList, (word threshold).toList] :=
    (List.splitOnP_append_cons_of_forall_mem htarget '=' rfl _).trans
      (congrArg _ (splitOn_word threshold))
  simp [ofText, hsplit, threshold?_word]

theorem eq_word_of_threshold? {text : String} (h : threshold? text = some threshold) :
    text = word threshold := by
  unfold threshold? at h
  split at h <;> cases h <;> rfl

theorem toLower_word (threshold : Option Level) : (word threshold).toLower = word threshold := by
  cases threshold with
  | none => decide +kernel
  | some level => cases level <;> decide +kernel

theorem ofText_lone (h : IsLone target) : ofText target = ⟨target, some .trace⟩ := by
  have hword : threshold? target = none := by
    refine Option.eq_none_iff_forall_ne_some.2 fun threshold hsome => ?_
    have hnone := h.not_word
    rw [eq_word_of_threshold? hsome, toLower_word, threshold?_word] at hnone
    cases hnone
  have hsplit : target.toList.splitOn '=' = [target.toList] :=
    List.splitOn_eq_singleton h.legal.equals_not_mem
  simp [ofText, h.legal.1, hsplit, hword]

example : IsLone "slc" := ⟨⟨by decide, by decide⟩, by decide +kernel, by decide⟩

theorem passes_iff : passes ⟨target, threshold⟩ e = true ↔
    target.toList <+: e.target.toList ∧ Reaches threshold e := by
  cases threshold with
  | none => simp [passes, Reaches]
  | some level => simp [passes, Reaches, and_comm]

end Filter

/-- A setting of the log. -/
inductive Setting where
  | empty
  | all (threshold : Option Level)
  | lone (target : String) (legal : Filter.IsLone target)
  | part (target : String) (legal : Filter.IsTarget target) (threshold : Option Level)

namespace Setting

/-- A setting as it is written. -/
def text : Setting → String
  | empty => ""
  | all threshold => Filter.word threshold
  | lone target _ => target
  | part target _ threshold => target ++ "=" ++ Filter.word threshold

/-- What a setting shows: the errors if it is empty, and else the events of all targets or of those
with the given start, all of them or the ones that reach the threshold. -/
def Shows : Setting → Event → Prop
  | empty, e => e.level = .error
  | all threshold, e => Filter.Reaches threshold e
  | lone target _, e => target.toList <+: e.target.toList
  | part target _ threshold, e =>
    target.toList <+: e.target.toList ∧ Filter.Reaches threshold e

instance : (x : Setting) → (e : Event) → Decidable (x.Shows e)
  | empty, e => inferInstanceAs (Decidable (e.level = .error))
  | all threshold, e => inferInstanceAs (Decidable (Filter.Reaches threshold e))
  | lone target _, e => inferInstanceAs (Decidable (target.toList <+: e.target.toList))
  | part target _ threshold, e =>
    inferInstanceAs (Decidable (target.toList <+: e.target.toList ∧ Filter.Reaches threshold e))

theorem passes_text (x : Setting) : (Filter.ofText x.text).passes e = true ↔ x.Shows e := by
  cases x with
  | empty =>
    have hempty : Filter.ofText "" = ⟨"", some .error⟩ := by simp [Filter.ofText]
    rw [text, hempty, Filter.passes_iff, Shows]
    cases hl : e.level <;> simp [Filter.Reaches, hl, Level.severity]
  | all threshold =>
    rw [text, Filter.ofText_word, Filter.passes_iff]
    simp [Shows]
  | lone target legal =>
    have hall : Filter.Reaches (some .trace) e := ⟨.trace, rfl, Nat.zero_le _⟩
    rw [text, Filter.ofText_lone legal, Filter.passes_iff, Shows]
    exact and_iff_left hall
  | part target legal threshold =>
    rw [text, Filter.ofText_part legal, Filter.passes_iff, Shows]

/-- Whether an event is shown under the program's own setting and the shared one, either of which
may be missing. -/
def shown (own shared : Option Setting) (e : Event) : Bool :=
  (own <|> shared).any fun x => decide (x.Shows e)

end Setting

namespace LogSettings

variable {own shared : Option Setting}

/-- Settings as the program finds them. -/
def ofSettings (own shared : Option Setting) : LogSettings :=
  ⟨own.map Setting.text, shared.map Setting.text⟩

/-- The events that are logged are those that the settings show. -/
theorem shows_ofSettings : Logger.standard.shows (ofSettings own shared) =
    Setting.shown own shared := by
  have hchosen : (ofSettings own shared).chosen? = (own <|> shared).map Setting.text := by
    cases own with
    | none => cases shared <;> rfl
    | some x => rfl
  funext e
  rw [Logger.shows, hchosen, Option.any_map]
  unfold Setting.shown
  congr 1
  funext x
  exact Bool.eq_iff_iff.2 (by simp [Logger.standard, x.passes_text])

/-- The program's own setting hides the shared one even if it is empty. -/
example : Setting.shown (some .empty) (some (.all (some .trace))) (.scanning 3) = false := by
  decide

end LogSettings

end ExprLexer
