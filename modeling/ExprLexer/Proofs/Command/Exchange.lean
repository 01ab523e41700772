/-
Options wherever they stand. Before `--` a command line is a sequence of items, each an argument by
itself or an option with the path after it. Between two items either options may follow or the
outcome is decided. There it does not matter how the option for a file is written, and a flag can
trade places with an item beside it or be given twice, whatever comes of the command line.
-/
import ExprLexer.Proofs.Command.Grammar

namespace ExprLexer.Command

/-! ## Items and flags -/

/-- Arguments that are one item: an option and the path it needs, or any other argument. -/
inductive Complete : List String → Prop
  | withPath {option : String} (path : String) (h : option = "-f" ∨ option = "--file") :
    Complete [option, path]
  | single {arg : String} (hshort : arg ≠ "-f") (hlong : arg ≠ "--file") : Complete [arg]

/-- The options that turn something on. -/
inductive Flag where
  | positions
  | names

def Flag.argument : Flag → String
  | positions => "--positions"
  | names => "--names"

/-- A request with what the flag is for turned on. -/
def Flag.raise : Flag → Request → Request
  | positions, r => { r with positions := true }
  | names, r => { r with names := true }

variable {flag : Flag} {r : Request} {arg path : String} {args item : List String}
  {front : List (List String)} {form : FileForm}

@[simp] theorem Flag.raise_raise : flag.raise (flag.raise r) = flag.raise r := by
  cases flag <;> rfl

/-! ## Stages with a request changed -/

namespace Stage

/-- A stage with its request changed, if it has one. -/
def map (f : Request → Request) : Stage → Stage
  | options r => options (f r)
  | needsPath option r => needsPath option (f r)
  | expressions r => expressions (f r)
  | decided v => decided v

variable {x : Stage}

theorem addExpression_raise {stage : Request → Stage}
    (hstage : ∀ r, (stage r).map flag.raise = stage (flag.raise r)) :
    addExpression stage (flag.raise r) arg = (addExpression stage r arg).map flag.raise := by
  obtain ⟨expression, file, positions, names⟩ := r
  cases expression with
  | none =>
    show _ = (stage _).map flag.raise
    rw [hstage]
    cases flag <;> rfl
  | some first => cases flag <;> rfl

/-- No argument is read otherwise after a flag. -/
theorem next_raise : (x.map flag.raise).next arg = (x.next arg).map flag.raise := by
  cases x with
  | options r =>
    -- how an argument is read depends on the expression at most, which no flag touches
    simp only [map, next]
    cases Item.ofArgument arg with
    | expression => exact addExpression_raise fun _ => rfl
    | endOfOptions | help | version | fileNext | unknown => rfl
    | positions | names | file => cases flag <;> rfl
  | needsPath option r => cases flag <;> rfl
  | expressions r => exact addExpression_raise fun _ => rfl
  | decided v => rfl

theorem after_raise : (x.map flag.raise).after args = (x.after args).map flag.raise := by
  induction args generalizing x with
  | nil => rfl
  | cons arg args ih => rw [after_cons, after_cons, next_raise, ih]

theorem map_raise_raise : (x.map flag.raise).map flag.raise = x.map flag.raise := by
  cases x <;> simp [map]

/-! ## Stages between items -/

/-- Whether a stage is one between two items: options may follow, or nothing matters. -/
def Between : Stage → Prop
  | options _ | decided _ => True
  | needsPath _ _ | expressions _ => False

theorem between_addExpression : (addExpression options r arg).Between := by
  unfold addExpression
  cases r.expression <;> trivial

/-- An item other than `--` leads from a stage between items to another one. -/
theorem Between.after_item (hx : x.Between) (hi : Complete item) (hne : item ≠ ["--"]) :
    (x.after item).Between := by
  cases x with
  | needsPath option r => cases hx
  | expressions r => cases hx
  | decided v =>
    rw [after_decided]
    trivial
  | options r =>
    cases hi with
    | withPath path hoption => rcases hoption with rfl | rfl <;> trivial
    | @single arg hshort hlong =>
      simp only [after_cons, after_nil, next]
      cases hitem : Item.ofArgument arg with
      | expression => exact between_addExpression
      | help | version | positions | names | file | unknown => trivial
      | endOfOptions =>
        have harg : arg = "--" := fits_of_ofArgument hitem
        exact absurd (congrArg (fun a => [a]) harg) hne
      | fileNext =>
        have harg : arg = "-f" ∨ arg = "--file" := fits_of_ofArgument hitem
        exact (harg.elim hshort hlong).elim

theorem Between.after_items (hx : x.Between) (hf : ∀ item ∈ front, Complete item ∧ item ≠ ["--"]) :
    (x.after front.flatten).Between := by
  induction front generalizing x with
  | nil => exact hx
  | cons item front ih =>
    obtain ⟨hitem, hfront⟩ := List.forall_mem_cons.1 hf
    rw [List.flatten_cons, after_append]
    exact ih (hx.after_item hitem.1 hitem.2) hfront

theorem Between.after_flag (hx : x.Between) : x.after [flag.argument] = x.map flag.raise := by
  cases x with
  | needsPath option r => cases hx
  | expressions r => cases hx
  | decided v => rfl
  | options r => cases flag <;> rfl

/-- A file is asked for alike in all its forms. -/
theorem Between.after_file (hx : x.Between) : x.after (Part.file form path).arguments =
    x.map fun r => { r with file := some path } := by
  cases x with
  | needsPath option r => cases hx
  | expressions r => cases hx
  | decided v => exact after_decided
  | options r =>
    have hspelled : (Part.file form path).Spelled := trivial
    exact after_part hspelled

/-- A flag and an item beside it lead to the same stage in either order. -/
theorem Between.exchange (hx : x.Between) (hi : Complete item) (hne : item ≠ ["--"]) :
    (x.after [flag.argument]).after item = (x.after item).after [flag.argument] := by
  rw [hx.after_flag, after_raise, (hx.after_item hi hne).after_flag]

end Stage

/-! ## Command lines -/

/-- Behind any items but `--` and whatever follows, the three forms of the option for a file can
stand for each other, a flag and an item beside it can trade places, and a flag given twice is as
good as given once. All this holds also of command lines that fail. -/
theorem ofArguments_exchange (hf : ∀ item ∈ front, Complete item ∧ item ≠ ["--"])
    (rest : List String) :
    (∀ form form' path,
      ofArguments (front.flatten ++ (Part.file form path).arguments ++ rest) =
        ofArguments (front.flatten ++ (Part.file form' path).arguments ++ rest)) ∧
    (∀ (flag : Flag) item, Complete item → item ≠ ["--"] →
      ofArguments (front.flatten ++ [flag.argument] ++ item ++ rest) =
        ofArguments (front.flatten ++ item ++ [flag.argument] ++ rest)) ∧
    ∀ flag : Flag, ofArguments (front.flatten ++ [flag.argument, flag.argument] ++ rest) =
      ofArguments (front.flatten ++ [flag.argument] ++ rest) := by
  have hstart : (Stage.options .empty).Between := trivial
  have hx := hstart.after_items hf
  simp only [Stage.ofArguments_eq, Stage.after_append]
  refine ⟨fun form form' path => ?_, fun flag item hi hne => ?_, fun flag => ?_⟩
  · rw [hx.after_file, hx.after_file]
  · rw [hx.exchange hi hne]
  · rw [← List.singleton_append, Stage.after_append, hx.after_flag, Stage.after_raise,
      hx.after_flag, Stage.map_raise_raise]

/-- Behind a path that looks like the end of the options. -/
theorem ofArguments_exchange_failing :
    ofArguments ["-f", "--", "--file=a", "-f"] = .error (.missingPath "-f") ∧
    ofArguments ["-f", "--", "1", "--names", "--", "--names"] =
      .error (.extraArgument "--names") ∧
    ofArguments ["-f", "--", "--names", "--names"] = .ok (.lex ⟨.file "--", false, true⟩) := by
  have hf : ∀ item ∈ [["-f", "--"]], Complete item ∧ item ≠ ["--"] := by
    rintro item hitem
    rw [List.mem_singleton.1 hitem]
    exact ⟨.withPath "--" (.inl rfl), by decide⟩
  have hone : Complete ["1"] := .single (by decide) (by decide)
  refine ⟨?_, ?_, ?_⟩
  · exact ((ofArguments_exchange hf ["-f"]).1 .attached .short "a").trans (by decide)
  · exact ((ofArguments_exchange hf ["--", "--names"]).2.1 .names ["1"] hone
      (by decide)).symm.trans (by decide)
  · exact ((ofArguments_exchange hf []).2.2 .names).trans (by decide)

end ExprLexer.Command
