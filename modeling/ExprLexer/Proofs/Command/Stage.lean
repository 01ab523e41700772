/-
Command lines read argument by argument. How far a command line has been read is a stage, each
argument leads from one stage to the next, and the outcome is that of the last stage: so a command
line can be cut in two, and the second part read from the stage that the first part leads to.
-/
import ExprLexer.Command.Arguments

namespace ExprLexer.Command

/-! ## Stages -/

/-- What an argument decides, whatever follows it. -/
inductive Verdict where
  | help
  | version
  | extraArgument (arg : String)
  | unknownOption (arg : String)

def Verdict.outcome : Verdict → Except UsageError Command
  | help => .ok .help
  | version => .ok .version
  | extraArgument arg => .error (.extraArgument arg)
  | unknownOption arg => .error (.unknownOption arg)

/-- How far a command line has been read. -/
inductive Stage where
  /-- Options may follow. -/
  | options (r : Request)
  /-- The path that an option needs has to follow. -/
  | needsPath (option : String) (r : Request)
  /-- What follows are expressions. -/
  | expressions (r : Request)
  /-- What follows does not matter. -/
  | decided (v : Verdict)

namespace Stage

/-- The stage after an expression, if reading goes on at `stage`. -/
def addExpression (stage : Request → Stage) (r : Request) (arg : String) : Stage :=
  match r.expression with
  | none => stage { r with expression := some arg }
  | some _ => decided (.extraArgument arg)

/-- The stage after one more argument. -/
def next : Stage → String → Stage
  | options r, arg =>
    match Item.ofArgument arg with
    | .expression => addExpression options r arg
    | .endOfOptions => expressions r
    | .help => decided .help
    | .version => decided .version
    | .positions => options { r with positions := true }
    | .names => options { r with names := true }
    | .file path => options { r with file := some path }
    | .fileNext => needsPath arg r
    | .unknown => decided (.unknownOption arg)
  | needsPath _ r, arg => options { r with file := some arg }
  | expressions r, arg => addExpression expressions r arg
  | decided v, _ => decided v

/-- The stage after some more arguments. -/
def after (x : Stage) (args : List String) : Stage := args.foldl next x

/-- The outcome if nothing follows. -/
def outcome : Stage → Except UsageError Command
  | options r => r.finish
  | needsPath option _ => .error (.missingPath option)
  | expressions r => r.finish
  | decided v => v.outcome

variable {x : Stage} {r : Request} {v : Verdict} {arg : String} {args rest : List String}

@[simp] theorem after_nil : x.after [] = x := rfl

theorem after_cons : x.after (arg :: rest) = (x.next arg).after rest := rfl

theorem after_append : x.after (args ++ rest) = (x.after args).after rest := List.foldl_append

theorem after_decided : (decided v).after args = decided v := by
  induction args with
  | nil => rfl
  | cons arg args ih => exact ih

/-! ## Reading by stages -/

theorem outcome_addExpression {stage : Request → Stage} {read : Request → Except UsageError Command}
    (h : ∀ r, read r = ((stage r).after rest).outcome) :
    (do read (← r.addExpression arg)) = ((addExpression stage r arg).after rest).outcome := by
  unfold Request.addExpression addExpression
  cases r.expression with
  | none => exact h _
  | some _ =>
    rw [after_decided]
    rfl

theorem readExpressions_eq : readExpressions r args = ((expressions r).after args).outcome := by
  induction args generalizing r with
  | nil => rfl
  | cons arg args ih => exact outcome_addExpression fun r => ih

theorem readArguments_eq : readArguments r args = ((options r).after args).outcome := by
  fun_induction readArguments r args with
  | case1 r => rfl
  | case2 r arg rest hitem ih =>
    rw [after_cons, next, hitem]
    exact outcome_addExpression ih
  | case3 r arg rest hitem => rw [readExpressions_eq, after_cons, next, hitem]
  | case4 r arg rest hitem => rw [after_cons, next, hitem, after_decided]; rfl
  | case5 r arg rest hitem => rw [after_cons, next, hitem, after_decided]; rfl
  | case6 r arg rest hitem ih => rw [ih, after_cons, next, hitem]
  | case7 r arg rest hitem ih => rw [ih, after_cons, next, hitem]
  | case8 r arg rest path hitem ih => rw [ih, after_cons, next, hitem]
  | case9 r arg hitem => rw [after_cons, next, hitem]; rfl
  | case10 r arg hitem path rest ih => rw [ih, after_cons, after_cons, next, hitem]; rfl
  | case11 r arg rest hitem => rw [after_cons, next, hitem, after_decided]; rfl

theorem ofArguments_eq (args : List String) :
    ofArguments args = ((options .empty).after args).outcome :=
  readArguments_eq

end Stage

end ExprLexer.Command
