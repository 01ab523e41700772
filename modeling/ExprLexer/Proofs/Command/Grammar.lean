/-
The grammar of command lines that ask for a report. Such a command line is a sequence of parts, each
an option with what belongs to it or an expression, and behind `--` expressions only. It has one
expression at most, and none if it names a file; and it is divided into its parts in one way only.
-/
import ExprLexer.Proofs.Command.Stage
import ExprLexer.Proofs.Token.Spelling
import Mathlib.Data.List.Basic

namespace ExprLexer

namespace Text

theorem firstByte_eq_dash_iff {c : Char} : firstByte c = 0x2D ↔ c = '-' := by
  have h := firstByte_cases c
  rw [← UInt8.toNat_inj, ← Char.toNat_inj]
  simp only [UInt8.reduceToNat, Char.reduceToNat]
  omega

/-- The byte behind a character of one byte is the first of the next character. -/
theorem byteAt?_one {c d : Char} (h : c.utf8Size = 1) (t : String) :
    byteAt? (String.singleton c ++ (String.singleton d ++ t)) 1 = some (firstByte d) := by
  obtain ⟨bs, hbs, -⟩ := bytes_singleton_append d t
  rw [byteAt?_eq, bytes_append, bytes_singleton_of_size h, hbs]
  rfl

end Text

namespace Command

/-! ## Parts -/

/-- How the option for a file and its path are written. -/
inductive FileForm where
  /-- `-f` and, as the next argument, the path. -/
  | short
  /-- `--file` and, as the next argument, the path. -/
  | long
  /-- `--file=` and the path in one argument. -/
  | attached
  deriving DecidableEq

/-- An option with what belongs to it, or an expression. -/
inductive Part where
  | positions
  | names
  | file (form : FileForm) (path : String)
  | expression (text : String)
  deriving DecidableEq

/-- The arguments that a part is written as. -/
def Part.arguments : Part → List String
  | positions => ["--positions"]
  | names => ["--names"]
  | file .short path => ["-f", path]
  | file .long path => ["--file", path]
  | file .attached path => ["--file=" ++ path]
  | expression text => [text]

def Part.expression? : Part → Option String
  | expression text => some text
  | positions | names | file _ _ => none

def Part.path? : Part → Option String
  | file _ path => some path
  | positions | names | expression _ => none

/-- The arguments that are expressions: those with no dash in front, the dash by itself, and those
with a byte behind the dash that is neither an ASCII letter nor a dash. -/
def IsExpression (arg : String) : Prop :=
  arg.toList.head? ≠ some '-' ∨ arg = "-" ∨
    ∃ b, Text.byteAt? arg 1 = some b ∧ isLetter b = false ∧ b ≠ 0x2D

/-- Whether a part can be read as itself, and not as another one. -/
def Part.Spelled : Part → Prop
  | expression text => IsExpression text
  | _ => True

/-! ## Arguments by themselves -/

variable {arg path text : String} {args rest : List String} {r : Request} {part : Part}

theorem looksLikeExpression_iff : looksLikeExpression arg = true ↔ IsExpression arg := by
  unfold looksLikeExpression IsExpression
  rcases Text.eq_empty_or_singleton_append arg with rfl | ⟨c, t, rfl⟩
  · simp
  by_cases hc : c = '-'
  · subst hc
    rcases Text.eq_empty_or_singleton_append t with rfl | ⟨d, u, rfl⟩
    · simp
    · -- the byte behind the dash is a letter or a dash just if the character is
      rw [Text.byteAt?_one (by decide)]
      simp [byteClass_letter.first, Text.firstByte_eq_dash_iff]
  · simp [hc]

theorem attachedPath?_eq_some_iff : attachedPath? arg = some path ↔ arg = "--file=" ++ path := by
  unfold attachedPath?
  rw [Option.map_eq_some_iff]
  constructor
  · rintro ⟨l, hl, rfl⟩
    rw [List.isPrefixOf?_eq_some_iff_append_eq] at hl
    rw [← String.toList_inj, ← hl]
    simp
  · rintro rfl
    exact ⟨path.toList, List.isPrefixOf?_eq_some_iff_append_eq.2 (by simp), by simp⟩

/-- How the arguments look that are taken for an item. Of the unknown ones nothing is said. -/
def Item.Fits (arg : String) : Item → Prop
  | .expression => IsExpression arg
  | .endOfOptions => arg = "--"
  | .help => arg = "-h" ∨ arg = "--help"
  | .version => arg = "-V" ∨ arg = "--version"
  | .positions => arg = "--positions"
  | .names => arg = "--names"
  | .fileNext => arg = "-f" ∨ arg = "--file"
  | .file path => arg = "--file=" ++ path
  | .unknown => True

theorem fits_of_ofArgument {item : Item} (h : Item.ofArgument arg = item) : item.Fits arg := by
  subst h
  unfold Item.ofArgument
  split_ifs with he hd hh hv hp hn hf
  · exact looksLikeExpression_iff.1 he
  · exact hd
  · exact hh
  · exact hv
  · exact hp
  · exact hn
  · exact hf
  · split
    · exact attachedPath?_eq_some_iff.1 ‹_›
    · trivial

theorem ofArgument_expression (h : IsExpression arg) : Item.ofArgument arg = .expression :=
  if_pos (looksLikeExpression_iff.2 h)

theorem ofArgument_attached : Item.ofArgument ("--file=" ++ path) = .file path := by
  have hlooks : looksLikeExpression ("--file=" ++ path) = false := by
    simp [looksLikeExpression]
  -- no other option has this sign in this place
  have hne : ∀ s : String, s.toList[6]? ≠ some '=' → "--file=" ++ path ≠ s := by
    rintro s hs rfl
    simp at hs
  have hpath : attachedPath? ("--file=" ++ path) = some path := attachedPath?_eq_some_iff.2 rfl
  simp [Item.ofArgument, hlooks, hpath, hne "--", hne "-h", hne "--help", hne "-V",
    hne "--version", hne "--positions", hne "--names", hne "-f", hne "--file"]

/-! ## The parts of a command line -/

/-- The part that arguments start with, and the arguments after it. -/
def Part.read? : List String → Option (Part × List String)
  | [] => none
  | arg :: rest =>
    match Item.ofArgument arg, rest with
    | .expression, _ => some (expression arg, rest)
    | .positions, _ => some (positions, rest)
    | .names, _ => some (names, rest)
    | .file path, _ => some (file .attached path, rest)
    | .fileNext, path :: rest => some (file (if arg = "-f" then .short else .long) path, rest)
    | _, _ => none

theorem Part.read?_arguments (h : part.Spelled) (rest : List String) :
    read? (part.arguments ++ rest) = some (part, rest) := by
  cases part with
  | positions => rfl
  | names => rfl
  | file form path =>
    cases form with
    | short => rfl
    | long => rfl
    | attached => simp [read?, arguments, ofArgument_attached]
  | expression text => simp [read?, arguments, ofArgument_expression h]

/-- A command line divided into its parts. -/
structure Split where
  parts : List Part
  /-- The arguments behind `--`, if it is there. -/
  behind : Option (List String)

namespace Split

/-- The arguments that a division is of. -/
def arguments (x : Split) : List String :=
  x.parts.flatMap Part.arguments ++ x.behind.elim [] ("--" :: ·)

def expressions (x : Split) : List String :=
  x.parts.filterMap Part.expression? ++ x.behind.getD []

def paths (x : Split) : List String := x.parts.filterMap Part.path?

def Spelled (x : Split) : Prop := ∀ part ∈ x.parts, part.Spelled

/-- A division as a report is asked for. -/
structure Legal (x : Split) : Prop where
  spelled : x.Spelled
  single : x.expressions.length ≤ 1
  exclusive : x.paths = [] ∨ x.expressions = []

/-- The report that is asked for. -/
def config (x : Split) : Config where
  input := match x.paths.getLast? with
    | some path => .file path
    | none => .inline (x.expressions.head?.getD "")
  positions := .positions ∈ x.parts
  names := .names ∈ x.parts

variable {x y : Split} {parts : List Part} {behind : Option (List String)}

theorem arguments_cons :
    arguments ⟨part :: parts, behind⟩ = part.arguments ++ arguments ⟨parts, behind⟩ := by
  simp [arguments]

/-- Nothing that is left after the parts is taken for a part. -/
theorem read?_behind : Part.read? (arguments ⟨[], behind⟩) = none := by
  cases behind <;> rfl

/-- A command line is divided in one way only. -/
theorem eq_of_arguments_eq (hx : x.Spelled) (hy : y.Spelled) (h : x.arguments = y.arguments) :
    x = y := by
  obtain ⟨ps, b⟩ := x
  obtain ⟨qs, c⟩ := y
  -- on the parts: reading gives the first one, and what is left
  induction ps generalizing qs with
  | nil =>
    cases qs with
    | nil => cases b <;> cases c <;> simp_all [arguments]
    | cons q qs =>
      have hq := Part.read?_arguments (hy q (by simp)) (arguments ⟨qs, c⟩)
      rw [← arguments_cons, ← h, read?_behind] at hq
      cases hq
  | cons p ps ih =>
    have hp := Part.read?_arguments (hx p (by simp)) (arguments ⟨ps, b⟩)
    rw [← arguments_cons, h] at hp
    cases qs with
    | nil =>
      rw [read?_behind] at hp
      cases hp
    | cons q qs =>
      rw [arguments_cons, Part.read?_arguments (hy q (by simp))] at hp
      obtain ⟨rfl, hrest⟩ := Prod.mk.inj (Option.some.inj hp)
      have htail := ih (fun part hm => hx part (List.mem_cons_of_mem _ hm)) qs
        (fun part hm => hy part (List.mem_cons_of_mem _ hm)) hrest.symm
      obtain ⟨rfl, rfl⟩ := Split.mk.inj htail
      rfl

/-- A division with one part more in front. -/
theorem exists_cons (part : Part) (h : part.Spelled)
    (hx : ∃ x : Split, x.arguments = rest ∧ x.Spelled) :
    ∃ x : Split, x.arguments = part.arguments ++ rest ∧ x.Spelled := by
  obtain ⟨⟨parts, behind⟩, rfl, hs⟩ := hx
  exact ⟨⟨part :: parts, behind⟩, arguments_cons, List.forall_mem_cons.2 ⟨h, hs⟩⟩

/-- A command line that asks for a report can be divided. -/
theorem exists_split {config : Config} (h : readArguments r args = .ok (.lex config)) :
    ∃ x : Split, x.arguments = args ∧ x.Spelled := by
  fun_induction readArguments r args with
  | case1 r => exact ⟨⟨[], none⟩, rfl, List.forall_mem_nil _⟩
  | case2 r arg rest hitem ih =>
    have harg : IsExpression arg := fits_of_ofArgument hitem
    cases hadd : r.addExpression arg with
    | error e =>
      rw [hadd] at h
      cases h
    | ok r' =>
      rw [hadd] at h
      exact exists_cons (.expression arg) harg (ih r' h)
  | case3 r arg rest hitem =>
    obtain rfl : arg = "--" := fits_of_ofArgument hitem
    exact ⟨⟨[], some rest⟩, rfl, List.forall_mem_nil _⟩
  | case4 r arg rest hitem => cases h
  | case5 r arg rest hitem => cases h
  | case6 r arg rest hitem ih =>
    obtain rfl : arg = "--positions" := fits_of_ofArgument hitem
    exact exists_cons .positions trivial (ih h)
  | case7 r arg rest hitem ih =>
    obtain rfl : arg = "--names" := fits_of_ofArgument hitem
    exact exists_cons .names trivial (ih h)
  | case8 r arg rest path hitem ih =>
    obtain rfl : arg = "--file=" ++ path := fits_of_ofArgument hitem
    exact exists_cons (.file .attached path) trivial (ih h)
  | case9 r arg hitem => cases h
  | case10 r arg hitem path rest ih =>
    obtain rfl | rfl : arg = "-f" ∨ arg = "--file" := fits_of_ofArgument hitem
    · exact exists_cons (.file .short path) trivial (ih h)
    · exact exists_cons (.file .long path) trivial (ih h)
  | case11 r arg rest hitem => cases h

end Split

/-! ## What a division asks for -/

/-- The outcome of a request if these expressions follow: a second one is too many. -/
def Request.close (r : Request) (texts : List String) : Except UsageError Command :=
  match r.expression.toList ++ texts with
  | [] => r.finish
  | [text] => { r with expression := some text }.finish
  | _ :: arg :: _ => .error (.extraArgument arg)

namespace Request

variable {first : String} {texts : List String}

theorem close_nil : r.close [] = r.finish := by
  obtain ⟨_ | text, file, positions, names⟩ := r <;> rfl

theorem close_cons_of_none (h : r.expression = none) :
    r.close (text :: texts) = { r with expression := some text }.close texts := by
  rw [close, close, h]
  cases texts <;> rfl

theorem close_cons_of_some (h : r.expression = some first) :
    r.close (text :: texts) = .error (.extraArgument text) := by
  rw [close, h]
  rfl

end Request

namespace Stage

/-- An expression counts as the first of those that follow. -/
theorem close_addExpression {stage : Request → Stage} {texts : List String}
    (h : ∀ r, ((stage r).after rest).outcome = r.close texts) :
    ((addExpression stage r text).after rest).outcome = r.close (text :: texts) := by
  unfold addExpression
  cases hr : r.expression with
  | none => rw [h, Request.close_cons_of_none hr]
  | some first => rw [after_decided, Request.close_cons_of_some hr]; rfl

theorem outcome_expressions : ((expressions r).after args).outcome = r.close args := by
  induction args generalizing r with
  | nil => exact Request.close_nil.symm
  | cons arg args ih => exact close_addExpression fun r => ih

/-- The stage that a part leads to. -/
theorem after_part (h : part.Spelled) : (options r).after part.arguments =
    match part with
    | .positions => options { r with positions := true }
    | .names => options { r with names := true }
    | .file _ path => options { r with file := some path }
    | .expression text => addExpression options r text := by
  cases part with
  | positions => rfl
  | names => rfl
  | file form path =>
    cases form with
    | short => rfl
    | long => rfl
    | attached =>
      rw [Part.arguments, after_cons, next, ofArgument_attached]
      rfl
  | expression text =>
    rw [Part.arguments, after_cons, next, ofArgument_expression h]
    rfl

end Stage

namespace Split

variable {x : Split} {parts : List Part} {behind : Option (List String)}

theorem expressions_cons : expressions ⟨part :: parts, behind⟩ =
    part.expression?.toList ++ expressions ⟨parts, behind⟩ := by
  cases part <;> rfl

/-- A request with the options of a division added. -/
def request (r : Request) (x : Split) : Request :=
  { r with
    file := (r.file.toList ++ x.paths).getLast?
    positions := r.positions || decide (.positions ∈ x.parts)
    names := r.names || decide (.names ∈ x.parts) }

theorem request_nil : request r ⟨[], behind⟩ = r := by
  obtain ⟨expression, _ | path, positions, names⟩ := r <;> simp [request, paths]

/-- The outcome of a divided command line is decided by its expressions and its options, wherever
each of them stands. -/
theorem outcome_arguments (hx : x.Spelled) :
    ((Stage.options r).after x.arguments).outcome = (x.request r).close x.expressions := by
  obtain ⟨parts, behind⟩ := x
  induction parts generalizing r with
  | nil =>
    rw [request_nil]
    cases behind with
    | none => exact Request.close_nil.symm
    | some l => exact Stage.outcome_expressions
  | cons part parts ih =>
    have ih : ∀ r, ((Stage.options r).after (arguments ⟨parts, behind⟩)).outcome =
        (request r ⟨parts, behind⟩).close (expressions ⟨parts, behind⟩) :=
      fun r => ih fun p hp => hx p (List.mem_cons_of_mem _ hp)
    rw [arguments_cons, Stage.after_append, Stage.after_part (hx part (by simp))]
    cases part with
    | positions =>
      rw [ih, expressions_cons]
      simp [request, paths, Part.path?, Part.expression?]
    | names =>
      rw [ih, expressions_cons]
      simp [request, paths, Part.path?, Part.expression?]
    | file form path =>
      -- of the paths so far only the last one counts, and this one is later
      have hlast : ∀ l, (r.file.toList ++ path :: l).getLast? = (path :: l).getLast? :=
        fun l => List.getLast?_append_cons ..
      rw [ih, expressions_cons]
      simp [request, paths, Part.path?, Part.expression?, hlast]
    | expression text =>
      have htext : expressions ⟨.expression text :: parts, behind⟩ =
          text :: expressions ⟨parts, behind⟩ := expressions_cons
      unfold Stage.addExpression
      rw [htext]
      cases hr : r.expression with
      | none =>
        rw [ih, Request.close_cons_of_none (show (request r _).expression = none from hr)]
        simp [request, paths, Part.path?]
      | some first =>
        rw [Stage.after_decided,
          Request.close_cons_of_some (show (request r _).expression = some first from hr)]
        rfl

/-- A divided command line asks for a report just if the division is a legal one. -/
theorem outcome_eq_lex_iff (hx : x.Spelled) {config : Config} :
    ((Stage.options .empty).after x.arguments).outcome = .ok (.lex config) ↔
      x.Legal ∧ x.config = config := by
  have hlegal : x.Legal ↔
      x.expressions.length ≤ 1 ∧ (x.paths.getLast? = none ∨ x.expressions = []) := by
    rw [List.getLast?_eq_none_iff]
    exact ⟨fun h => ⟨h.single, h.exclusive⟩, fun h => ⟨hx, h.1, h.2⟩⟩
  -- how many expressions there are and whether there is a path decides the outcome
  rw [outcome_arguments hx, hlegal, Request.close, Split.config]
  match x.expressions, hp : x.paths.getLast? with
  | [], none => simp [Request.finish, request, Request.empty, hp]
  | [], some path => simp [Request.finish, request, Request.empty, hp]
  | [text], none => simp [Request.finish, request, Request.empty, hp]
  | [text], some path => simp [Request.finish, request, Request.empty, hp]
  | first :: second :: more, _ => simp [request, Request.empty]

end Split

/-- A command line asks for a report just if it divides into options and expressions and, behind
`--`, expressions whatever they look like, with one expression at most and none beside a file. The
division is unique, and the report is what it asks for. -/
theorem ofArguments_eq_lex_iff (args : List String) :
    (∀ config, ofArguments args = .ok (.lex config) ↔
      ∃ x : Split, x.arguments = args ∧ x.Legal ∧ x.config = config) ∧
    ∀ x y : Split, x.Spelled → y.Spelled → x.arguments = args → y.arguments = args → x = y := by
  refine ⟨fun config => ⟨fun h => ?_, ?_⟩, fun x y hx hy h h' => ?_⟩
  · obtain ⟨x, rfl, hx⟩ := Split.exists_split h
    rw [Stage.ofArguments_eq, Split.outcome_eq_lex_iff hx] at h
    exact ⟨x, rfl, h⟩
  · rintro ⟨x, rfl, hlegal, hconfig⟩
    rw [Stage.ofArguments_eq, Split.outcome_eq_lex_iff hlegal.spelled]
    exact ⟨hlegal, hconfig⟩
  · exact Split.eq_of_arguments_eq hx hy (h.trans h'.symm)

/-- Options that are swallowed as paths, and nothing behind the last `--`. -/
theorem ofArguments_eq_lex_swallowed :
    ofArguments ["--positions", "-f", "--names", "--file=b", "--file", "--", "--"] =
      .ok (.lex ⟨.file "--", true, false⟩) ∧
    ∀ y : Split, y.Spelled →
      y.arguments = ["--positions", "-f", "--names", "--file=b", "--file", "--", "--"] → y =
        ⟨[.positions, .file .short "--names", .file .attached "b", .file .long "--"], some []⟩ := by
  have hspelled : Split.Spelled
      ⟨[.positions, .file .short "--names", .file .attached "b", .file .long "--"], some []⟩ := by
    simp [Split.Spelled, Part.Spelled]
  have hiff := ofArguments_eq_lex_iff
    ["--positions", "-f", "--names", "--file=b", "--file", "--", "--"]
  constructor
  · exact (hiff.1 _).2 ⟨_, by decide, ⟨hspelled, by decide, .inr rfl⟩, by decide⟩
  · exact fun y hy h => hiff.2 y _ hy hspelled h (by decide)

end Command

end ExprLexer
