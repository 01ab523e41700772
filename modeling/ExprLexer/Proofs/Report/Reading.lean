/-
Reading a report back. A report is lines without control characters, and from its bytes can be read
which text or file it is about and which kind, text and place each token has, whatever stands in
the source: a text that looks like the lines of a report is told from them by its quotes.
-/
import ExprLexer.Proofs.Report.Delivery
import ExprLexer.Proofs.Text.Unescape
import Mathlib.Data.List.Basic

namespace ExprLexer.Report

/-! ## The reader -/

/-- What a report says of a token. -/
structure Entry where
  kind : Kind
  text : String
  place : Option LineCol
  deriving DecidableEq

/-- What a report says. -/
structure Reading where
  input : Input
  entries : List Entry
  deriving DecidableEq

/-- What stands behind certain words. -/
def behind (words : String) (line : List Char) : Option (List Char) :=
  words.toList.isPrefixOf? line

/-- A text in quotes, and what stands behind it. -/
def readField (line : List Char) : Option (String × List Char) := do
  let (text, rest) ← Text.readQuoted .plain (← behind "\"" line)
  return (String.ofList text, rest)

/-- The text in quotes that a line ends with after certain words. -/
def readHeader (words : String) (line : List Char) : Option String := do
  let (text, rest) ← readField (← behind words line)
  if rest.isEmpty then return text else none

def readInput (line : List Char) : Option Input :=
  (readHeader "Input: " line).map .inline <|> (readHeader "Input file: " line).map .file

def readKind (names : Bool) (word : List Char) : Option Kind :=
  Kind.all.find? fun k => (Listing.kindField names k).toList = word

def readPlace (positions : Bool) (rest : List Char) : Option (Option LineCol) :=
  if positions then do
    let rest ← behind " @ " rest
    let col ← behind ":" (rest.dropWhile (· ≠ ':'))
    return some ⟨Nat.ofDigitChars 10 (rest.takeWhile (· ≠ ':')) 0, Nat.ofDigitChars 10 col 0⟩
  else if rest.isEmpty then some none else none

def readEntry (names positions : Bool) (line : List Char) : Option Entry := do
  let rest ← behind "token type: " line
  let kind ← readKind names (rest.takeWhile (· ≠ ','))
  let (text, rest) ← readField (← behind ", token text: " (rest.dropWhile (· ≠ ',')))
  return ⟨kind, text, ← readPlace positions rest⟩

/-- The last line of a report. -/
def footer : String := programName ++ " version " ++ version

/-- Reads the lines of a report, behind the last of which nothing stands. -/
def readLines (names positions : Bool) : List (List Char) → Option Reading
  | [] => none
  | line :: rest => do
    let count := rest.length - 2
    if rest.drop count = [footer.toList, []] then
      return ⟨← readInput line, ← (rest.take count).mapM (readEntry names positions)⟩
    else none

/-- Reads the bytes of a report that was made with these options. -/
def read (names positions : Bool) (output : ByteArray) : Option Reading := do
  readLines names positions ((← String.fromUTF8? output).toList.splitOnP (· == '\n'))

/-! ## Lines read back -/

variable {s text : String} {rest : List Char} {t : Token}

theorem behind_append (words : String) : behind words (words.toList ++ rest) = some rest :=
  List.isPrefixOf?_eq_some_iff_append_eq.2 rfl

theorem readField_append : readField ((Listing.field s).toList ++ rest) = some (s, rest) := by
  have hfield : (Listing.field s).toList ++ rest =
      "\"".toList ++ ((Text.escape .field s).toList ++ '\x22' :: rest) := by
    simp [Listing.field]
  rw [readField, hfield, behind_append]
  simp [Text.readQuoted_escape]

theorem readHeader_append (words : String) :
    readHeader words (words.toList ++ (Listing.field s).toList) = some s := by
  have hfield : readField ((Listing.field s).toList ++ []) = some (s, []) := readField_append
  rw [List.append_nil] at hfield
  rw [readHeader, behind_append]
  simp [hfield]

/-- The first line of a report. -/
def header : Input → String
  | .inline text => "Input: " ++ Listing.field text
  | .file path => "Input file: " ++ Listing.field path

theorem inputLine_eq (i : Input) : Listing.inputLine i = header i ++ "\n" := by
  cases i <;> rfl

theorem readInput_header (i : Input) : readInput (header i).toList = some i := by
  cases i with
  | inline text =>
    rw [readInput, header, String.toList_append, readHeader_append]
    rfl
  | file path =>
    -- the two headers differ right behind "Input"
    have hother : readHeader "Input: " (header (.file path)).toList = none := by
      simp [readHeader, header, behind, List.isPrefixOf?]
    rw [readInput, hother, header, String.toList_append, readHeader_append]
    rfl

theorem readKind_kindField (names : Bool) (k : Kind) :
    readKind names (Listing.kindField names k).toList = some k := by
  cases names <;> cases k <;> decide +kernel

theorem comma_not_mem_kindField {names : Bool} {k : Kind} :
    ',' ∉ (Listing.kindField names k).toList := by
  cases names <;> cases k <;> decide +kernel

/-- Up to a character that stands in no earlier place. -/
theorem takeWhile_until {x : Char} {l : List Char} (h : x ∉ l) :
    (l ++ x :: rest).takeWhile (· ≠ x) = l := by
  have hl : ∀ c ∈ l, decide (c ≠ x) = true :=
    fun c hc => decide_eq_true (ne_of_mem_of_not_mem hc h)
  rw [List.takeWhile_append_of_pos hl]
  simp

theorem dropWhile_until {x : Char} {l : List Char} (h : x ∉ l) :
    (l ++ x :: rest).dropWhile (· ≠ x) = x :: rest := by
  have hl : ∀ c ∈ l, decide (c ≠ x) = true :=
    fun c hc => decide_eq_true (ne_of_mem_of_not_mem hc h)
  rw [List.dropWhile_append_of_pos hl]
  simp

theorem display_eq (p : LineCol) :
    p.display.toList = Nat.toDigits 10 p.line ++ ':' :: Nat.toDigits 10 p.col := by
  have h : p.display = p.line.repr ++ ":" ++ p.col.repr := rfl
  simp [h]

theorem readPlace_display (p : LineCol) :
    readPlace true (" @ " ++ p.display).toList = some (some p) := by
  have hcolon : ':' ∉ Nat.toDigits 10 p.line := by
    intro hc
    exact absurd (Nat.isDigit_of_mem_toDigits (by decide) (by decide) hc) (by decide)
  have hcol : behind ":" (':' :: Nat.toDigits 10 p.col) = some (Nat.toDigits 10 p.col) :=
    behind_append ":"
  rw [readPlace, if_pos rfl, String.toList_append, behind_append, display_eq]
  simp only [bind, Option.bind, takeWhile_until hcolon, dropWhile_until hcolon, hcol,
    Nat.ofDigitChars_ten_toDigits]
  rfl

/-- How a report shows the place of a token. -/
def placeText : Option LineCol → String
  | some p => " @ " ++ p.display
  | none => ""

theorem readPlace_placeText (place : Option LineCol) :
    readPlace place.isSome (placeText place).toList = some place := by
  cases place with
  | none => rfl
  | some p => exact readPlace_display p

/-- The line of a token without its end. -/
def entryLine (names : Bool) (place : Option LineCol) (t : Token) : String :=
  "token type: " ++ Listing.kindField names t.kind ++ ", token text: " ++ Listing.field t.text
    ++ placeText place

theorem readEntry_entryLine (names : Bool) (place : Option LineCol) (t : Token) :
    readEntry names place.isSome (entryLine names place t).toList =
      some ⟨t.kind, t.text, place⟩ := by
  have hline : (entryLine names place t).toList = "token type: ".toList ++
      ((Listing.kindField names t.kind).toList ++ ',' :: (" token text: ".toList ++
        ((Listing.field t.text).toList ++ (placeText place).toList))) := by
    simp [entryLine]
  have htext : ∀ l, behind ", token text: " (',' :: (" token text: ".toList ++ l)) = some l :=
    fun l => behind_append ", token text: "
  -- no name of a kind has a comma, so the first one ends it
  rw [readEntry, hline, behind_append]
  simp only [bind, Option.bind, takeWhile_until comma_not_mem_kindField,
    dropWhile_until comma_not_mem_kindField, readKind_kindField, htext, readField_append,
    readPlace_placeText]
  rfl

/-! ## No control characters -/

/-- The characters of the lines of a report. -/
abbrev isVisible (c : Char) : Bool := !Text.isControl c

theorem within_field (s : String) : Within isVisible (Listing.field s) := by
  rw [Listing.field, within_append, within_append]
  refine ⟨⟨by decide, fun c hc => ?_⟩, by decide⟩
  simp [Text.isControl_escape hc]

theorem within_header (i : Input) : Within isVisible (header i) := by
  cases i <;> exact within_append.2 ⟨by decide, within_field _⟩

theorem within_placeText (place : Option LineCol) : Within isVisible (placeText place) := by
  cases place with
  | none => exact within_empty
  | some p =>
    have hdigits : ∀ n c, c ∈ Nat.toDigits 10 n → isVisible c = true := by
      intro n c hc
      obtain ⟨k, hk, rfl⟩ := Text.mem_toDigits (by decide) hc
      simp [Text.isControl_digitChar (show k < 16 by omega)]
    refine within_append.2 ⟨by decide, fun c hc => ?_⟩
    rw [display_eq, List.mem_append, List.mem_cons] at hc
    rcases hc with hc | rfl | hc
    exacts [hdigits _ c hc, by decide, hdigits _ c hc]

theorem within_entryLine (names : Bool) (place : Option LineCol) (t : Token) :
    Within isVisible (entryLine names place t) := by
  have hkind : Within isVisible (Listing.kindField names t.kind) := by
    cases names <;> cases t.kind <;> decide +kernel
  simp only [entryLine, within_append]
  exact ⟨⟨⟨⟨by decide, hkind⟩, by decide⟩, within_field _⟩, within_placeText place⟩

/-! ## Reports read back -/

/-- The lines of a report, by the tokens of its source. -/
def lines (config : Config) (s : String) (ts : List Token) : List String :=
  header config.input :: ts.map (fun t => entryLine config.names (placeFor config s t) t)
    ++ [footer]

theorem within_lines (config : Config) (s : String) (ts : List Token) :
    ∀ line ∈ lines config s ts, Within isVisible line := by
  intro line hline
  simp only [lines, List.cons_append, List.mem_cons, List.mem_append, List.mem_map,
    List.not_mem_nil, or_false] at hline
  rcases hline with rfl | ⟨t, -, rfl⟩ | rfl
  exacts [within_header _, within_entryLine _ _ _, by decide]

/-- What a report prints are its lines, each with a line feed behind it. -/
theorem printed_lines (config : Config) (s : String) (ts : List Token) :
    Listing.inputLine config.input ++ String.join (ts.map (lineFor config s))
      ++ Listing.versionLine = String.join ((lines config s ts).map (· ++ "\n")) := by
  have hentry : (fun t => entryLine config.names (placeFor config s t) t ++ "\n") =
      lineFor config s := by
    funext t
    unfold lineFor Listing.tokenLine entryLine placeText
    rfl
  rw [lines, List.map_append, List.map_cons, List.map_map, String.join_append, String.join_cons,
    inputLine_eq]
  simp [Function.comp_def, hentry, String.append_assoc, Listing.versionLine, footer]

theorem splitOnP_lines {ls : List String} (h : ∀ line ∈ ls, Within isVisible line) :
    (String.join (ls.map (· ++ "\n"))).toList.splitOnP (· == '\n') =
      ls.map String.toList ++ [[]] := by
  induction ls with
  | nil => rfl
  | cons line ls ih =>
    have hline : ∀ c ∈ line.toList, (c == '\n') = false := by
      intro c hc
      have := h line (by simp) c hc
      rw [beq_eq_false_iff_ne]
      rintro rfl
      cases this
    rw [List.map_cons, String.join_cons, String.toList_append, String.toList_append,
      List.append_assoc, List.map_cons, List.cons_append,
      ← ih fun x hx => h x (List.mem_cons_of_mem _ hx)]
    exact List.splitOnP_append_cons_of_forall_mem hline '\n' rfl _

/-- Reading the lines of a report gives what they were made from. -/
theorem readLines_lines (config : Config) {ts : List Token}
    (h : ∀ t ∈ ts, (placeFor config s t).isSome = config.positions) :
    readLines config.names config.positions ((lines config s ts).map String.toList ++ [[]]) =
      some ⟨config.input, ts.map fun t => ⟨t.kind, t.text, placeFor config s t⟩⟩ := by
  have hentries : (ts.map fun t => (entryLine config.names (placeFor config s t) t).toList).mapM
      (readEntry config.names config.positions) =
        some (ts.map fun t => ⟨t.kind, t.text, placeFor config s t⟩) := by
    induction ts with
    | nil => rfl
    | cons t ts ih =>
      have ht := readEntry_entryLine config.names (placeFor config s t) t
      rw [h t (by simp)] at ht
      rw [List.map_cons, List.mapM_cons, ht, ih fun x hx => h x (List.mem_cons_of_mem _ hx)]
      rfl
  have hlines : (lines config s ts).map String.toList ++ [[]] = (header config.input).toList ::
      (ts.map (fun t => (entryLine config.names (placeFor config s t) t).toList)
        ++ [footer.toList, []]) := by
    simp [lines, Function.comp_def]
  rw [hlines, readLines]
  simp [readInput_header, hentries]

theorem read_printed (config : Config) {ts : List Token}
    (h : ∀ t ∈ ts, (placeFor config s t).isSome = config.positions) :
    read config.names config.positions
      (String.join ((lines config s ts).map (· ++ "\n"))).toUTF8 =
      some ⟨config.input, ts.map fun t => ⟨t.kind, t.text, placeFor config s t⟩⟩ := by
  have hutf8 : ∀ x : String, String.fromUTF8? x.toUTF8 = some x := by
    intro x
    exact dif_pos x.isValidUTF8
  rw [read, hutf8]
  simp only [bind, Option.bind, splitOnP_lines (within_lines config s ts)]
  exact readLines_lines config h

/-- From what a report prints on a device that refuses nothing can be read, by its options alone,
what it is about and what it says of each token; it is a line for each token and two more, the last
one that of the version, all without control characters. Its summary counts the tokens. -/
theorem read_run (config : Config) (files : Files) (refusal : WriteError)
    (hs : sourceText files config.input = .ok s) (h : s.utf8ByteSize ≤ Buffer.maxLength) :
    ∃ b tokens shown table outcome, ∃ ls : List String,
      Buffer.ofText? s = .ok b ∧ b.tokens = .ok tokens ∧
      shown = tokens.filter (fun t => !t.isEof) ∧ LineTable.ofBuffer b = .ok table ∧
      (∀ t ∈ shown, ∃ p, table.locate t = .ok p) ∧
      run config files ⟨none, refusal⟩ = .ok outcome ∧
      read config.names config.positions outcome.output = some ⟨config.input, shown.map fun t =>
        ⟨t.kind, t.text, if config.positions then (table.locate t).toOption else none⟩⟩ ∧
      outcome.output = (String.join (ls.map (· ++ "\n"))).toUTF8 ∧
      ls.length = shown.length + 2 ∧ ls.getLast? = some (programName ++ " version " ++ version) ∧
      (∀ line ∈ ls, ∀ c ∈ line.toList, Text.isControl c = false) ∧
      outcome.result = .ok ⟨shown.length, shown.countP (·.is .unknown)⟩ := by
  obtain ⟨ts, hl⟩ := exists_lexes 0 s
  have hlocate : ∀ t ∈ ts, ∃ p, (LineTable.mk s (lineStarts s)).locate t = .ok p :=
    fun t ht => LineTable.locate_stands h (hl.stands t (by simp [ht]))
  have hrun : run config files ⟨none, refusal⟩ = _ :=
    (run_eq_play hs (script_lexes h hl config)).trans (congrArg _ (play_of_fits rfl))
  refine ⟨_, _, ts, _, _, lines config s ts, Buffer.ofText?_eq h, Buffer.tokens_lexes hl h,
    (filter_not_isEof hl.ne_eof _).symm, LineTable.ofBuffer_pad h, hlocate, hrun,
    ?_, ?_, ?_, ?_, ?_, rfl⟩
  · dsimp only
    rw [printed_script hl, printed_lines]
    exact read_printed config (isSome_placeFor hl h config)
  · dsimp only
    rw [printed_script hl, printed_lines]
  · simp [lines]
  · rw [lines, List.getLast?_concat]
    rfl
  · intro line hline c hc
    simpa using within_lines config s ts line hline c hc

/-- A source with a quote and a place in it, and a mark that attaches to the character before. -/
theorem read_run_imitation : ∃ outcome,
    run ⟨.inline "\" @ 9\n\u0301", true, true⟩ (fun _ => .error .notFound) .unlimited =
      .ok outcome ∧
    read true true outcome.output = some ⟨.inline "\" @ 9\n\u0301",
      [⟨.unknown, "\"", some ⟨1, 1⟩⟩, ⟨.unknown, "@", some ⟨1, 3⟩⟩, ⟨.number, "9", some ⟨1, 5⟩⟩,
        ⟨.unknown, "\u0301", some ⟨2, 1⟩⟩]⟩ := by
  have hs : "\" @ 9\n\u0301".utf8ByteSize ≤ Buffer.maxLength := by decide
  obtain ⟨b, tokens, shown, table, outcome, ls, hb, ht, rfl, htable, -, hrun, hread, -⟩ :=
    read_run ⟨.inline "\" @ 9\n\u0301", true, true⟩ (fun _ => .error .notFound) .full rfl hs
  rw [Buffer.ofText?_eq hs] at hb
  cases hb
  rw [LineTable.ofBuffer_pad hs] at htable
  cases htable
  have htokens : (Buffer.pad "\" @ 9\n\u0301").tokens = .ok [⟨.unknown, "\"", 0⟩,
      ⟨.unknown, "@", 2⟩, ⟨.number, "9", 4⟩, ⟨.unknown, "\u0301", 6⟩, ⟨.eof, "", 8⟩] := by
    decide +kernel
  rw [htokens] at ht
  cases ht
  exact ⟨outcome, hrun, hread.trans (by decide +kernel)⟩

end ExprLexer.Report
