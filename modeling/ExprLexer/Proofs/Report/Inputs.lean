/-
Files and the texts in them. A file whose bytes encode a text gives the report that the text itself
gives, but for the first line, which names the file in place of the text. A file whose bytes encode
none gives no report at all. Decoding strips nothing and replaces nothing: no other text has the
bytes of the file.
-/
import ExprLexer.Proofs.Files.Text
import ExprLexer.Proofs.Files.Tree
import ExprLexer.Proofs.Report.Reading
import ExprLexer.Proofs.Report.Trace

namespace ExprLexer

variable {files : Files} {path s : String} {bytes : ByteArray} {text : List Char} {device : Device}
  {positions names : Bool}

/-! ## Decoding -/

theorem fromUTF8?_eq_ofList_iff :
    String.fromUTF8? bytes = some (String.ofList text) ↔ bytes = text.utf8Encode := by
  rw [fromUTF8?_eq_some_iff, String.toUTF8_eq_toByteArray, String.toByteArray_ofList]

theorem fromUTF8?_eq_none_iff :
    String.fromUTF8? bytes = none ↔ ∀ text : List Char, bytes ≠ text.utf8Encode := by
  constructor
  · rintro h text hb
    rw [fromUTF8?_eq_ofList_iff.2 hb] at h
    cases h
  · intro h
    cases hs : String.fromUTF8? bytes with
    | none => rfl
    | some s =>
      rw [← String.ofList_toList (s := s), fromUTF8?_eq_ofList_iff] at hs
      exact absurd hs (h s.toList)

namespace Report

/-! ## The first line -/

/-- There is no line feed in the first line of a report. -/
theorem newline_not_mem_header (input : Input) : 0x0A ∉ Text.bytes (header input) := by
  intro hmem
  have hchar : '\n' ∉ (header input).toList := fun hc => absurd (within_header input _ hc) (by decide)
  obtain ⟨i, hi⟩ := List.getElem?_of_mem hmem
  rw [← Text.mem_positionsOf, positionsOf_newline hchar] at hi
  cases hi

/-- What a report on a source with these tokens prints behind its first line. -/
def bodyFor (positions names : Bool) (s : String) (ts : List Token) : String :=
  String.join (ts.map (lineFor ⟨.inline s, positions, names⟩ s)) ++ Listing.versionLine

theorem outputUpTo_eq_bodyFor (input : Input) (positions names : Bool) (s : String) (ts : List Token) :
    outputUpTo ⟨input, positions, names⟩ s ts ++ Listing.versionLine =
      header input ++ "\n" ++ bodyFor positions names s ts := by
  rw [outputUpTo, inputLine_eq, String.append_assoc]
  rfl

/-! ## Reports on files -/

/-- All inputs with the same text have the same report, but for the first line. -/
theorem exists_run_hasText (h : s.utf8ByteSize ≤ Buffer.maxLength) (positions names : Bool) :
    ∃ summary events body, ∀ files input, input.HasText files s → ∀ device : Device,
      device.cut? (header input ++ "\n" ++ body).toUTF8 = none →
        run ⟨input, positions, names⟩ files device =
          .ok ⟨.ok summary, (header input ++ "\n" ++ body).toUTF8, events⟩ := by
  obtain ⟨ts, hl⟩ := exists_lexes 0 s
  refine ⟨summaryOf ts,
    allEvents s (Issue.all s) (ts ++ [⟨.eof, "", s.utf8ByteSize⟩]) (summaryOf ts),
    bodyFor positions names s ts, fun files input hs device hfits => ?_⟩
  rw [← outputUpTo_eq_bodyFor] at hfits ⊢
  exact run_of_fits (sourceText_eq_ok_iff.2 hs) h hl hfits

theorem run_not_text (hf : files path = .ok bytes) (hs : String.fromUTF8? bytes = none) :
    run ⟨.file path, positions, names⟩ files device =
      .ok ⟨.error (.unreadable path .notUtf8), .empty, []⟩ := by
  have htext : files.text path = .error .notUtf8 := by
    rw [Files.text_of_ok hf, hs]
    rfl
  rw [run, sourceText_of_error htext]
  rfl

/-- A file that encodes a text is reported on as the text itself: with the same counts, the same
events and, behind the first line, the same bytes. A file that encodes none cannot be read, and
nothing is printed or logged. -/
theorem run_file (files : Files) (path : String) (hf : files path = .ok bytes)
    (h : bytes.size ≤ Buffer.maxLength) (positions names : Bool) :
    (∀ text : List Char, bytes = text.utf8Encode → ∃ summary events body,
      ∀ input, input = .file path ∨ input = .inline (String.ofList text) →
        0x0A ∉ Text.bytes (header input) ∧ ∀ room refusal,
          (∀ n, room = some n → (header input ++ "\n" ++ body).utf8ByteSize ≤ n) →
          run ⟨input, positions, names⟩ files ⟨room, refusal⟩ =
            .ok ⟨.ok summary, (header input ++ "\n" ++ body).toUTF8, events⟩) ∧
    ((∀ text : List Char, bytes ≠ text.utf8Encode) → ∀ device,
      run ⟨.file path, positions, names⟩ files device =
        .ok ⟨.error (.unreadable path .notUtf8), .empty, []⟩) := by
  constructor
  · rintro text rfl
    have hsize : (String.ofList text).utf8ByteSize ≤ Buffer.maxLength := by
      rwa [← String.size_toByteArray, String.toByteArray_ofList]
    obtain ⟨summary, events, body, hrun⟩ := exists_run_hasText hsize positions names
    refine ⟨summary, events, body, fun input hinput => ⟨newline_not_mem_header input, ?_⟩⟩
    have htext : input.HasText files (String.ofList text) := by
      rcases hinput with rfl | rfl
      · rw [Input.HasText, hf, String.toUTF8_eq_toByteArray, String.toByteArray_ofList]
      · rfl
    intro room refusal hroom
    exact hrun files input htext ⟨room, refusal⟩ (Device.cut?_eq_none_iff.2 hroom)
  · intro hs device
    exact run_not_text hf (fromUTF8?_eq_none_iff.2 hs)

/-- A directory with a file that starts with a byte order mark, and one with half of a surrogate
pair. -/
def markTree : Tree := .ofList [("d/mark", .file ⟨#[0xEF, 0xBB, 0xBF, 0x61]⟩),
  ("d/half", .file ⟨#[0xED, 0xA0, 0x80]⟩)]

theorem markTree_mark : markTree.read "d/mark" = .ok ⟨#[0xEF, 0xBB, 0xBF, 0x61]⟩ :=
  Tree.read_ofList [] [_] ⟨by decide, by decide, by decide, by decide +kernel⟩ (by decide +kernel)
    (by decide +kernel)

theorem markTree_half : markTree.read "d/half" = .ok ⟨#[0xED, 0xA0, 0x80]⟩ :=
  Tree.read_ofList [_] [] ⟨by decide, by decide, by decide, by decide +kernel⟩ (by decide +kernel)
    nofun

/-- What is printed for the file with the mark, behind the first line. -/
def markBody : String :=
  "token type: 1, token text: \"\\u\x7bfeff\x7d\" @ 1:1\n" ++
    "token type: 2, token text: \"a\" @ 1:2\nsimplelexer version 0.1.0\n"

def markEvents : List Event :=
  [.scanning 4, .issueFound ⟨.byteOrderMark, 0, 3⟩, .issueWarned ⟨.byteOrderMark, 0, 3⟩,
    .token ⟨.unknown, "\uFEFF", 0⟩, .token ⟨.ident, "a", 3⟩, .token ⟨.eof, "", 4⟩,
    .complete ⟨2, 1⟩]

/-- The mark is a token of the file and of the text alike, and the other file is no text. -/
theorem run_file_mark :
    run ⟨.file "d/mark", true, false⟩ markTree.read .unlimited =
      .ok ⟨.ok ⟨2, 1⟩, ("Input file: \"d/mark\"\n" ++ markBody).toUTF8, markEvents⟩ ∧
    run ⟨.inline "\uFEFFa", true, false⟩ markTree.read .unlimited =
      .ok ⟨.ok ⟨2, 1⟩, ("Input: \"\\u\x7bfeff\x7da\"\n" ++ markBody).toUTF8, markEvents⟩ ∧
    run ⟨.file "d/half", true, false⟩ markTree.read .unlimited =
      .ok ⟨.error (.unreadable "d/half" .notUtf8), .empty, []⟩ := by
  have hbytes : (⟨#[0xEF, 0xBB, 0xBF, 0x61]⟩ : ByteArray) = ['\uFEFF', 'a'].utf8Encode := by
    decide +kernel
  obtain ⟨summary, events, body, hruns⟩ :=
    (run_file markTree.read "d/mark" markTree_mark (by decide) true false).1 _ hbytes
  have hrun := fun input hinput => (hruns input hinput).2 none .full nofun
  have hfile : header (.file "d/mark") = "Input file: \"d/mark\"" := by decide +kernel
  have htext : header (.inline "\uFEFFa") = "Input: \"\\u\x7bfeff\x7da\"" := by decide +kernel
  have hfirst : run ⟨.file "d/mark", true, false⟩ markTree.read .unlimited =
      .ok ⟨.ok summary, ("Input file: \"d/mark\"\n" ++ body).toUTF8, events⟩ := by
    have h := hrun _ (.inl rfl)
    rwa [hfile] at h
  have hsecond : run ⟨.inline "\uFEFFa", true, false⟩ markTree.read .unlimited =
      .ok ⟨.ok summary, ("Input: \"\\u\x7bfeff\x7da\"\n" ++ body).toUTF8, events⟩ := by
    have h := hrun _ (.inr rfl)
    rwa [htext] at h
  -- the run on the text tells what the two have in common
  have hwhole : (run ⟨.inline "\uFEFFa", true, false⟩ markTree.read .unlimited).map
      (fun o => (o.result.toOption, o.output, o.events)) =
        .ok (some ⟨2, 1⟩, ("Input: \"\\u\x7bfeff\x7da\"\n" ++ markBody).toUTF8, markEvents) := by
    decide +kernel
  rw [hsecond] at hwhole
  simp only [Except.map, Except.toOption, Except.ok.injEq, Prod.mk.injEq, Option.some.injEq]
    at hwhole
  obtain ⟨rfl, hbody, rfl⟩ := hwhole
  obtain rfl := (String.append_right_inj _).1 (String.toByteArray_inj.1 hbody)
  have hnone : String.fromUTF8? ⟨#[0xED, 0xA0, 0x80]⟩ = none := by decide +kernel
  exact ⟨hfirst, hsecond, (run_file markTree.read "d/half" markTree_half (by decide) true false).2
    (fromUTF8?_eq_none_iff.1 hnone) .unlimited⟩

end Report

end ExprLexer
