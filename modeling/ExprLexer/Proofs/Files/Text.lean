/-
The text of an input. That of a file is the one whose UTF-8 encoding the file is; where there is
none, the cause is that of the failed read or that the bytes are not those of a text.
-/
import ExprLexer.Report.Run

namespace ExprLexer

variable {files : Files} {path s : String} {cause : ReadError} {input : Input}

theorem fromUTF8?_eq_some_iff {bytes : ByteArray} :
    String.fromUTF8? bytes = some s ↔ bytes = s.toUTF8 := by
  constructor
  · intro h
    obtain ⟨hvalid, h⟩ := Option.dite_none_right_eq_some.1 h
    cases h
    rfl
  · rintro rfl
    exact dif_pos s.isValidUTF8

namespace Files

/-- Why the file at a path is not a text. -/
inductive Unreadable (files : Files) (path : String) : ReadError → Prop where
  | read {cause : ReadError} (h : files path = .error cause) : Unreadable files path cause
  | decode {bytes : ByteArray} (h : files path = .ok bytes) (hs : ∀ s : String, bytes ≠ s.toUTF8) :
    Unreadable files path .notUtf8

theorem Unreadable.ne_ok (h : files.Unreadable path cause) (s : String) :
    files path ≠ .ok s.toUTF8 := by
  cases h with
  | read h => simp [h]
  | decode h hs => simpa [h] using hs s

theorem text_of_error (h : files path = .error cause) : files.text path = .error cause := by
  rw [text, h]
  rfl

theorem text_of_ok {bytes : ByteArray} (h : files path = .ok bytes) :
    files.text path = ((String.fromUTF8? bytes).elim (.error .notUtf8) .ok) := by
  rw [text, h]
  simp only [bind, Except.bind]
  cases String.fromUTF8? bytes <;> rfl

theorem text_eq_ok_iff : files.text path = .ok s ↔ files path = .ok s.toUTF8 := by
  cases hf : files path with
  | error cause => simp [text_of_error hf]
  | ok bytes =>
    rw [text_of_ok hf, Except.ok.injEq, ← fromUTF8?_eq_some_iff]
    cases String.fromUTF8? bytes <;> simp

theorem unreadable_of_text (h : files.text path = .error cause) : files.Unreadable path cause := by
  cases hf : files path with
  | error read =>
    rw [text_of_error hf] at h
    cases h
    exact .read hf
  | ok bytes =>
    rw [text_of_ok hf] at h
    cases hb : String.fromUTF8? bytes with
    | some s => simp [hb] at h
    | none =>
      rw [hb] at h
      cases h
      exact .decode hf fun s hs => by simp [fromUTF8?_eq_some_iff.2 hs] at hb

end Files

/-- The text of an input is the one given, or the one that the file at the path encodes. -/
def Input.HasText (files : Files) (s : String) : Input → Prop
  | .inline text => text = s
  | .file path => files path = .ok s.toUTF8

namespace Report

theorem sourceText_of_ok (h : files.text path = .ok s) :
    sourceText files (.file path) = .ok s := by
  rw [sourceText, h]
  rfl

theorem sourceText_of_error (h : files.text path = .error cause) :
    sourceText files (.file path) = .error (.unreadable path cause) := by
  rw [sourceText, h]
  rfl

theorem sourceText_eq_ok_iff : sourceText files input = .ok s ↔ input.HasText files s := by
  cases input with
  | inline text => simp [sourceText, Input.HasText]
  | file path =>
    rw [Input.HasText, ← Files.text_eq_ok_iff]
    cases hf : files.text path with
    | ok text => simp [sourceText_of_ok hf]
    | error cause => simp [sourceText_of_error hf]

/-- A report that is complete is one on the text of its input. -/
theorem exists_hasText {config : Config} {device : Device} {summary : Summary}
    {output : ByteArray} {events : List Event}
    (h : run config files device = .ok ⟨.ok summary, output, events⟩) :
    ∃ s, config.input.HasText files s := by
  cases hs : sourceText files config.input with
  | error failure =>
    rw [run, hs] at h
    cases h
  | ok s => exact ⟨s, sourceText_eq_ok_iff.1 hs⟩

/-- An input has no text only if it is a file that is not one. -/
theorem exists_unreadable {failure : Failure} (h : sourceText files input = .error failure) :
    ∃ path cause, input = .file path ∧ failure = .unreadable path cause ∧
      files.Unreadable path cause := by
  cases input with
  | inline text => cases h
  | file path =>
    cases hf : files.text path with
    | ok s =>
      rw [sourceText_of_ok hf] at h
      cases h
    | error cause =>
      rw [sourceText_of_error hf] at h
      cases h
      exact ⟨path, cause, rfl, rfl, Files.unreadable_of_text hf⟩

end Report

end ExprLexer
