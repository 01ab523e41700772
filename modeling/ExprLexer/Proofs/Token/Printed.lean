/-
What the printed forms of a token tell. The short form has the kind and the text, and the full form
the offset too. Each part can be found again: a name or a number is a run of characters of a class
that what stands behind it does not go on with, and the quotes end a text wherever it has quote
marks, brackets or a printed token in it.
-/
import ExprLexer.Proofs.Text.Runs
import ExprLexer.Proofs.Text.Unescape
import ExprLexer.Token.Basic
import Mathlib.Data.List.Nodup

namespace ExprLexer

/-! ## Words for kinds -/

namespace Kind

variable {k k' : Kind}

theorem mem_all (k : Kind) : k ∈ all := by
  cases k <;> decide

theorem eq_iff_of_nodup {word : Kind → String} (h : (all.map word).Nodup) :
    word k = word k' ↔ k = k' := by
  constructor
  · exact List.inj_on_of_nodup_map h (mem_all k) (mem_all k')
  · rintro rfl
    rfl

theorem name_inj : k.name = k'.name ↔ k = k' := eq_iff_of_nodup (by decide +kernel)

theorem label_inj : k.label = k'.label ↔ k = k' := eq_iff_of_nodup (by decide +kernel)

theorem within_name (k : Kind) : Within (· ≠ '(') k.name := by
  cases k <;> decide +kernel

theorem within_label (k : Kind) : Within Char.isAlpha k.label := by
  cases k <;> decide +kernel

end Kind

/-! ## Numbers -/

theorem toList_toString (n : Nat) : (toString n).toList = Nat.toDigits 10 n := by simp

theorem within_toString (n : Nat) : Within Char.isDigit (toString n) := by
  intro c hc
  rw [toList_toString] at hc
  exact Nat.isDigit_of_mem_toDigits (by decide) (by decide) hc

theorem ofDigitChars_toString (n : Nat) : Nat.ofDigitChars 10 (toString n).toList 0 = n := by
  rw [toList_toString, Nat.ofDigitChars_ten_toDigits]

theorem toString_inj {m n : Nat} : toString m = toString n ↔ m = n := by
  constructor
  · intro h
    rw [← ofDigitChars_toString m, h, ofDigitChars_toString n]
  · rintro rfl
    rfl

namespace Token

variable {a b : Token} {s t : String}

/-! ## The short form -/

/-- What the short form has behind the name. -/
def shown (text : String) : String :=
  if text.isEmpty then "" else "(" ++ Text.quoted text ++ ")"

theorem display_eq (t : Token) : t.display = t.kind.name ++ shown t.text := by
  unfold display shown isEmpty
  split
  · rw [String.append_empty]
  · simp only [String.append_assoc]

theorem stops_shown (text : String) : Stops (· ≠ '(') (shown text) := by
  unfold shown
  split
  · exact stops_empty
  · rw [String.append_assoc]
    exact (stops_append (by decide)).2 (by decide)

theorem shown_inj : shown s = shown t ↔ s = t := by
  constructor
  · have hopen (rest : String) : "(" ++ rest ≠ "" := by simp
    intro h
    unfold shown at h
    simp only [String.append_assoc] at h
    split_ifs at h with hs ht ht
    · rw [String.isEmpty_iff.1 hs, String.isEmpty_iff.1 ht]
    · exact absurd h.symm (hopen _)
    · exact absurd h (hopen _)
    · rw [String.append_right_inj, Text.quoted_append_inj] at h
      exact h.1
  · rintro rfl
    rfl

theorem display_inj : a.display = b.display ↔ a.kind = b.kind ∧ a.text = b.text := by
  rw [display_eq, display_eq, run_append_inj a.kind.within_name (stops_shown _) b.kind.within_name
    (stops_shown _), Kind.name_inj, shown_inj]

/-! ## The full form -/

theorem record_inj : a.record = b.record ↔ a = b := by
  have hlabel (rest : String) : Stops Char.isAlpha (", text: " ++ rest) :=
    (stops_append (by decide)).2 (by decide)
  have hclose : Stops Char.isDigit " \x7d" := by decide
  obtain ⟨kind, text, offset⟩ := a
  obtain ⟨kind', text', offset'⟩ := b
  unfold record
  simp only [String.append_assoc, String.append_right_inj]
  rw [run_append_inj kind.within_label (hlabel _) kind'.within_label (hlabel _), Kind.label_inj,
    String.append_right_inj, Text.quoted_append_inj, String.append_right_inj,
    run_append_inj (within_toString _) hclose (within_toString _) hclose, toString_inj,
    and_iff_left rfl, Token.mk.injEq]

/-- Tokens have the same short form just if they are of the same kind and have the same text, and the
same full form just if they are the same, whatever their texts look like. -/
theorem printed_inj (a b : Token) :
    (a.display = b.display ↔ a.kind = b.kind ∧ a.text = b.text) ∧
    (a.record = b.record ↔ a = b) := by
  constructor
  · exact display_inj
  · exact record_inj

-- A quote mark and a bracket in the text do not close the form.
example : (⟨.unknown, "\")", 3⟩ : Token).display = "unknown(\"\\\")\")" := by decide +kernel

end Token

end ExprLexer
