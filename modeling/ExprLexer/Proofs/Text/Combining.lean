/-
Writing a text in parts. A field is written character by character, and where a character stands
matters in one case only: a combining character is written by its code point at the start of a text
and as itself elsewhere. So the written form of a text is that of its parts but for the parts that
start with a combining character.
-/
import ExprLexer.Proofs.Text.Runs
import ExprLexer.Text.Escape

namespace ExprLexer.Text

variable {c : Char} {s : String} {n : Nat} {style : EscapeStyle} {first : Bool}

/-! ## Characters -/

/-- The characters that attach to the one before them and can be seen with it. -/
def combines (c : Char) : Bool := attaches c && !isUnprintable c

theorem le_of_combines (h : combines c = true) : 0x300 ≤ c.toNat := by
  obtain ⟨ranges, hr⟩ : ∃ ranges, graphemeExtendRanges = (0x300, 0x36F) :: ranges := ⟨_, rfl⟩
  simp only [combines, attaches, isGraphemeExtend, hr, inRanges, Bool.and_eq_true,
    decide_eq_true_eq] at h
  exact h.1.1.1

theorem not_combines (h : c.toNat < 0x300) : combines c = false := by
  rw [← Bool.not_eq_true]
  intro hc
  have := le_of_combines hc
  omega

/-- No letter escape stands for a combining character. -/
theorem escapeChar_of_combines (h : combines c = true) (first : Bool) :
    escapeChar .field first c = if first then codeEscape c else [c] := by
  have hc := le_of_combines h
  have hne : ∀ d : Char, d.toNat < 0x300 → c ≠ d := by
    rintro d hd rfl
    omega
  have hcode : needsCode .field first c = first := by
    simp only [combines, Bool.and_eq_true, Bool.not_eq_true'] at h
    simp [needsCode, EscapeStyle.field, h]
  unfold escapeChar
  rw [if_neg (hne _ (by decide)), if_neg (hne _ (by decide)), if_neg (hne _ (by decide)),
    if_neg (hne _ (by decide)), if_neg (hne _ (by decide)), if_neg (hne _ (by decide)),
    if_neg fun ha => hne _ (by decide) ha.1, hcode]

/-- Where any other character stands makes no difference. -/
theorem escapeChar_of_not_combines (h : combines c = false) (first : Bool) :
    escapeChar .field first c = escapeChar .field true c := by
  have hcode : needsCode .field first c = needsCode .field true c := by
    cases ha : attaches c <;> cases hu : isUnprintable c <;>
      simp_all [combines, needsCode, EscapeStyle.field]
  simp only [escapeChar, hcode]

/-- A text that is a combining character by itself. -/
def IsCombining (s : String) : Prop := ∃ c, combines c = true ∧ s = String.singleton c

theorem IsCombining.not_stops (h : IsCombining s) : ¬ Stops combines s := by
  rintro hs
  obtain ⟨c, hc, rfl⟩ := h
  have := hs c (by simp)
  rw [hc] at this
  cases this

/-! ## Parts of a text -/

/-- The written form of a text that stands at a position of another one. -/
def escapeAt (n : Nat) (s : String) : String :=
  String.ofList (escapeChars .field (n == 0) s.toList)

theorem escapeAt_zero (s : String) : escapeAt 0 s = escape .field s := rfl

@[simp] theorem escape_empty (style : EscapeStyle) : escape style "" = "" := rfl

theorem escapeChars_append (as bs : List Char) : escapeChars style first (as ++ bs) =
    escapeChars style first as ++ escapeChars style (first && as.isEmpty) bs := by
  induction as generalizing first with
  | nil => simp [escapeChars]
  | cons c as ih => simp [escapeChars, ih]

/-- The written form of a text is that of its parts, each where it stands. -/
theorem escapeAt_append (n : Nat) (a b : String) :
    escapeAt n (a ++ b) = escapeAt n a ++ escapeAt (n + a.utf8ByteSize) b := by
  have hfirst : (n == 0 && a.toList.isEmpty) = (n + a.utf8ByteSize == 0) := by
    rw [Bool.eq_iff_iff]
    simp
  rw [escapeAt, String.toList_append, escapeChars_append, hfirst, String.ofList_append]
  rfl

/-- A text that starts with no combining character is written alike wherever it stands. -/
theorem escapeAt_of_stops (h : Stops combines s) (n : Nat) : escapeAt n s = escape .field s := by
  rcases eq_empty_or_singleton_append s with rfl | ⟨c, t, rfl⟩
  · rfl
  · have hc := escapeChar_of_not_combines (stops_singleton_append.1 h) (n == 0)
    simp [escapeAt, escape, escapeChars, hc]

theorem escapeAt_combining (hn : n ≠ 0) (h : IsCombining s) : escapeAt n s = s := by
  obtain ⟨c, hc, rfl⟩ := h
  simp [escapeAt, escapeChars, escapeChar_of_combines hc, hn]

/-- A combining character behind others and one by itself are written differently, from the first
character on. -/
theorem escapeAt_append_ne (hn : n ≠ 0) (h : IsCombining s) (x y : String) :
    escapeAt n s ++ x ≠ escape .field s ++ y := by
  rw [escapeAt_combining hn h]
  obtain ⟨c, hc, rfl⟩ := h
  intro heq
  have hhead : c = '\\' := by
    simpa [escape, escapeChars, escapeChar_of_combines hc, codeEscape] using
      congrArg (·.toList.head?) heq
  exact absurd (hhead ▸ le_of_combines hc) (by decide)

/-- A text is written behind others as by itself unless it is a combining character. Of longer texts
that start with one nothing is said. -/
theorem escapeAt_append_eq_iff (h : Stops combines s ∨ IsCombining s) (x y : String) :
    escapeAt n s ++ x = escape .field s ++ y ↔ ¬ (n ≠ 0 ∧ IsCombining s) ∧ x = y := by
  rcases h with h | h
  · have hne : ¬ (n ≠ 0 ∧ IsCombining s) := fun hn => hn.2.not_stops h
    rw [escapeAt_of_stops h, String.append_right_inj, and_iff_right hne]
  · by_cases hn : n = 0
    · subst hn
      rw [escapeAt_zero, String.append_right_inj]
      simp
    · exact iff_of_false (escapeAt_append_ne hn h x y) fun hx => hx.1 ⟨hn, h⟩

end ExprLexer.Text
