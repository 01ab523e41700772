/-
Classes of characters and runs of them at the front of a text: every text splits into the longest
run of a class and a rest that does not go on with it.
-/
import ExprLexer.Proofs.Text.Bytes

namespace ExprLexer

/-- The white space characters: the space, the tab, the line feed, the vertical tab, the form feed
and the carriage return. -/
def isBlank (c : Char) : Bool :=
  c = ' ' || c = '\t' || c = '\n' || c = '\x0B' || c = '\x0C' || c = '\r'

theorem isBlank_iff {c : Char} : isBlank c = true ↔
    c.toNat = 0x20 ∨ 0x09 ≤ c.toNat ∧ c.toNat ≤ 0x0D := by
  simp only [isBlank, Bool.or_eq_true, decide_eq_true_eq, ← Char.toNat_inj, Char.reduceToNat]
  omega

theorem isAlpha_iff {c : Char} : c.isAlpha = true ↔
    0x41 ≤ c.toNat ∧ c.toNat ≤ 0x5A ∨ 0x61 ≤ c.toNat ∧ c.toNat ≤ 0x7A := by
  have e : c.toNat = c.val.toNat := rfl
  have h : c.isAlpha = (decide ('A'.val ≤ c.val ∧ c.val ≤ 'Z'.val) ||
      (decide ('a'.val ≤ c.val) && decide (c.val ≤ 'z'.val))) := rfl
  simp only [h, Bool.or_eq_true, Bool.and_eq_true, decide_eq_true_eq, UInt32.le_iff_toNat_le,
    Char.reduceVal, UInt32.reduceToNat, e]

theorem isDigit_iff {c : Char} : c.isDigit = true ↔ 0x30 ≤ c.toNat ∧ c.toNat ≤ 0x39 := by
  have e : c.toNat = c.val.toNat := rfl
  simp only [Char.isDigit, Bool.and_eq_true, decide_eq_true_eq, UInt32.le_iff_toNat_le, ge_iff_le,
    Char.reduceVal, UInt32.reduceToNat, e]

/-- All characters of a text are in a class. -/
def Within (q : Char → Bool) (s : String) : Prop := ∀ c ∈ s.toList, q c = true

/-- The first character of a text, if there is one, is not in a class. -/
def Stops (q : Char → Bool) (s : String) : Prop := ∀ c ∈ s.toList.head?, q c = false

instance (q : Char → Bool) (s : String) : Decidable (Within q s) :=
  List.decidableBAll (fun c => q c = true) s.toList

instance (q : Char → Bool) (s : String) : Decidable (Stops q s) :=
  decidable_of_iff (s.toList.head?.all (fun c => !q c) = true) (by
    cases h : s.toList.head? <;> simp [Stops, h])

/-- A text of white space. -/
abbrev Blank (s : String) : Prop := Within isBlank s

variable {q : Char → Bool} {c : Char} {s t : String}

@[simp] theorem within_empty : Within q "" := by simp [Within]

@[simp] theorem within_append : Within q (s ++ t) ↔ Within q s ∧ Within q t := by
  simp only [Within, String.toList_append, List.mem_append]
  exact ⟨fun h => ⟨fun c hc => h c (.inl hc), fun c hc => h c (.inr hc)⟩,
    fun h c hc => hc.elim (h.1 c) (h.2 c)⟩

@[simp] theorem within_singleton : Within q (String.singleton c) ↔ q c = true := by simp [Within]

@[simp] theorem stops_empty : Stops q "" := by simp [Stops]

@[simp] theorem stops_singleton_append : Stops q (String.singleton c ++ t) ↔ q c = false := by
  simp [Stops]

theorem stops_append (h : s ≠ "") : Stops q (s ++ t) ↔ Stops q s := by
  rcases Text.eq_empty_or_singleton_append s with rfl | ⟨c, s', rfl⟩
  · exact absurd rfl h
  · rw [String.append_assoc, stops_singleton_append, stops_singleton_append]

theorem exists_head (h : Within q s) (hne : s ≠ "") :
    ∃ c t, s = String.singleton c ++ t ∧ q c = true := by
  obtain ⟨c, t, rfl⟩ := (Text.eq_empty_or_singleton_append s).resolve_left hne
  exact ⟨c, t, rfl, within_singleton.1 (within_append.1 h).1⟩

/-- A text that is within a class and does not go on with it is empty. -/
theorem eq_empty_of_within_of_stops (h : Within q s) (h' : Stops q s) : s = "" := by
  rcases Text.eq_empty_or_singleton_append s with rfl | ⟨c, t, rfl⟩
  · rfl
  · rw [within_append, within_singleton] at h
    rw [stops_singleton_append, h.1] at h'
    cases h'

/-- Of two splits of a text into a run of a class and a rest that does not go on with it, neither has
the longer run. -/
theorem run_append_inj {a b a' b' : String} (ha : Within q a) (hb : Stops q b) (ha' : Within q a')
    (hb' : Stops q b') : a ++ b = a' ++ b' ↔ a = a' ∧ b = b' := by
  constructor
  · intro h
    wlog hle : a.utf8ByteSize ≤ a'.utf8ByteSize generalizing a b a' b'
    · obtain ⟨rfl, rfl⟩ := this ha' hb' ha hb h.symm (Nat.le_of_not_le hle)
      exact ⟨rfl, rfl⟩
    obtain ⟨mid, rfl, rfl⟩ := Text.append_split h hle
    -- what the second run has more is in the class, and what is behind the first does not start so
    have hmid : mid = "" := by
      by_contra hne
      have hstops : Stops q mid := (stops_append hne).1 hb
      exact hne (eq_empty_of_within_of_stops (within_append.1 ha').2 hstops)
    subst hmid
    exact ⟨(String.append_empty ..).symm, String.empty_append ..⟩
  · rintro ⟨rfl, rfl⟩
    rfl

/-- Every text splits into the longest run of a class and the rest. -/
theorem exists_run (q : Char → Bool) (s : String) :
    ∃ run rest, s = run ++ rest ∧ Within q run ∧ Stops q rest := by
  induction s using Text.char_induction with
  | empty => exact ⟨"", "", by simp, by simp, by simp⟩
  | cons c t ih =>
    cases hc : q c with
    | false => exact ⟨"", String.singleton c ++ t, by simp, by simp, by simpa using hc⟩
    | true =>
      obtain ⟨run, rest, rfl, hrun, hrest⟩ := ih
      exact ⟨String.singleton c ++ run, rest, (String.append_assoc ..).symm, by simp [hc, hrun],
        hrest⟩

end ExprLexer
