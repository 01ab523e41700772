/-
How the kinds of tokens are spelled, in characters: which texts are legal for a kind, and which
characters would make a token of a kind longer. Every text is white space only or starts, after
white space, with a legal spelling that the rest does not go on with; what the first byte of a
character says about a kind is what the character says.
-/
import ExprLexer.Proofs.Source.Cursor
import ExprLexer.Token.Stream

namespace ExprLexer

/-! ## Classes of characters -/

/-- The eight punctuation marks. -/
def isMark (c : Char) : Bool :=
  c = '+' || c = '-' || c = '*' || c = '/' || c = '(' || c = ')' || c = ':' || c = ','

/-- The characters of no class: neither white space nor an ASCII letter, an ASCII digit or a
punctuation mark. -/
def isStray (c : Char) : Bool := !(isBlank c || c.isAlpha || c.isDigit || isMark c)

theorem byteClass_letter : ByteClass isLetter Char.isAlpha := by
  refine ⟨fun c => ?_, fun c => ?_, rfl⟩ <;> have h := Text.firstByte_cases c
  · rw [Bool.eq_iff_iff, isAlpha_iff]
    simp only [isLetter, Bool.or_eq_true, Bool.and_eq_true, decide_eq_true_eq,
      UInt8.le_iff_toNat_le, UInt8.reduceToNat]
    omega
  · rw [isAlpha_iff]; omega

theorem byteClass_digit : ByteClass isDigit Char.isDigit := by
  refine ⟨fun c => ?_, fun c => ?_, rfl⟩ <;> have h := Text.firstByte_cases c
  · rw [Bool.eq_iff_iff, isDigit_iff]
    simp only [isDigit, Bool.and_eq_true, decide_eq_true_eq, UInt8.le_iff_toNat_le,
      UInt8.reduceToNat]
    omega
  · rw [isDigit_iff]; omega

theorem not_isBlank_of_isAlpha {c : Char} (h : c.isAlpha = true) : isBlank c = false := by
  rw [← Bool.not_eq_true, isBlank_iff]
  rw [isAlpha_iff] at h
  omega

theorem not_isBlank_of_isDigit {c : Char} (h : c.isDigit = true) : isBlank c = false := by
  rw [← Bool.not_eq_true, isBlank_iff]
  rw [isDigit_iff] at h
  omega

theorem not_isAlpha_of_isDigit {c : Char} (h : c.isDigit = true) : c.isAlpha = false := by
  rw [← Bool.not_eq_true, isAlpha_iff]
  rw [isDigit_iff] at h
  omega

theorem isMark_cases {c : Char} (h : isMark c = true) :
    isBlank c = false ∧ c.isAlpha = false ∧ c.isDigit = false ∧ c.utf8Size = 1 := by
  simp only [isMark, Bool.or_eq_true, decide_eq_true_eq] at h
  rcases h with ((((((rfl | rfl) | rfl) | rfl) | rfl) | rfl) | rfl) | rfl <;> decide

theorem isStray_iff {c : Char} : isStray c = true ↔
    isBlank c = false ∧ c.isAlpha = false ∧ c.isDigit = false ∧ isMark c = false := by
  simp only [isStray, Bool.not_eq_true', Bool.or_eq_false_iff, and_assoc]

theorem isMark_or_isStray {c : Char} (h : isMark c = true ∨ isStray c = true) :
    isBlank c = false ∧ c.isAlpha = false ∧ c.isDigit = false := by
  rcases h with h | h
  · obtain ⟨hb, ha, hd, -⟩ := isMark_cases h
    exact ⟨hb, ha, hd⟩
  · obtain ⟨hb, ha, hd, -⟩ := isStray_iff.1 h
    exact ⟨hb, ha, hd⟩

namespace Kind

/-! ## Punctuation marks -/

theorem ofPunctuation?_none {c : Char} (h : isMark c = false) :
    ofPunctuation? (Text.firstByte c) = none := by
  have hf := Text.firstByte_cases c
  simp only [isMark, Bool.or_eq_false_iff, decide_eq_false_iff_not, ← Char.toNat_inj,
    Char.reduceToNat] at h
  unfold ofPunctuation?
  split <;> first | rfl | omega

theorem exists_mark {c : Char} (h : isMark c = true) :
    ∃ k : Kind, k.isPunctuation = true ∧ k.lexeme? = some (String.singleton c) := by
  simp only [isMark, Bool.or_eq_true, decide_eq_true_eq] at h
  rcases h with ((((((rfl | rfl) | rfl) | rfl) | rfl) | rfl) | rfl) | rfl
  exacts [⟨plus, rfl, rfl⟩, ⟨minus, rfl, rfl⟩, ⟨star, rfl, rfl⟩, ⟨slash, rfl, rfl⟩,
    ⟨leftParen, rfl, rfl⟩, ⟨rightParen, rfl, rfl⟩, ⟨colon, rfl, rfl⟩, ⟨comma, rfl, rfl⟩]

theorem mark_of_lexeme {k : Kind} {text : String} (hk : k.isPunctuation = true)
    (h : k.lexeme? = some text) : ∃ c, text = String.singleton c ∧ isMark c = true ∧
      ofPunctuation? (Text.firstByte c) = some k := by
  cases k <;> simp only [isPunctuation, Bool.false_eq_true] at hk <;> cases h
  exacts [⟨',', rfl, rfl, rfl⟩, ⟨':', rfl, rfl, rfl⟩, ⟨'+', rfl, rfl, rfl⟩, ⟨'-', rfl, rfl, rfl⟩,
    ⟨'*', rfl, rfl, rfl⟩, ⟨'/', rfl, rfl, rfl⟩, ⟨'(', rfl, rfl, rfl⟩, ⟨')', rfl, rfl, rfl⟩]

/-! ## Legal spellings -/

/-- The kind of a run of letters. -/
def ofWord (text : String) : Kind := if text = "with" then kwWith else ident

/-- The legal spellings of each kind but the end. -/
inductive Spells : Kind → String → Prop
  | kwWith : Spells kwWith "with"
  | ident {text : String} : text ≠ "" → Within Char.isAlpha text → text ≠ "with" → Spells ident text
  | number {text : String} : text ≠ "" → Within Char.isDigit text → Spells number text
  | mark {k : Kind} {text : String} : k.isPunctuation = true → k.lexeme? = some text → Spells k text
  | stray {c : Char} : isStray c = true → Spells unknown (String.singleton c)

/-- The characters that would make a token of a kind longer. -/
def runsOn : Kind → Char → Bool
  | ident, c => c.isAlpha
  | kwWith, c => c.isAlpha
  | number, c => c.isDigit
  | _, _ => false

/-- A legal spelling is a word, a number or a single character. -/
theorem Spells.cases {k : Kind} {text : String} (h : k.Spells text) :
    (k = ofWord text ∧ k.runsOn = Char.isAlpha ∧ text ≠ "" ∧ Within Char.isAlpha text) ∨
    (k = Kind.number ∧ text ≠ "" ∧ Within Char.isDigit text) ∨
    ∃ c, text = String.singleton c ∧ (∀ d, k.runsOn d = false) ∧
      ((isMark c = true ∧ ofPunctuation? (Text.firstByte c) = some k) ∨
        isStray c = true ∧ k = Kind.unknown) := by
  cases h with
  | kwWith => exact .inl ⟨rfl, rfl, by decide, by simp [Within]⟩
  | ident h1 h2 h3 => exact .inl ⟨by simp [ofWord, h3], rfl, h1, h2⟩
  | number h1 h2 => exact .inr (.inl ⟨rfl, h1, h2⟩)
  | mark h1 h2 =>
    obtain ⟨c, rfl, hc, hk⟩ := mark_of_lexeme h1 h2
    refine .inr (.inr ⟨c, rfl, fun d => ?_, .inl ⟨hc, hk⟩⟩)
    cases k <;> first | rfl | cases h1
  | stray h => exact .inr (.inr ⟨_, rfl, fun d => rfl, .inr ⟨h, rfl⟩⟩)

/-- A class of characters whose runs are tokens: a run is a legal spelling of one kind, which just
the class goes on with, and a character of the class stands in tokens of that kind only. -/
structure RunClass (q : Char → Bool) (kindOf : String → Kind) : Prop where
  spells : ∀ {text : String}, text ≠ "" → Within q text → (kindOf text).Spells text
  runsOn : ∀ text : String, (kindOf text).runsOn = q
  only : ∀ {k : Kind} {text : String} {c : Char}, k.Spells text → c ∈ text.toList → q c = true →
    k = kindOf text ∧ Within q text
  notBlank : ∀ {c : Char}, q c = true → isBlank c = false

theorem runClass_word : RunClass Char.isAlpha ofWord := by
  constructor
  case spells =>
    intro text h hw
    by_cases ht : text = "with"
    · subst ht
      exact .kwWith
    · simpa [ofWord, ht] using Spells.ident h hw ht
  case runsOn =>
    intro text
    unfold ofWord
    split <;> rfl
  case only =>
    intro k text c h hc hq
    rcases h.cases with ⟨hk, -, -, hw⟩ | ⟨-, -, hw⟩ | ⟨d, rfl, -, hm⟩
    · exact ⟨hk, hw⟩
    · rw [not_isAlpha_of_isDigit (hw c hc)] at hq
      cases hq
    · have hd := isMark_or_isStray (hm.imp And.left And.left)
      rw [String.toList_singleton, List.mem_singleton] at hc
      rw [hc, hd.2.1] at hq
      cases hq
  case notBlank => exact not_isBlank_of_isAlpha

theorem runClass_number : RunClass Char.isDigit fun _ => number := by
  constructor
  case spells => exact Spells.number
  case runsOn => exact fun _ => rfl
  case only =>
    intro k text c h hc hq
    rcases h.cases with ⟨-, -, -, hw⟩ | ⟨hk, -, hw⟩ | ⟨d, rfl, -, hm⟩
    · have := not_isAlpha_of_isDigit hq
      rw [hw c hc] at this
      cases this
    · exact ⟨hk, hw⟩
    · have hd := isMark_or_isStray (hm.imp And.left And.left)
      rw [String.toList_singleton, List.mem_singleton] at hc
      rw [hc, hd.2.2] at hq
      cases hq
  case notBlank => exact not_isBlank_of_isDigit

/-- A character that a token of a kind would go on with is in the class of its runs. -/
theorem runsOn_cases {k : Kind} {d : Char} (h : k.runsOn d = true) :
    k.runsOn = Char.isAlpha ∨ k.runsOn = Char.isDigit := by
  cases k <;> first | exact .inl rfl | exact .inr rfl | cases h

/-- A token starts with no white space and is not empty. -/
theorem Spells.head {k : Kind} {text : String} (h : k.Spells text) :
    ∃ c t, text = String.singleton c ++ t ∧ isBlank c = false := by
  rcases h.cases with ⟨-, -, hne, hw⟩ | ⟨-, hne, hw⟩ | ⟨c, rfl, -, hm⟩
  · obtain ⟨c, t, ht, hc⟩ := exists_head hw hne
    exact ⟨c, t, ht, not_isBlank_of_isAlpha hc⟩
  · obtain ⟨c, t, ht, hc⟩ := exists_head hw hne
    exact ⟨c, t, ht, not_isBlank_of_isDigit hc⟩
  · exact ⟨c, "", by simp, (isMark_or_isStray (hm.imp And.left And.left)).1⟩

theorem Spells.ne_empty {k : Kind} {text : String} (h : k.Spells text) : text ≠ "" := by
  obtain ⟨c, t, rfl, -⟩ := h.head
  simp

theorem Spells.ne_eof {k : Kind} {text : String} (h : k.Spells text) : k ≠ eof := by
  cases h with
  | mark h _ => rintro rfl; cases h
  | _ => nofun

end Kind

/-! ## The first token of a text -/

/-- A text starts, after white space, with a longest legal spelling of a kind. -/
structure Lexeme (s gap : String) (kind : Kind) (text rest : String) : Prop where
  source : s = gap ++ text ++ rest
  blank : Blank gap
  spelled : kind.Spells text
  longest : Stops kind.runsOn rest

/-- A longest run of one class at the front of a text is a token. -/
theorem exists_lexeme_run {q : Char → Bool} {kindOf : String → Kind} (hq : Kind.RunClass q kindOf)
    {c : Char} (hc : q c = true) (t : String) :
    ∃ kind text rest, Lexeme (String.singleton c ++ t) "" kind text rest := by
  obtain ⟨run, rest, rfl, hrun, hrest⟩ := exists_run q t
  refine ⟨_, String.singleton c ++ run, rest, by simp [String.append_assoc], by simp,
    hq.spells (by simp) (by simp [hc, hrun]), ?_⟩
  rwa [hq.runsOn]

theorem exists_lexeme_char {c : Char} (t : String) (h : isBlank c = false) :
    ∃ kind text rest, Lexeme (String.singleton c ++ t) "" kind text rest := by
  by_cases ha : c.isAlpha = true
  · exact exists_lexeme_run Kind.runClass_word ha t
  by_cases hd : c.isDigit = true
  · exact exists_lexeme_run Kind.runClass_number hd t
  obtain ⟨k, hk⟩ : ∃ k : Kind, k.Spells (String.singleton c) := by
    by_cases hm : isMark c = true
    · obtain ⟨k, h1, h2⟩ := Kind.exists_mark hm
      exact ⟨k, .mark h1 h2⟩
    · exact ⟨.unknown, .stray (isStray_iff.2 (by simp_all))⟩
  refine ⟨k, String.singleton c, t, by simp, by simp, hk, fun d _ => ?_⟩
  rcases hk.cases with ⟨-, -, -, hw⟩ | ⟨-, -, hw⟩ | ⟨_, -, hr, -⟩
  · exact absurd (within_singleton.1 hw) ha
  · exact absurd (within_singleton.1 hw) hd
  · exact hr d

/-- Every text is white space or has a first token. -/
theorem blank_or_lexeme (s : String) :
    Blank s ∨ ∃ gap kind text rest, Lexeme s gap kind text rest := by
  obtain ⟨gap, rest, rfl, hgap, hrest⟩ := exists_run isBlank s
  rcases Text.eq_empty_or_singleton_append rest with rfl | ⟨c, t, rfl⟩
  · exact .inl (by simpa using hgap)
  · obtain ⟨kind, text, rest, h⟩ := exists_lexeme_char t (stops_singleton_append.1 hrest)
    refine .inr ⟨gap, kind, text, rest, ?_, hgap, h.spelled, h.longest⟩
    rw [h.source]
    simp [String.append_assoc]

end ExprLexer
