/-
Reading quoted text back. A reader goes through the written form of a text character by character
and keeps no more than the spot it is at: in plain text, behind a backslash, before the brace of a
code point or inside one. It undoes every style of escaping, whether or not the text is taken to
start there, and stops at the closing quote. A written form has no control character in it.
-/
import ExprLexer.Text.Escape
import Mathlib.Tactic.Common

namespace ExprLexer.Text

/-! ## Digits -/

theorem mem_toDigits {b n : Nat} {c : Char} (hb : 1 < b) (h : c ∈ Nat.toDigits b n) :
    ∃ k < b, c = k.digitChar := by
  induction n using Nat.strongRecOn with
  | ind n ih =>
    rw [Nat.toDigits_eq_if hb] at h
    split at h
    · rename_i hn
      exact ⟨n, hn, List.mem_singleton.1 h⟩
    · rename_i hn
      rcases List.mem_append.1 h with h | h
      · exact ih (n / b) (Nat.div_lt_self (by omega) hb) h
      · exact ⟨n % b, Nat.mod_lt n (by omega), List.mem_singleton.1 h⟩

/-- The value of a hexadecimal digit in lower case. -/
def hexValue (c : Char) : Nat := if c.isDigit then c.toNat - 48 else c.toNat - 87

theorem hexValue_digitChar {k : Nat} (h : k < 16) : hexValue k.digitChar = k := by
  revert k
  decide

theorem digitChar_ne_brace {k : Nat} (h : k < 16) : k.digitChar ≠ '\x7d' := by
  revert k
  decide

/-! ## The reader -/

/-- Where a reader of quoted text is. -/
inductive Spot where
  | plain
  /-- Behind a backslash. -/
  | backslash
  /-- Before the brace that opens a code point. -/
  | brace
  /-- In a code point of which these digits have been read. -/
  | code (n : Nat)

/-- The character that a letter behind a backslash stands for. -/
def letterEscape? (c : Char) : Option Char :=
  if c = '0' then some '\x00'
  else if c = 't' then some '\t'
  else if c = 'r' then some '\r'
  else if c = 'n' then some '\n'
  else if c = '\\' ∨ c = '\x22' ∨ c = '\x27' then some c
  else none

/-- What has been read with a character before it. -/
def push (c : Char) (read : Option (List Char × List Char)) : Option (List Char × List Char) :=
  read.map fun (text, rest) => (c :: text, rest)

/-- Reads a text up to its closing quote: the text, and what follows the quote. -/
def readQuoted : Spot → List Char → Option (List Char × List Char)
  | _, [] => none
  | .plain, c :: rest =>
    if c = '\x22' then some ([], rest)
    else if c = '\\' then readQuoted .backslash rest
    else push c (readQuoted .plain rest)
  | .backslash, c :: rest =>
    if c = 'u' then readQuoted .brace rest
    else (letterEscape? c).bind fun d => push d (readQuoted .plain rest)
  | .brace, c :: rest => if c = '\x7b' then readQuoted (.code 0) rest else none
  | .code n, c :: rest =>
    if c = '\x7d' then push (Char.ofNat n) (readQuoted .plain rest)
    else readQuoted (.code (16 * n + hexValue c)) rest

variable {style : EscapeStyle} {first : Bool} {c d : Char} {tail : List Char}

theorem readQuoted_raw (hq : c ≠ '\x22') (hb : c ≠ '\\') :
    readQuoted .plain (c :: tail) = push c (readQuoted .plain tail) := by
  rw [readQuoted, if_neg hq, if_neg hb]

theorem readQuoted_letter (hu : c ≠ 'u') (hd : letterEscape? c = some d) :
    readQuoted .plain ('\\' :: c :: tail) = push d (readQuoted .plain tail) := by
  rw [readQuoted, if_neg (by decide), if_pos rfl, readQuoted, if_neg hu, hd]
  rfl

/-- The digits of a code point lead to the code point. -/
theorem readQuoted_digits (n : Nat) :
    readQuoted (.code 0) (Nat.toDigits 16 n ++ tail) = readQuoted (.code n) tail := by
  -- on the digits but the last, behind which one more is read
  induction n using Nat.strongRecOn generalizing tail with
  | ind n ih =>
    have step : ∀ m k, k < 16 → readQuoted (.code m) (k.digitChar :: tail) =
        readQuoted (.code (16 * m + k)) tail := by
      intro m k hk
      rw [readQuoted, if_neg (digitChar_ne_brace hk), hexValue_digitChar hk]
    rw [Nat.toDigits_eq_if (by decide)]
    split
    · rename_i hn
      rw [List.singleton_append, step 0 n hn, Nat.mul_zero, Nat.zero_add]
    · rw [List.append_assoc, List.singleton_append, ih (n / 16) (by omega),
        step _ _ (Nat.mod_lt n (by decide)), Nat.div_add_mod]

theorem readQuoted_code :
    readQuoted .plain (codeEscape c ++ tail) = push c (readQuoted .plain tail) := by
  have hu : readQuoted .plain (codeEscape c ++ tail) =
      readQuoted (.code 0) (Nat.toDigits 16 c.toNat ++ '\x7d' :: tail) := by
    simp [codeEscape, readQuoted]
  rw [hu, readQuoted_digits, readQuoted, if_pos rfl, Char.ofNat_toNat]

/-- The written form of a character is read as the character. -/
theorem readQuoted_escapeChar :
    readQuoted .plain (escapeChar style first c ++ tail) = push c (readQuoted .plain tail) := by
  unfold escapeChar
  split_ifs with h0 ht hr hn hb hq ha hc
  · exact readQuoted_letter (by decide) (by rw [h0]; rfl)
  · exact readQuoted_letter (by decide) (by rw [ht]; rfl)
  · exact readQuoted_letter (by decide) (by rw [hr]; rfl)
  · exact readQuoted_letter (by decide) (by rw [hn]; rfl)
  · exact readQuoted_letter (by decide) (by rw [hb]; rfl)
  · exact readQuoted_letter (by decide) (by rw [hq]; rfl)
  · exact readQuoted_letter (by decide) (by rw [ha.1]; rfl)
  · exact readQuoted_code
  · exact readQuoted_raw hq hb

/-- Reading undoes writing. -/
theorem readQuoted_escapeChars (cs : List Char) :
    readQuoted .plain (escapeChars style first cs ++ '\x22' :: tail) = some (cs, tail) := by
  induction cs generalizing first with
  | nil => rfl
  | cons c cs ih =>
    rw [escapeChars, List.append_assoc, readQuoted_escapeChar, ih]
    rfl

theorem readQuoted_escape (s : String) :
    readQuoted .plain ((escape style s).toList ++ '\x22' :: tail) = some (s.toList, tail) := by
  rw [escape, String.toList_ofList, readQuoted_escapeChars]

theorem readQuoted_quoted (s x : String) :
    readQuoted .plain (quoted s ++ x).toList.tail = some (s.toList, x.toList) := by
  simp [quoted, readQuoted_escape]

/-- A text in quotes is found again in front of anything. -/
theorem quoted_append_inj {s t x y : String} :
    quoted s ++ x = quoted t ++ y ↔ s = t ∧ x = y := by
  constructor
  · intro h
    have hread := readQuoted_quoted s x
    rw [h, readQuoted_quoted t y, Option.some.injEq, Prod.mk.injEq, String.toList_inj,
      String.toList_inj] at hread
    exact ⟨hread.1.symm, hread.2.symm⟩
  · rintro ⟨rfl, rfl⟩
    rfl

/-! ## Control characters -/

/-- The characters of the general category Cc. -/
def isControl (c : Char) : Bool :=
  c.toNat ≤ 0x1F || (0x7F ≤ c.toNat && c.toNat ≤ 0x9F)

theorem isUnprintable_of_isControl (h : isControl c = true) : isUnprintable c = true := by
  obtain ⟨ranges, hr⟩ : ∃ ranges, unprintableRanges = (0x0, 0x1F) :: (0x7F, 0xA0) :: ranges :=
    ⟨_, rfl⟩
  simp only [isControl, Bool.or_eq_true, Bool.and_eq_true, decide_eq_true_eq] at h
  simp only [isUnprintable, hr, inRanges, Bool.or_eq_true, Bool.and_eq_true, decide_eq_true_eq]
  omega

theorem isControl_digitChar {k : Nat} (h : k < 16) : isControl k.digitChar = false := by
  revert k
  decide

theorem isControl_codeEscape (h : d ∈ codeEscape c) : isControl d = false := by
  simp only [codeEscape, List.mem_append, List.mem_cons, List.not_mem_nil, or_false] at h
  rcases h with ((rfl | rfl | rfl) | h) | rfl
  case inl.inr =>
    obtain ⟨k, hk, rfl⟩ := mem_toDigits (by decide) h
    exact isControl_digitChar hk
  all_goals decide

theorem isControl_letter (hc : isControl c = false) (h : d ∈ ['\\', c]) : isControl d = false := by
  simp only [List.mem_cons, List.not_mem_nil, or_false] at h
  rcases h with rfl | rfl
  exacts [by decide, hc]

theorem isControl_escapeChar (h : d ∈ escapeChar style first c) : isControl d = false := by
  unfold escapeChar at h
  split_ifs at h with h0 ht hr hn hb hq ha hc
  iterate 7 exact isControl_letter (by decide) h
  · exact isControl_codeEscape h
  · -- a character that stands for itself can be seen
    rw [List.mem_singleton.1 h, ← Bool.not_eq_true]
    intro hd
    simp [needsCode, isUnprintable_of_isControl hd] at hc

theorem isControl_escape {s : String} (h : d ∈ (escape style s).toList) : isControl d = false := by
  have go : ∀ first cs, d ∈ escapeChars style first cs → isControl d = false := by
    intro first cs hd
    induction cs generalizing first with
    | nil => cases hd
    | cons c cs ih =>
      rcases List.mem_append.1 hd with hd | hd
      exacts [isControl_escapeChar hd, ih _ hd]
  exact go true s.toList (by rwa [escape, String.toList_ofList] at h)

end ExprLexer.Text
