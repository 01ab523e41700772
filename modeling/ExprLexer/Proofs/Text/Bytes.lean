/-
Texts by their bytes: the list of bytes follows the concatenation of texts, a position stands on a
character boundary exactly when the text splits there, and the piece between two positions is the
middle of a split in three. A byte below 128 is a character by itself.
-/
import ExprLexer.Text.Bytes
import Mathlib.Tactic.Common

namespace ExprLexer.Text

/-! ## Bytes -/

@[simp] theorem length_bytes (s : String) : (bytes s).length = s.utf8ByteSize := by
  simp [bytes, ← String.size_toByteArray]

theorem bytes_append (s t : String) : bytes (s ++ t) = bytes s ++ bytes t := by
  simp [bytes, ByteArray.data_append]

@[simp] theorem bytes_empty : bytes "" = [] := rfl

theorem toByteArray_bytes (s : String) : (bytes s).toByteArray = s.toByteArray := by
  apply ByteArray.ext
  simp [bytes]

theorem bytes_singleton (c : Char) : bytes (String.singleton c) = String.utf8EncodeChar c := by
  rw [String.singleton_eq_ofList, bytes, String.toByteArray_ofList, List.utf8Encode_singleton]
  simp

/-- Behind a text stand zeros. -/
theorem getD_bytes_of_le {s : String} {i : Nat} (h : s.utf8ByteSize ≤ i) :
    (bytes s).getD i 0 = 0 := by
  rw [List.getD_eq_getElem?_getD, List.getElem?_eq_none (by simpa using h), Option.getD_none]

theorem byteAt?_eq (s : String) (i : Nat) : byteAt? s i = (bytes s)[i]? := by
  unfold byteAt?
  split
  · simp [String.getUTF8Byte, bytes, ByteArray.getElem_eq_getElem_data]
  · rename_i h
    rw [List.getElem?_eq_none]
    simpa [String.Pos.Raw.lt_iff] using h

/-! ## Character by character -/

/-- Induction on a text from its front. -/
@[elab_as_elim] theorem char_induction {motive : String → Prop} (s : String) (empty : motive "")
    (cons : ∀ c t, motive t → motive (String.singleton c ++ t)) : motive s := by
  obtain ⟨l, rfl⟩ := s.exists_eq_ofList
  induction l with
  | nil => simpa using empty
  | cons c l ih =>
    have e : String.ofList (c :: l) = String.singleton c ++ String.ofList l := by
      rw [String.singleton_eq_ofList, ← String.ofList_append]; rfl
    rw [e]; exact cons c _ ih

/-- A text is empty or starts with a character. -/
theorem eq_empty_or_singleton_append (s : String) :
    s = "" ∨ ∃ c t, s = String.singleton c ++ t := by
  induction s using char_induction with
  | empty => exact .inl rfl
  | cons c t _ => exact .inr ⟨c, t, rfl⟩

/-- The first byte of a character. -/
def firstByte (c : Char) : UInt8 := (String.utf8EncodeChar c).head String.utf8EncodeChar_ne_nil

/-- The size of a character shows in its first byte. -/
theorem firstByte_cases (c : Char) :
    (c.utf8Size = 1 ∧ (firstByte c).toNat = c.toNat ∧ c.toNat < 0x80) ∨
    0x80 ≤ c.toNat ∧
      ((c.utf8Size = 2 ∧ 0xC0 ≤ (firstByte c).toNat ∧ (firstByte c).toNat ≤ 0xDF) ∨
       (c.utf8Size = 3 ∧ 0xE0 ≤ (firstByte c).toNat ∧ (firstByte c).toNat ≤ 0xEF) ∨
       (c.utf8Size = 4 ∧ 0xF0 ≤ (firstByte c).toNat ∧ (firstByte c).toNat ≤ 0xF7)) := by
  have e : c.toNat = c.val.toNat := rfl
  have h : ∃ b bs, String.utf8EncodeChar c = b :: bs ∧
      ((bs.length = 0 ∧ b.toNat = c.toNat ∧ c.toNat < 0x80) ∨ 0x80 ≤ c.toNat ∧
        ((bs.length = 1 ∧ 0xC0 ≤ b.toNat ∧ b.toNat ≤ 0xDF) ∨
         (bs.length = 2 ∧ 0xE0 ≤ b.toNat ∧ b.toNat ≤ 0xEF) ∨
         (bs.length = 3 ∧ 0xF0 ≤ b.toNat ∧ b.toNat ≤ 0xF7))) := by
    unfold String.utf8EncodeChar
    dsimp only
    split_ifs <;> refine ⟨_, _, rfl, ?_⟩ <;>
      simp only [UInt8.toNat_ofNat', List.length_cons, List.length_nil, true_and] <;> omega
  obtain ⟨b, bs, h, hb⟩ := h
  have hf : firstByte c = b := by simp only [firstByte, h, List.head_cons]
  have hs : c.utf8Size = bs.length + 1 := by rw [← String.length_utf8EncodeChar, h]; rfl
  rw [hf, hs]
  omega

theorem bytes_singleton_append (c : Char) (t : String) :
    ∃ bs, bytes (String.singleton c ++ t) = firstByte c :: bs ++ bytes t ∧
      bs.length + 1 = c.utf8Size := by
  have h : String.utf8EncodeChar c = firstByte c :: (String.utf8EncodeChar c).tail :=
    (List.cons_head_tail String.utf8EncodeChar_ne_nil).symm
  refine ⟨(String.utf8EncodeChar c).tail, ?_, ?_⟩
  · rw [bytes_append, bytes_singleton, ← h]
  · rw [← String.length_utf8EncodeChar, h]; rfl

/-- All bytes of a character from 128 on are from 128 on. -/
theorem le_of_mem_bytes_singleton {c : Char} (h : 0x80 ≤ c.toNat) :
    ∀ b ∈ bytes (String.singleton c), 0x80 ≤ b.toNat := by
  have e : c.toNat = c.val.toNat := rfl
  rw [bytes_singleton]
  unfold String.utf8EncodeChar
  rw [if_neg (by omega)]
  split_ifs <;> intro b hb <;> simp only [List.mem_cons, List.not_mem_nil, or_false] at hb <;>
    rcases hb with rfl | rfl | rfl | rfl <;> simp only [UInt8.toNat_ofNat'] <;> omega

/-- The bytes of a character behind the first are from 128 on and below 192. -/
theorem of_mem_tail_bytes_singleton (c : Char) :
    ∀ b ∈ (bytes (String.singleton c)).tail, 0x80 ≤ b.toNat ∧ b.toNat < 0xC0 := by
  rw [bytes_singleton]
  unfold String.utf8EncodeChar
  dsimp only
  split_ifs <;> simp only [List.tail_cons, List.forall_mem_cons, List.not_mem_nil, false_imp_iff,
    implies_true, and_true, UInt8.toNat_ofNat'] <;> omega

theorem bytes_singleton_of_size {c : Char} (h : c.utf8Size = 1) :
    bytes (String.singleton c) = [firstByte c] := by
  obtain ⟨bs, hbs, hl⟩ := bytes_singleton_append c ""
  have hnil : bs = [] := List.length_eq_zero_iff.1 (by omega)
  rw [hnil] at hbs
  simpa using hbs

/-- A byte below 128 is a character of the text. -/
theorem char_of_byte {s : String} {i : Nat} {b : UInt8} (h : (bytes s)[i]? = some b)
    (hb : b.toNat < 0x80) :
    ∃ pre suf, s = pre ++ String.singleton (Char.ofNat b.toNat) ++ suf ∧ i = pre.utf8ByteSize := by
  induction s using char_induction generalizing i with
  | empty => simp at h
  | cons c t ih =>
    rw [bytes_append] at h
    by_cases hi : i < c.utf8Size
    · -- the byte is one of the first character, which has no byte below 128 but a single one
      rw [List.getElem?_append_left (by simpa using hi)] at h
      have hm := List.mem_of_getElem? h
      rcases firstByte_cases c with ⟨h1, hc, -⟩ | ⟨hc, -⟩
      · rw [bytes_singleton_of_size h1, List.mem_singleton] at hm
        refine ⟨"", t, ?_, by simp; omega⟩
        rw [hm, hc, Char.ofNat_toNat]
        simp
      · have := le_of_mem_bytes_singleton hc b hm
        omega
    · rw [List.getElem?_append_right (by simpa using hi)] at h
      obtain ⟨pre, suf, ht, hp⟩ := ih h
      refine ⟨String.singleton c ++ pre, suf, ?_, ?_⟩
      · rw [ht]; simp only [String.append_assoc]
      · simp at hp ⊢; omega

/-! ## Boundaries -/

/-- A position on a character boundary of a text: the text splits there. -/
def Boundary (s : String) (i : Nat) : Prop := ∃ pre suf, s = pre ++ suf ∧ i = pre.utf8ByteSize

theorem Boundary.append {s : String} {i : Nat} (h : Boundary s i) (t : String) :
    Boundary (t ++ s) (t.utf8ByteSize + i) := by
  obtain ⟨pre, suf, rfl, rfl⟩ := h
  exact ⟨t ++ pre, suf, (String.append_assoc ..).symm, (String.utf8ByteSize_append ..).symm⟩

theorem boundary_zero (s : String) : Boundary s 0 := ⟨"", s, (String.empty_append ..).symm, rfl⟩

theorem boundary_size (s : String) : Boundary s s.utf8ByteSize :=
  ⟨s, "", (String.append_empty ..).symm, rfl⟩

/-- Inside a character stands one of its bytes behind the first. -/
theorem byte_inside {s : String} {i : Nat} (hi : i ≤ s.utf8ByteSize) (h : ¬ Boundary s i) :
    ∃ b, (bytes s)[i]? = some b ∧ 0x80 ≤ b.toNat ∧ b.toNat < 0xC0 := by
  induction s using char_induction generalizing i with
  | empty =>
    obtain rfl : i = 0 := by simpa using hi
    exact absurd (boundary_zero _) h
  | cons c t ih =>
    by_cases hc : i < c.utf8Size
    · -- the position is inside the first character, and not in front of it
      obtain ⟨j, rfl⟩ : ∃ j, i = j + 1 := by
        refine ⟨i - 1, ?_⟩
        have : i ≠ 0 := fun h0 => h (h0 ▸ boundary_zero _)
        omega
      have hlt : j < (bytes (String.singleton c)).tail.length := by simp; omega
      refine ⟨_, ?_, of_mem_tail_bytes_singleton c _ (List.getElem_mem hlt)⟩
      rw [bytes_append, List.getElem?_append_left (by simpa using hc), ← List.getElem?_tail]
      exact List.getElem?_eq_getElem hlt
    · have hle : i - c.utf8Size ≤ t.utf8ByteSize := by simp at hi; omega
      obtain ⟨b, hb, hb'⟩ := ih hle fun hb => h (by
        have := hb.append (String.singleton c)
        rwa [String.utf8ByteSize_singleton, Nat.add_sub_cancel' (Nat.not_lt.1 hc)] at this)
      refine ⟨b, ?_, hb'⟩
      rw [bytes_append, List.getElem?_append_right (by simpa using hc)]
      simpa using hb

theorem isValid_iff_boundary {s : String} {i : Nat} :
    (⟨i⟩ : String.Pos.Raw).IsValid s ↔ Boundary s i := by
  rw [String.Pos.Raw.isValid_iff_exists_append]
  simp [Boundary, String.Pos.Raw.ext_iff]

theorem pos?_eq (s : String) (i : Nat) :
    s.pos? ⟨i⟩ = if h : (⟨i⟩ : String.Pos.Raw).IsValid s then some (s.pos ⟨i⟩ h) else none := by
  unfold String.pos? String.Slice.pos?
  by_cases h : (⟨i⟩ : String.Pos.Raw).IsValid s <;> simp [h, String.pos]

/-- Of two splits of a text, the one further on refines the other. -/
theorem append_split {p q p' q' : String} (h : p ++ q = p' ++ q')
    (hle : p.utf8ByteSize ≤ p'.utf8ByteSize) : ∃ mid, p' = p ++ mid ∧ q = mid ++ q' := by
  have hl : p.toList ++ q.toList = p'.toList ++ q'.toList := by
    simpa using congrArg String.toList h
  rcases List.append_eq_append_iff.1 hl with ⟨m, h1, h2⟩ | ⟨m, h1, h2⟩
  · exact ⟨String.ofList m, String.toList_inj.1 (by simpa using h1),
      String.toList_inj.1 (by simpa using h2)⟩
  · have hp : p = p' ++ String.ofList m := String.toList_inj.1 (by simpa using h1)
    have hm : String.ofList m = "" := by
      rw [hp, String.utf8ByteSize_append] at hle
      rw [← String.utf8ByteSize_eq_zero_iff]; omega
    rw [hp, hm] at h ⊢
    exact ⟨"", by simp, by simpa using h⟩

/-- Two splits of a text at one position are the same. -/
theorem append_inj {p q p' q' : String} (h : p ++ q = p' ++ q')
    (hs : p.utf8ByteSize = p'.utf8ByteSize) : p = p' ∧ q = q' := by
  obtain ⟨mid, hp, hq⟩ := append_split h (by omega)
  have hm : mid = "" := by
    rw [hp, String.utf8ByteSize_append] at hs
    rw [← String.utf8ByteSize_eq_zero_iff]; omega
  subst hm
  exact ⟨by simpa using hp.symm, by simpa using hq⟩

/-! ## Pieces -/

theorem extract_pos {pre mid suf : String} {i j : Nat} (hi : i = pre.utf8ByteSize)
    (hj : j = pre.utf8ByteSize + mid.utf8ByteSize)
    (h1 : (⟨i⟩ : String.Pos.Raw).IsValid (pre ++ mid ++ suf))
    (h2 : (⟨j⟩ : String.Pos.Raw).IsValid (pre ++ mid ++ suf)) :
    (pre ++ mid ++ suf).extract (String.pos _ ⟨i⟩ h1) (String.pos _ ⟨j⟩ h2) = mid := by
  rw [← String.toByteArray_inj]
  simp only [String.toByteArray_extract, String.offset_pos, String.toByteArray_append]
  subst hi hj
  rw [ByteArray.append_assoc, ← String.size_toByteArray, ← String.size_toByteArray,
    ← Nat.add_zero pre.toByteArray.size, Nat.add_assoc, Nat.zero_add,
    ByteArray.extract_append_size_add, ByteArray.extract_append_eq_left rfl]

theorem cut_append (pre mid suf : String) :
    cut (pre ++ mid ++ suf) pre.utf8ByteSize (pre.utf8ByteSize + mid.utf8ByteSize) = .ok mid := by
  have h1 : Boundary (pre ++ mid ++ suf) pre.utf8ByteSize :=
    ⟨pre, mid ++ suf, String.append_assoc .., rfl⟩
  have h2 : Boundary (pre ++ mid ++ suf) (pre.utf8ByteSize + mid.utf8ByteSize) :=
    ⟨pre ++ mid, suf, rfl, by simp⟩
  unfold cut
  rw [if_neg (by omega), pos?_eq, pos?_eq, dif_pos (isValid_iff_boundary.2 h1),
    dif_pos (isValid_iff_boundary.2 h2)]
  exact congrArg _ (extract_pos rfl rfl _ _)

theorem cut_error {s : String} {start stop : Nat} (hle : start ≤ stop)
    (h : ¬ (Boundary s start ∧ Boundary s stop)) : cut s start stop = .error .insideCharacter := by
  unfold cut
  rw [if_neg (by omega), pos?_eq, pos?_eq]
  by_cases h1 : Boundary s start <;> by_cases h2 : Boundary s stop <;>
    simp_all [isValid_iff_boundary]

/-- A text can be cut between two boundaries. -/
theorem cut_of_boundary {s : String} {start stop : Nat} (hle : start ≤ stop)
    (h1 : Boundary s start) (h2 : Boundary s stop) :
    ∃ pre mid suf, s = pre ++ mid ++ suf ∧ start = pre.utf8ByteSize ∧
      stop = start + mid.utf8ByteSize ∧ cut s start stop = .ok mid := by
  obtain ⟨p, q, rfl, rfl⟩ := h1
  obtain ⟨p', q', h, rfl⟩ := h2
  obtain ⟨mid, rfl, rfl⟩ := append_split h hle
  refine ⟨p, mid, q', h, rfl, by simp, ?_⟩
  rw [h, String.utf8ByteSize_append]
  exact cut_append p mid q'

/-- A piece that is cut out of a text is the middle of a split in three. -/
theorem cut_eq_ok_iff {s t : String} {start stop : Nat} :
    cut s start stop = .ok t ↔ ∃ pre suf, s = pre ++ t ++ suf ∧ start = pre.utf8ByteSize ∧
      stop = start + t.utf8ByteSize := by
  constructor
  · intro h
    have hle : start ≤ stop := by
      by_contra hlt
      unfold cut at h
      rw [if_pos (by omega)] at h
      cases h
    by_cases hb : Boundary s start ∧ Boundary s stop
    · obtain ⟨pre, mid, suf, hs, h1, h2, hc⟩ := cut_of_boundary hle hb.1 hb.2
      rw [hc] at h
      cases h
      exact ⟨pre, suf, hs, h1, h2⟩
    · rw [cut_error hle hb] at h
      cases h
  · rintro ⟨pre, suf, rfl, rfl, rfl⟩
    exact cut_append pre t suf

/-- A piece cannot be cut out just if its bounds are the wrong way round or not on boundaries. -/
theorem exists_cut_error_iff {s : String} {start stop : Nat} :
    (∃ fault, cut s start stop = .error fault) ↔
      stop < start ∨ ¬ Boundary s start ∨ ¬ Boundary s stop := by
  by_cases hlt : stop < start
  · exact iff_of_true ⟨.reversedBounds, if_pos hlt⟩ (.inl hlt)
  have hle : start ≤ stop := Nat.not_lt.1 hlt
  by_cases hb : Boundary s start ∧ Boundary s stop
  · obtain ⟨-, mid, -, -, -, -, hcut⟩ := cut_of_boundary hle hb.1 hb.2
    simp [hcut, hlt, hb]
  · rw [cut_error hle hb]
    exact iff_of_true ⟨_, rfl⟩ (.inr (not_and_or.1 hb))

end ExprLexer.Text
