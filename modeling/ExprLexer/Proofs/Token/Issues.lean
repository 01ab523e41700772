/-
What is odd about a source, seen by its bytes and seen by its tokens. The issues of a source are the
byte order mark it starts with and each of its zero bytes, and they are the same places as those of
the unknown tokens that are a byte order mark in front or a NUL. The zeros behind the source are
neither.
-/
import ExprLexer.Proofs.Source.Issue
import ExprLexer.Proofs.Source.Lines
import ExprLexer.Proofs.Token.Session

namespace ExprLexer

variable {start : Nat} {s text : String} {ts : List Token} {t : Token} {kind : Kind}

/-! ## A character in front -/

namespace Text

theorem eq_of_bytes_eq {a b : String} (h : bytes a = bytes b) : a = b := by
  have ha := toByteArray_bytes a
  rw [h, toByteArray_bytes] at ha
  exact (String.toByteArray_inj.1 ha).symm

theorem bytes_singleton_prefix_iff {c : Char} :
    bytes (String.singleton c) <+: bytes s ↔ s.toList.head? = some c := by
  rcases eq_empty_or_singleton_append s with rfl | ⟨d, t, rfl⟩
  · obtain ⟨bs, hbs, -⟩ := bytes_singleton_append c ""
    rw [String.append_empty] at hbs
    simp [hbs]
  · have hhead : (String.singleton d ++ t).toList.head? = some d := by simp
    rw [hhead, bytes_append]
    constructor
    · intro h
      -- the first byte tells the size of a character, so the two take the same bytes
      obtain ⟨bs, hc, -⟩ := bytes_singleton_append c ""
      obtain ⟨ds, hd, -⟩ := bytes_singleton_append d ""
      rw [String.append_empty] at hc hd
      have hfirst : Text.firstByte c = Text.firstByte d := by
        rw [hc, hd] at h
        simpa using (List.cons_prefix_cons.1 h).1
      have hsize : c.utf8Size = d.utf8Size := by
        have h1 := firstByte_cases c
        have h2 := firstByte_cases d
        rw [hfirst] at h1
        omega
      have hle := List.prefix_of_prefix_length_le h (List.prefix_append _ _) (by simp [hsize])
      have heq := eq_of_bytes_eq (hle.eq_of_length (by simp [hsize]))
      have := congrArg String.toList heq
      simpa using this.symm
    · intro h
      cases h
      exact List.prefix_append _ _

end Text

theorem Issue.all_eq (h : s.utf8ByteSize ≤ Buffer.maxLength) : Issue.all s =
    (if s.toList.head? = some '\uFEFF' then [⟨.byteOrderMark, 0, 3⟩] else [])
      ++ (Text.positionsOf 0 s).map fun i => ⟨.nul, i, 1⟩ := by
  have hmark : [0xEF, 0xBB, 0xBF] = Text.bytes (String.singleton '\uFEFF') := by decide +kernel
  have hiff : ([0xEF, 0xBB, 0xBF].isPrefixOf (Text.bytes s) = true) ↔
      s.toList.head? = some '\uFEFF' := by
    rw [List.isPrefixOf_iff_prefix, hmark, Text.bytes_singleton_prefix_iff]
  rw [Issue.all_eq_append h, Issue.markOf]
  exact congrArg (· ++ _) (if_congr hiff rfl rfl)

/-! ## Zero bytes and NUL tokens -/

theorem Kind.Spells.nul (h : kind.Spells text) :
    (text = "\x00" ∧ kind = .unknown) ∨ text ≠ "\x00" ∧ Text.positionsOf 0 text = [] := by
  have hno : ∀ q : Char → Bool, q '\x00' = false → Within q text →
      text ≠ "\x00" ∧ Text.positionsOf 0 text = [] := by
    intro q hq hw
    have hn : '\x00' ∉ text.toList := by
      intro hm
      rw [hw _ hm] at hq
      cases hq
    refine ⟨?_, Text.positionsOf_eq_nil (by decide) hn⟩
    rintro rfl
    exact hn (by decide)
  rcases h.cases with ⟨-, -, -, hw⟩ | ⟨-, -, hw⟩ | ⟨c, rfl, -, hm⟩
  · exact .inr (hno _ (by decide) hw)
  · exact .inr (hno _ (by decide) hw)
  · by_cases hc : c = '\x00'
    · subst hc
      rcases hm with ⟨hm, -⟩ | ⟨-, hk⟩
      · exact absurd hm (by decide)
      · exact .inl ⟨rfl, hk⟩
    · exact .inr (hno (· ≠ '\x00') (by decide) (by simpa using hc))

/-- The zero bytes of a text are where its NUL tokens are. -/
theorem Lexes.offset_nul (h : Lexes start s ts) :
    (ts.filter (·.text = "\x00")).map (·.offset) = (Text.positionsOf 0 s).map (start + ·) := by
  have hblank : ∀ {gap}, Blank gap → Text.positionsOf 0 gap = [] := by
    intro gap hb
    refine Text.positionsOf_eq_nil (by decide) fun hm => ?_
    have := hb _ hm
    exact absurd this (by decide)
  -- both sides grow by one, at the same place, for a token that is a NUL, and by none for another
  induction h with
  | blank hb => simp [hblank hb]
  | @token start s gap text rest kind ts hl _ ih =>
    rw [hl.source, Text.positionsOf_append, Text.positionsOf_append, hblank hl.blank]
    rcases hl.spelled.nul with ⟨rfl, -⟩ | ⟨hne, hnil⟩
    · have hpos : Text.positionsOf 0 "\x00" = [0] := by decide +kernel
      rw [List.filter_cons_of_pos (by simp), List.map_cons, ih, hpos]
      simp [Function.comp_def, Nat.add_assoc, Nat.add_comm, Nat.add_left_comm]
    · rw [List.filter_cons_of_neg (by simpa using hne), ih, hnil]
      simp [Function.comp_def, Nat.add_assoc, Nat.add_comm, Nat.add_left_comm]

/-! ## Odd tokens -/

/-- A token that an issue of the source is about. -/
def Token.isOdd (t : Token) : Bool :=
  t.kind = .unknown ∧ (t.text = "\x00" ∨ t.text = "\uFEFF" ∧ t.offset = 0)

def Issue.span (i : Issue) : Nat × Nat := (i.pos, i.pos + i.length)

/-- The positions at which a token starts and ends, if they are not too large. -/
def Token.range (t : Token) : Nat × Nat := (t.offset, t.offset + t.text.utf8ByteSize)

/-- Unless a mark is in front, the odd tokens are the NUL tokens. -/
theorem Lexes.range_isOdd (h : Lexes start s ts)
    (hmark : ∀ t ∈ ts, t.text = "\uFEFF" → t.offset ≠ 0) :
    (ts.filter Token.isOdd).map Token.range =
      (Text.positionsOf 0 s).map fun i => (start + i, start + i + 1) := by
  have hodd : ts.filter Token.isOdd = ts.filter (·.text = "\x00") := by
    refine List.filter_congr fun t ht => ?_
    obtain ⟨-, -, -, -, hk, -⟩ := h.place t ht
    have := hmark t ht
    rcases hk.nul with ⟨hn, hk⟩ | ⟨hn, -⟩
    · simp [Token.isOdd, hn, hk]
    · simp only [Token.isOdd, hn, false_or, decide_false, decide_eq_false_iff_not]
      tauto
  have hrange : ∀ t ∈ ts.filter (·.text = "\x00"), t.range = (t.offset, t.offset + 1) := by
    intro t ht
    obtain ⟨-, ht⟩ := List.mem_filter.1 ht
    rw [Token.range, of_decide_eq_true ht]
    rfl
  have hnul := congrArg (List.map fun i => (i, i + 1)) h.offset_nul
  rw [List.map_map, List.map_map] at hnul
  rw [hodd, List.map_congr_left hrange]
  exact hnul

theorem Lexes.mark (h : Lexes start s ts) (hs : s.toList.head? = some '\uFEFF') :
    ∃ rest ts', ts = ⟨.unknown, "\uFEFF", start⟩ :: ts' ∧ Lexes (start + 3) rest ts' ∧
      s = "\uFEFF" ++ rest := by
  obtain ⟨kind, text, rest, ts', hl, hc, rfl, hts⟩ := h.head hs (by decide)
  have hm := List.mem_of_mem_head? hc
  rcases hl.spelled.cases with ⟨-, -, -, hw⟩ | ⟨-, -, hw⟩ | ⟨c, rfl, -, hk⟩
  · exact absurd (hw _ hm) (by decide)
  · exact absurd (hw _ hm) (by decide)
  · obtain rfl : '\uFEFF' = c := by simpa using hm
    rcases hk with ⟨hk, -⟩ | ⟨-, rfl⟩
    · exact absurd hk (by decide)
    · exact ⟨rest, ts', rfl, hts, by simpa using hl.source⟩

/-- The odd tokens of a source take the places of its issues. -/
theorem Lexes.range_issues (h : Lexes 0 s ts) (hsize : s.utf8ByteSize ≤ Buffer.maxLength) :
    (ts.filter Token.isOdd).map Token.range = (Issue.all s).map Issue.span := by
  rw [Issue.all_eq hsize, List.map_append, List.map_map]
  by_cases hs : s.toList.head? = some '\uFEFF'
  · -- the mark is the first token, and all others are behind it
    obtain ⟨rest, ts', rfl, hts, rfl⟩ := h.mark hs
    have hbehind : ∀ t ∈ ts', t.text = "\uFEFF" → t.offset ≠ 0 := by
      intro t ht _
      obtain ⟨_, _, _, ho, _⟩ := hts.place t ht
      omega
    have hmark : Text.positionsOf 0 "\uFEFF" = [] := by decide +kernel
    rw [if_pos hs, List.filter_cons_of_pos (by decide), List.map_cons, hts.range_isOdd hbehind,
      Text.positionsOf_append, hmark, List.nil_append, List.map_map]
    refine congrArg₂ List.cons rfl (List.map_congr_left fun i _ => ?_)
    have hsize : "\uFEFF".utf8ByteSize = 3 := by decide
    rw [Function.comp_apply, Function.comp_apply, Issue.span, hsize, Nat.zero_add, Nat.add_comm 3]
  · have hfront : ∀ t ∈ ts, t.text = "\uFEFF" → t.offset ≠ 0 := by
      intro t ht htext hzero
      obtain ⟨pre, suf, rfl, ho, -⟩ := h.place t ht
      have hpre : pre = "" := String.utf8ByteSize_eq_zero_iff.1 (by omega)
      rw [hpre, htext] at hs
      simp at hs
    rw [if_neg hs, h.range_isOdd hfront]
    simp [Function.comp_def, Issue.span]

/-! ## Issues and tokens -/

/-- The issues of a source, whatever search finds its zero bytes, are the mark it starts with and
each zero byte once, in order, and they take the places of just those tokens that are unknown and a
NUL, or a mark at position zero. Neither an issue nor a token takes a byte behind the source. -/
theorem Buffer.issues_tokens (s : String) (h : s.utf8ByteSize ≤ maxLength) :
    ∃ b ts, ∃ zeros : List Nat, ofText? s = .ok b ∧ b.tokens = .ok ts ∧
      (∀ find, Text.FindsFirst find → Issue.detect find s.toUTF8 = .ok b.issues) ∧
      b.issues = (if s.toList.head? = some '\uFEFF' then [⟨.byteOrderMark, 0, 3⟩] else [])
        ++ zeros.map (fun i => ⟨.nul, i, 1⟩) ∧
      zeros.Pairwise (· < ·) ∧ (∀ i, i ∈ zeros ↔ Text.byteAt? s i = some 0) ∧
      (ts.filter Token.isOdd).mapM Token.span = .ok (b.issues.map Issue.span) ∧
      (∀ i ∈ b.issues, i.pos + i.length ≤ s.utf8ByteSize) ∧
      ∀ t ∈ ts, t.offset + t.length ≤ s.utf8ByteSize := by
  obtain ⟨ts, hl⟩ := exists_lexes 0 s
  refine ⟨_, _, Text.positionsOf 0 s, ofText?_eq h, tokens_lexes hl h,
    fun _ hfind => Issue.detect_all hfind h, Issue.all_eq h, Text.positionsOf_pairwise 0 s,
    fun i => ?_, ?_, Issue.all_le h, fun t ht => ?_⟩
  · rw [Text.mem_positionsOf, Text.byteAt?_eq]
  · have hspan : ∀ t ∈ List.filter Token.isOdd (ts ++ [⟨.eof, "", s.utf8ByteSize⟩]),
        t.span = .ok t.range :=
      fun t ht => Token.span_stands h (hl.stands t (List.mem_filter.1 ht).1)
    have hend : List.filter Token.isOdd [⟨.eof, "", s.utf8ByteSize⟩] = [] := rfl
    rw [mapM_eq_ok hspan, List.filter_append, hend, List.append_nil, hl.range_issues h]
    rfl
  · obtain ⟨pre, suf, hs, ho⟩ := hl.stands t ht
    have hle := congrArg String.utf8ByteSize hs
    simp only [String.utf8ByteSize_append] at hle
    have hlen : t.length = t.text.utf8ByteSize := ofLength_eq (by omega)
    omega

/-- A mark in front and one inside, and zeros in a row up to the end. -/
theorem Buffer.issues_tokens_zeros : "\uFEFFa\uFEFF\x00\x00".utf8ByteSize ≤ maxLength ∧
    Issue.detect Text.firstOf "\uFEFFa\uFEFF\x00\x00".toUTF8 =
      .ok [⟨.byteOrderMark, 0, 3⟩, ⟨.nul, 7, 1⟩, ⟨.nul, 8, 1⟩] ∧
    (pad "\uFEFFa\uFEFF\x00\x00").issues =
      [⟨.byteOrderMark, 0, 3⟩, ⟨.nul, 7, 1⟩, ⟨.nul, 8, 1⟩] ∧
    ∃ ts, (pad "\uFEFFa\uFEFF\x00\x00").tokens = .ok ts ∧
      (ts.filter Token.isOdd).mapM Token.span = .ok [(0, 3), (7, 8), (8, 9)] := by
  have hs : "\uFEFFa\uFEFF\x00\x00".utf8ByteSize ≤ maxLength := by decide
  obtain ⟨b, ts, zeros, hb, hts, hdetect, -, -, -, hspans, -⟩ := issues_tokens _ hs
  rw [ofText?_eq hs] at hb
  cases hb
  have hissues : (pad "\uFEFFa\uFEFF\x00\x00").issues =
      [⟨.byteOrderMark, 0, 3⟩, ⟨.nul, 7, 1⟩, ⟨.nul, 8, 1⟩] := by decide +kernel
  have hfound := hdetect Text.firstOf Text.findsFirst_firstOf
  rw [hissues] at hfound hspans
  exact ⟨hs, hfound, hissues, ts, hts, hspans⟩

end ExprLexer
