-- How the characters of a string may be spelled. A string without faults stands for the characters
-- that are spelled between its quotes, and every spelling of them is read back as them.
import Lexis.Proofs.LineEnds
import Lexis.Proofs.TokenPlaces
import Mathlib.Data.List.Forall2
import Mathlib.Data.Nat.Digits.Defs

namespace Lexis

/-! ## Spellings -/

/-- The hexadecimal digits, each at the place of its value. -/
def hexDigits : Text := "0123456789abcdef".toList

/-- The digit has the value, in either letter case. -/
def HexDigitIs (d : Char) (v : Nat) : Prop := hexDigits[v]? = some d.toLower

/-- The digits spell the number to the base 16, the first digit counting most. -/
def HexSpells (digits : Text) (n : Nat) : Prop :=
  ∃ values : List Nat, List.Forall₂ HexDigitIs digits values ∧ Nat.ofDigits 16 values.reverse = n

/-- The letters that may follow a backslash, each with the character that it stands for. -/
def shortEscapes : List (Char × Char) :=
  [('n', '\n'), ('t', '\t'), ('r', '\r'), ('0', '\x00'), ('\\', '\\'), ('"', '"'), ('\'', '\'')]

/-- A text that spells a character in a string with this quote. -/
inductive Spells (quote : Char) : Char → Text → Prop
  | itself {c : Char} : c ≠ quote → c ≠ '\\' → c ≠ '\n' → Spells quote c [c]
  | short {letter c : Char} : (letter, c) ∈ shortEscapes → Spells quote c ['\\', letter]
  | byNumber {digits : Text} {c : Char} : 1 ≤ digits.length → digits.length ≤ 6 →
      HexSpells digits c.toNat → Spells quote c (numbered digits)

/-- The token is a string that spells characters between its quotes, and has them as its value. -/
structure Token.IsSpelled (t : Token) (quote : Char) (cs : Text) (rs : List Text) : Prop where
  is_string : t.kind = .stringLiteral
  is_quote : IsQuote quote
  spelled : List.Forall₂ (Spells quote) cs rs
  lexeme_eq : t.lexeme = quote :: (rs.flatten ++ [quote])
  value_eq : t.value = some (.string cs)

/-- No error in the token is about a string. -/
def ScanResult.ReadsString (s : ScanResult) (t : Token) : Prop :=
  ∀ e ∈ s.errorsIn t, e.kind ≠ .unterminatedString ∧ e.kind ≠ .invalidEscape

/-! ## Numbers to the base 16 -/

theorem hexDigitIs_iff_of_ascii {d : Char} (h : d.toNat < 128) (v : Nat) :
    HexDigitIs d v ↔ isHexDigit d = true ∧ hexDigitValue d = v := by
  have all_ascii : ∀ n < 128, ∀ v < 16, hexDigits[v]? = some (Char.ofNat n).toLower ↔
      isHexDigit (Char.ofNat n) = true ∧ hexDigitValue (Char.ofNat n) = v := by decide +kernel
  have all_small : ∀ n < 128, isHexDigit (Char.ofNat n) = true →
      hexDigitValue (Char.ofNat n) < 16 := by decide +kernel
  have hone := all_ascii d.toNat h
  have hsmall := all_small d.toNat h
  rw [Char.ofNat_toNat] at hone hsmall
  by_cases hv : v < 16
  · exact hone v hv
  · constructor
    · intro hd
      have := List.getElem?_eq_some_iff.mp hd
      exact absurd this.1 hv
    · rintro ⟨hd, rfl⟩
      exact absurd (hsmall hd) hv

theorem toLower_of_not_ascii {d : Char} (h : ¬ d.toNat < 128) : d.toLower = d := by
  unfold Char.toLower
  split
  · rename_i hupper
    have hz : d.toNat ≤ 90 := hupper.2
    omega
  · rfl

theorem ascii_of_mem_hexDigits {d : Char} (h : d ∈ hexDigits) : d.toNat < 128 := by
  have all_ascii : hexDigits.all (fun d => d.toNat < 128) = true := by decide
  exact of_decide_eq_true (List.all_eq_true.mp all_ascii d h)

theorem ascii_of_isHexDigit {d : Char} (h : isHexDigit d = true) : d.toNat < 128 := by
  simp only [isHexDigit, Bool.or_eq_true, Bool.and_eq_true, decide_eq_true_eq] at h
  rcases h with (h | ⟨-, h⟩) | ⟨-, h⟩
  · have := (Char.isDigit_iff_toNat.mp h).2
    exact Nat.lt_of_le_of_lt this (by decide)
  · exact Nat.lt_of_le_of_lt (Char.le_def.mp h) (by decide)
  · exact Nat.lt_of_le_of_lt (Char.le_def.mp h) (by decide)

theorem hexDigitIs_iff (d : Char) (v : Nat) :
    HexDigitIs d v ↔ isHexDigit d = true ∧ hexDigitValue d = v := by
  by_cases h : d.toNat < 128
  · exact hexDigitIs_iff_of_ascii h v
  · constructor
    · intro hd
      have hmem := List.mem_of_getElem? hd
      rw [toLower_of_not_ascii h] at hmem
      exact absurd (ascii_of_mem_hexDigits hmem) h
    · rintro ⟨hd, -⟩
      exact absurd (ascii_of_isHexDigit hd) h

theorem forall₂_hexDigitIs_iff {digits : Text} {values : List Nat} :
    List.Forall₂ HexDigitIs digits values ↔
      (∀ d ∈ digits, isHexDigit d) ∧ digits.map hexDigitValue = values := by
  induction digits generalizing values with
  | nil =>
    cases values with
    | nil => simp
    | cons v values => simp
  | cons d digits ih =>
    cases values with
    | nil => simp
    | cons v values =>
      rw [List.forall₂_cons, hexDigitIs_iff, ih]
      simp only [List.forall_mem_cons, List.map_cons, List.cons.injEq]
      exact and_and_and_comm

theorem hexValue_eq_ofDigits (digits : Text) :
    hexValue digits = Nat.ofDigits 16 (digits.map hexDigitValue).reverse := by
  rw [Nat.ofDigits_eq_foldr, List.foldr_reverse, List.foldl_map]
  simp only [hexValue, Nat.cast_id, Nat.add_comm]

theorem hexSpells_iff {digits : Text} {n : Nat} :
    HexSpells digits n ↔ (∀ d ∈ digits, isHexDigit d) ∧ hexValue digits = n := by
  unfold HexSpells
  simp only [forall₂_hexDigitIs_iff, hexValue_eq_ofDigits]
  constructor
  · rintro ⟨values, ⟨hdigits, rfl⟩, hn⟩
    exact ⟨hdigits, hn⟩
  · rintro ⟨hdigits, hn⟩
    exact ⟨_, ⟨hdigits, rfl⟩, hn⟩

theorem charOfNumber?_iff {n : Nat} {c : Char} : charOfNumber? n = some c ↔ n = c.toNat := by
  unfold charOfNumber?
  constructor
  · intro h
    split at h
    · rename_i hvalid
      rw [← Option.some.inj h, Char.ofNat, dif_pos hvalid]
      rfl
    · cases h
  · rintro rfl
    rw [if_pos (show c.toNat.isValidChar from c.valid), Char.ofNat_toNat]

/-- A character is named by the one to six hexadecimal digits that spell its number. -/
theorem charOfHex?_iff {digits : Text} {c : Char} : charOfHex? digits = some c ↔
    1 ≤ digits.length ∧ digits.length ≤ 6 ∧ HexSpells digits c.toNat := by
  unfold charOfHex?
  rw [hexSpells_iff]
  constructor
  · intro h
    split at h
    · cases h
    · rename_i hok
      simp only [not_or, Decidable.not_not, List.all_eq_true] at hok
      exact ⟨by omega, by omega, hok.2.2, charOfNumber?_iff.mp h⟩
  · rintro ⟨hpos, hsix, hdigits, hn⟩
    have hok : ¬ (digits.length = 0 ∨ 6 < digits.length ∨ ¬ digits.all isHexDigit) := by
      simp only [not_or, Decidable.not_not, List.all_eq_true]
      exact ⟨by omega, by omega, hdigits⟩
    rw [if_neg hok]
    exact charOfNumber?_iff.mpr hn

theorem shortEscape?_iff {letter c : Char} :
    shortEscape? letter = some c ↔ (letter, c) ∈ shortEscapes := by
  constructor
  · intro h
    unfold shortEscape? at h
    split at h <;> simp_all [shortEscapes, eq_comm]
  · intro h
    simp only [shortEscapes, List.mem_cons, Prod.mk.injEq, List.not_mem_nil, or_false] at h
    rcases h with ⟨rfl, rfl⟩ | ⟨rfl, rfl⟩ | ⟨rfl, rfl⟩ | ⟨rfl, rfl⟩ | ⟨rfl, rfl⟩ | ⟨rfl, rfl⟩ |
      ⟨rfl, rfl⟩ <;> rfl

/-! ## Spellings and segments -/

/-- A spelling is a segment that stands in front of any text. -/
theorem Spells.segment {quote c : Char} {r : Text} (h : Spells quote c r) :
    ∃ s : Segment, s.raw = r ∧ s.decoded = [c] ∧ (∀ raw, s ≠ .malformed raw) ∧
      ∀ rest, s.Stands quote rest := by
  cases h with
  | itself hq hb hn =>
    exact ⟨.plain c, rfl, rfl, fun raw h => (by cases h), fun rest => .plain hq hb hn⟩
  | @short letter _ hshort =>
    have hd := shortEscape?_iff.mpr hshort
    exact ⟨.escape ['\\', letter] c, rfl, rfl, fun raw h => (by cases h), fun rest => .short hd⟩
  | @byNumber digits _ hpos hsix hn =>
    have hc := charOfHex?_iff.mpr ⟨hpos, hsix, hn⟩
    exact ⟨.escape (numbered digits) c, rfl, rfl, fun raw h => (by cases h), fun rest => .named hc⟩

theorem Segment.Stands.spells {quote : Char} {s : Segment} {rest : Text} (h : s.Stands quote rest)
    (hbad : ∀ raw, s ≠ .malformed raw) (hback : s ≠ .backslash) :
    ∃ c, Spells quote c s.raw ∧ s.decoded = [c] := by
  cases h with
  | plain hq hb hn => exact ⟨_, .itself hq hb hn, rfl⟩
  | short hd => exact ⟨_, .short (shortEscape?_iff.mp hd), rfl⟩
  | named hc =>
    obtain ⟨hpos, hsix, hn⟩ := charOfHex?_iff.mp hc
    exact ⟨_, .byNumber hpos hsix hn, rfl⟩
  | unknown => exact absurd rfl (hbad _)
  | unbraced => exact absurd rfl (hbad _)
  | unclosed => exact absurd rfl (hbad _)
  | unnamed => exact absurd rfl (hbad _)
  | backslash => exact absurd rfl hback

theorem segments_of_spellings {quote : Char} {cs : Text} {rs : List Text}
    (h : List.Forall₂ (Spells quote) cs rs) (tail : Text) : ∃ ss : List Segment,
      ss.flatMap Segment.raw = rs.flatten ∧ ss.flatMap Segment.decoded = cs ∧
      (∀ s ∈ ss, ∀ raw, s ≠ .malformed raw) ∧ Segmented quote ss tail := by
  induction h with
  | nil => exact ⟨[], rfl, rfl, fun s hs => (by cases hs), .nil⟩
  | cons hc _ ih =>
    obtain ⟨s, hraw, hdecoded, hgood, hstands⟩ := hc.segment
    obtain ⟨ss, hraws, hdecodeds, hgoods, hsegmented⟩ := ih
    refine ⟨s :: ss, ?_, ?_, ?_, .cons (hstands _) hsegmented⟩
    · rw [List.flatMap_cons, List.flatten_cons, hraw, hraws]
    · rw [List.flatMap_cons, hdecoded, hdecodeds, List.singleton_append]
    · intro s' hs'
      rcases List.mem_cons.mp hs' with rfl | hs'
      · exact hgood
      · exact hgoods s' hs'

theorem spellings_of_segments {quote : Char} {ss : List Segment} {tail : Text}
    (h : Segmented quote ss tail) (hbad : ∀ s ∈ ss, ∀ raw, s ≠ .malformed raw)
    (hback : .backslash ∉ ss) : ∃ cs rs, List.Forall₂ (Spells quote) cs rs ∧
      ss.flatMap Segment.raw = rs.flatten ∧ ss.flatMap Segment.decoded = cs := by
  induction h with
  | nil => exact ⟨[], [], .nil, rfl, rfl⟩
  | @cons s ss _ hs _ ih =>
    obtain ⟨hback', hbacks⟩ := not_or.mp (List.mem_cons.not.mp hback)
    obtain ⟨c, hc, hdecoded⟩ := hs.spells (hbad s List.mem_cons_self) (Ne.symm hback')
    obtain ⟨cs, rs, hspelled, hraws, hdecodeds⟩ :=
      ih (fun s' hs' => hbad s' (List.mem_cons_of_mem _ hs')) hbacks
    refine ⟨c :: cs, s.raw :: rs, .cons hc hspelled, ?_, ?_⟩
    · rw [List.flatMap_cons, List.flatten_cons, hraws]
    · rw [List.flatMap_cons, hdecoded, hdecodeds, List.singleton_append]

/-- A lone backslash comes last, where the line ends. -/
theorem Segmented.after_backslash {quote : Char} {front back : List Segment} {tail : Text}
    (h : Segmented quote (front ++ .backslash :: back) tail) :
    back = [] ∧ Stops (· ≠ '\n') tail := by
  induction front with
  | nil =>
    cases h with
    | cons hs hback =>
      cases hs with
      | backslash hstop =>
        cases back with
        | nil => exact ⟨rfl, hstop⟩
        | cons s back =>
          obtain ⟨c, r, hcr⟩ :=
            List.exists_cons_of_ne_nil (hback.raw_ne_nil s List.mem_cons_self)
          rw [List.flatMap_cons, hcr, List.cons_append, List.cons_append, stops_cons_iff] at hstop
          have hc : c = '\n' := by simpa using hstop
          refine absurd ?_ hback.no_line_feed
          rw [List.flatMap_cons, hcr, hc]
          exact List.mem_cons_self
  | cons s front ih =>
    cases h with
    | cons _ hrest => exact ih hrest

/-- So none stands in front of a quote. -/
theorem Segmented.no_backslash {quote : Char} {ss : List Segment} {tail : Text}
    (h : Segmented quote ss tail) (htail : ∃ c ∈ tail.head?, c ≠ '\n') : .backslash ∉ ss := by
  intro hmem
  obtain ⟨front, back, rfl⟩ := List.append_of_mem hmem
  obtain ⟨c, hc, hn⟩ := htail
  exact hn (by simpa using h.after_backslash.2 c hc)

/-! ## Strings that are read without faults -/

theorem faults_stringLexeme_eq_nil {quote : Char} {b : QuotedBody} (hclosed : b.closed = true)
    (hbad : ∀ s ∈ b.segments, ∀ raw, s ≠ .malformed raw) : (stringLexeme quote b).faults = [] := by
  rw [List.eq_nil_iff_forall_not_mem]
  intro f hf
  rcases mem_faults_stringLexeme.mp hf with ⟨hopen, -⟩ | ⟨front, raw, back, hss, -⟩
  · rw [hclosed] at hopen
    cases hopen
  · exact hbad (.malformed raw) (by rw [hss]; simp) raw rfl

theorem IsQuote.ne_point {quote : Char} (hquote : IsQuote quote) : quote ≠ '.' := by
  rcases hquote with rfl | rfl <;> decide

/-- The errors in a string token are the faults of its lexeme. -/
theorem errorsIn_string {source : Text} {front back : List Piece} {quote : Char} {b : QuotedBody}
    (h : pieces source = front ++ .lexeme (stringLexeme quote b) :: back)
    (hquote : IsQuote quote) (origin : Position) :
    (scanFrom origin source).errorsIn
        ((stringLexeme quote b).placed (origin.advancedOver (textOf front))) =
      (stringLexeme quote b).faults.map (Fault.placed (origin.advancedOver (textOf front))) := by
  apply errorsIn_placed h
  · exact fun hk => (by cases hk)
  · exact fun hp => hquote.ne_point (Option.some.inj hp)

/-- The lexeme of a string that spells characters between its quotes. -/
def spelledString (quote : Char) (cs : Text) (rs : List Text) : Lexeme :=
  ⟨.stringLiteral, quote :: (rs.flatten ++ [quote]), some (.string cs), []⟩

theorem stands_spelledString {quote : Char} {cs : Text} {rs : List Text} (hquote : IsQuote quote)
    (h : List.Forall₂ (Spells quote) cs rs) (rest : Text) :
    (spelledString quote cs rs).Stands rest := by
  obtain ⟨ss, hraw, hdecoded, hbad, hsegmented⟩ := segments_of_spellings h (quote :: rest)
  have hstands : (stringLexeme quote ⟨ss, true, rest⟩).Stands rest :=
    .string (b := ⟨ss, true, rest⟩) hquote ⟨hsegmented, fun hopen => by cases hopen⟩
  have hlexeme : stringLexeme quote ⟨ss, true, rest⟩ =
      ⟨.stringLiteral, quote :: (ss.flatMap Segment.raw ++ [quote]),
        some (.string (ss.flatMap Segment.decoded)), []⟩ :=
    congrArg (Lexeme.mk _ _ _) (faults_stringLexeme_eq_nil rfl hbad)
  rwa [hlexeme, hraw, hdecoded] at hstands

/-- What is spelled between quotes at the front of a text is its first piece. -/
theorem pieces_spelled {quote : Char} {cs : Text} {rs : List Text} (hquote : IsQuote quote)
    (h : List.Forall₂ (Spells quote) cs rs) (rest : Text) :
    pieces (quote :: (rs.flatten ++ quote :: rest)) =
      .lexeme (spelledString quote cs rs) :: pieces rest := by
  have hstands := stands_spelledString hquote h rest
  rw [pieces, readPiece_of_stands (.lexeme hstands) (by simp [Piece.text, spelledString])]

/-- So it is read as the first token. -/
theorem spelling_is_read {quote : Char} {cs : Text} {rs : List Text} (hquote : IsQuote quote)
    (h : List.Forall₂ (Spells quote) cs rs) (rest : Text) :
    let s := tokenize (quote :: (rs.flatten ++ quote :: rest))
    ∃ t, s.tokens.head? = some t ∧ t.IsSpelled quote cs rs ∧ s.ReadsString t := by
  intro s
  have hps : pieces (quote :: (rs.flatten ++ quote :: rest)) =
      [] ++ .lexeme (spelledString quote cs rs) :: pieces rest := pieces_spelled hquote h rest
  refine ⟨(spelledString quote cs rs).placed .start, ?_, ⟨rfl, hquote, h, rfl, rfl⟩, ?_⟩
  · rw [show s = _ from scanFrom_at_lexeme hps .start]
    rfl
  · have hnone : s.errorsIn ((spelledString quote cs rs).placed .start) = [] :=
      errorsIn_placed hps (fun hk => by cases hk)
        (fun hp => hquote.ne_point (Option.some.inj hp)) .start
    intro e he
    rw [hnone] at he
    cases he

/-- A string that is read without an error about strings is one that was spelled. -/
theorem read_string_is_spelled {origin : Position} {source : Text} {t : Token}
    (ht : t ∈ (scanFrom origin source).tokens) (hk : t.kind = .stringLiteral)
    (hread : (scanFrom origin source).ReadsString t) :
    ∃ quote cs rs, t.IsSpelled quote cs rs := by
  obtain ⟨front, l, back, hps, rfl⟩ := lexeme_of_mem_tokens ht (by simp [hk])
  obtain ⟨quote, b, rfl, hquote, -, hb⟩ := (lexeme_stands_of_pieces hps).of_string hk
  have hno : ∀ f ∈ (stringLexeme quote b).faults,
      f.kind ≠ .unterminatedString ∧ f.kind ≠ .invalidEscape := by
    intro f hf
    apply hread (f.placed (origin.advancedOver (textOf front)))
    rw [errorsIn_string hps hquote]
    exact List.mem_map_of_mem hf
  have hclosed : b.closed = true := by
    by_contra hopen
    have hfault : _ ∈ (stringLexeme quote b).faults :=
      mem_faults_stringLexeme.mpr (.inl ⟨Bool.eq_false_iff.mpr hopen, rfl⟩)
    exact (hno _ hfault).1 rfl
  have hbad : ∀ s ∈ b.segments, ∀ raw, s ≠ .malformed raw := by
    rintro s hs raw rfl
    obtain ⟨before, after, hss⟩ := List.append_of_mem hs
    have hfault : _ ∈ (stringLexeme quote b).faults :=
      mem_faults_stringLexeme.mpr (.inr ⟨before, raw, after, hss, rfl⟩)
    exact (hno _ hfault).2 rfl
  have hback : .backslash ∉ b.segments := by
    apply hb.segmented.no_backslash
    refine ⟨quote, by simp [QuotedBody.tail, hclosed], ?_⟩
    rcases hquote with rfl | rfl <;> decide
  obtain ⟨cs, rs, hspelled, hraw, hdecoded⟩ := spellings_of_segments hb.segmented hbad hback
  refine ⟨quote, cs, rs, rfl, hquote, hspelled, ?_, ?_⟩
  · simp [Lexeme.placed, stringLexeme, QuotedBody.text, hclosed, hraw]
  · simp [Lexeme.placed, stringLexeme, QuotedBody.value, hdecoded]

/-- A string without faults stands for what is spelled between its quotes: each way to spell
characters is read as them, and nothing else is read without a fault. -/
theorem strings_stand_for_what_they_spell :
    (∀ (quote : Char) (cs : Text) (rs : List Text) (rest : Text), IsQuote quote →
      List.Forall₂ (Spells quote) cs rs →
      let s := tokenize (quote :: (rs.flatten ++ quote :: rest))
      ∃ t, s.tokens.head? = some t ∧ t.IsSpelled quote cs rs ∧ s.ReadsString t) ∧
    ∀ (origin : Position) (source : Text), ∀ t ∈ (scanFrom origin source).tokens,
      t.kind = .stringLiteral → (scanFrom origin source).ReadsString t →
      ∃ quote cs rs, t.IsSpelled quote cs rs :=
  ⟨fun _ _ _ rest hquote hspelled => spelling_is_read hquote hspelled rest,
    fun _ _ _ ht hk hread => read_string_is_spelled ht hk hread⟩

theorem four_spellings_are_read_and_one_string_is_spelled :
    let cs : Text := ['A', 'b', '\"', 'é']
    let rs : List Text := ["\\u\x7b041\x7d".toList, ['b'], ['\\', '"'], ['é']]
    let t : Token := ⟨.stringLiteral, "'\\t9'".toList, ⟨4, 3, 12⟩, ⟨4, 8, 17⟩,
      some (.string ['\t', '9'])⟩
    List.Forall₂ (Spells '"') cs rs ∧
      (∃ t, (tokenize ('"' :: (rs.flatten ++ '"' :: "1".toList))).tokens.head? = some t ∧
        t.IsSpelled '"' cs rs ∧ (tokenize ('"' :: (rs.flatten ++ '"' :: "1".toList))).ReadsString t) ∧
      t ∈ (scanFrom ⟨4, 1, 10⟩ "= '\\t9' 1.".toList).tokens ∧
      (scanFrom ⟨4, 1, 10⟩ "= '\\t9' 1.".toList).ReadsString t ∧
      ∃ quote cs rs, t.IsSpelled quote cs rs := by
  intro cs rs t
  have hnumber : HexSpells ['0', '4', '1'] 'A'.toNat :=
    ⟨[0, 4, 1], .cons rfl (.cons rfl (.cons rfl .nil)), rfl⟩
  have hspelled : List.Forall₂ (Spells '"') cs rs :=
    .cons (.byNumber (by decide) (by decide) hnumber)
      (.cons (.itself (by decide) (by decide) (by decide))
        (.cons (.short (by decide))
          (.cons (.itself (by decide) (by decide) (by decide)) .nil)))
  have ht : t ∈ (scanFrom ⟨4, 1, 10⟩ "= '\\t9' 1.".toList).tokens := by decide +kernel
  have hread : (scanFrom ⟨4, 1, 10⟩ "= '\\t9' 1.".toList).ReadsString t := by
    unfold ScanResult.ReadsString
    decide +kernel
  exact ⟨hspelled, strings_stand_for_what_they_spell.1 '"' cs rs ['1'] (.inl rfl) hspelled, ht,
    hread, strings_stand_for_what_they_spell.2 _ _ t ht rfl hread⟩

end Lexis
