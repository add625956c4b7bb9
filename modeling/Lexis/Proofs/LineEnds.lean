-- Lexemes at the ends of lines. Only a block comment holds a line feed, and
-- no other lexeme looks past the line feed that follows it. So text after a
-- whole line changes nothing in the line, and what stands anywhere stands at
-- the end of a line too.
import Lexis.Proofs.PieceGrammar
import Mathlib.Data.List.Infix

namespace Lexis

/-! ## Lexemes that hold a line feed -/

theorem Segment.Stands.no_line_feed {quote : Char} {s : Segment} {rest : Text}
    (h : s.Stands quote rest) : '\n' ∉ s.raw := by
  have no_hex : ∀ {digits : Text}, (∀ d ∈ digits, isHexDigit d) → '\n' ∉ digits := by
    intro digits hdigits hmem
    exact absurd (hdigits _ hmem) (by decide)
  cases h with
  | plain _ _ hn => simpa [Segment.raw] using hn.symm
  | short hd => simpa [Segment.raw] using (shortEscape?_ne hd).1.symm
  | named hc => simpa [Segment.raw, numbered] using no_hex (isHexDigit_of_charOfHex? hc)
  | unknown hn => simpa [Segment.raw] using hn.symm
  | unbraced => simp [Segment.raw]
  | unclosed hdigits => simpa [Segment.raw] using no_hex hdigits
  | unnamed hdigits => simpa [Segment.raw, numbered] using no_hex hdigits
  | backslash => simp [Segment.raw]

theorem Segmented.no_line_feed {quote : Char} {ss : List Segment} {tail : Text}
    (h : Segmented quote ss tail) : '\n' ∉ ss.flatMap Segment.raw := by
  intro hmem
  obtain ⟨s, hs, hn⟩ := List.mem_flatMap.mp hmem
  obtain ⟨rest, hstands⟩ := h.stands_of_mem hs
  exact hstands.no_line_feed hn

theorem no_line_feed_in_string {quote : Char} {b : QuotedBody} (hquote : IsQuote quote)
    (hb : b.WellFormed quote) : '\n' ∉ (stringLexeme quote b).text := by
  have hn : '\n' ≠ quote := by rcases hquote with rfl | rfl <;> decide
  intro hmem
  simp only [stringLexeme, QuotedBody.text, List.mem_cons, List.mem_append] at hmem
  rcases hmem with hmem | hmem | hmem
  · exact hn hmem
  · exact hb.segmented.no_line_feed hmem
  · cases hclosed : b.closed with
    | false => simp [hclosed] at hmem
    | true => simp [hclosed, hn] at hmem

theorem Operator.no_line_feed (o : Operator) : '\n' ∉ o.spelling := by cases o <;> decide

/-- A lexeme that holds a line feed is a block comment, or a comment that the text runs out in. -/
theorem Lexeme.Stands.block_of_line_feed {l : Lexeme} {rest : Text} (h : l.Stands rest)
    (hmem : '\n' ∈ l.text) :
    (∃ t, IsBlockComment t ∧ l = .plain .comment t) ∨ ∃ t, l = Lexis.openComment t := by
  have no_digit : ∀ {digits : Text}, (∀ d ∈ digits, d.isDigit) → '\n' ∉ digits := by
    intro digits hdigits hmem
    exact absurd (hdigits _ hmem) (by decide)
  cases h with
  | @word c w _ hc hw =>
    rcases List.mem_cons.mp hmem with rfl | hmem
    · exact absurd hc (by decide)
    · exact absurd (hw _ hmem) (by decide)
  | integer _ hdigits => exact absurd hmem (no_digit hdigits)
  | float _ _ hwhole hfraction =>
    simp only [floatLexeme, List.mem_append, List.mem_cons] at hmem
    rcases hmem with hmem | hmem | hmem
    · exact absurd hmem (no_digit hwhole)
    · cases hmem
    · exact absurd hmem (no_digit hfraction)
  | string hquote hb => exact absurd hmem (no_line_feed_in_string hquote hb)
  | lineComment ht =>
    simp only [Lexeme.plain, List.mem_cons] at hmem
    rcases hmem with hmem | hmem | hmem
    · cases hmem
    · cases hmem
    · exact absurd rfl (ht _ hmem)
  | blockComment hblock => exact .inl ⟨_, hblock, rfl⟩
  | openComment => exact .inr ⟨_, rfl⟩
  | @operator o => exact absurd hmem o.no_line_feed
  | @punctuation p =>
    have hblank := p.char_class.2.2.2.1
    rw [← List.mem_singleton.mp hmem] at hblank
    cases hblank

/-- So it does not depend on what follows it. -/
theorem Lexeme.Stands.of_line_feed {l : Lexeme} {rest : Text} (h : l.Stands rest)
    (hmem : '\n' ∈ l.text) : (∀ rest', l.Stands rest') ∨ ∃ t, l = Lexis.openComment t := by
  rcases h.block_of_line_feed hmem with ⟨t, hblock, rfl⟩ | hopen
  · exact .inl fun rest' => .blockComment hblock
  · exact .inr hopen

theorem Lexeme.Stands.no_line_feed {l : Lexeme} {rest : Text} (h : l.Stands rest)
    (hk : l.kind ≠ .comment) : '\n' ∉ l.text := by
  intro hmem
  rcases h.block_of_line_feed hmem with ⟨t, -, rfl⟩ | ⟨t, rfl⟩
  · exact hk rfl
  · exact hk rfl

/-! ## More text after a line -/

/-- Only the next character decides whether a run stops. -/
theorem Stops.of_head_eq {p : Char → Bool} {rest rest' : Text} (h : Stops p rest)
    (hhead : rest'.head? = rest.head?) : Stops p rest' := by
  unfold Stops
  rw [hhead]
  exact h

theorem Stops.append {p : Char → Bool} {rest : Text} (h : Stops p rest) (hne : rest ≠ [])
    (more : Text) : Stops p (rest ++ more) :=
  h.of_head_eq (List.head?_append_of_ne_nil _ hne)

/-- Only the next character decides whether a segment stands. -/
theorem Segment.Stands.of_head_eq {quote : Char} {s : Segment} {rest rest' : Text}
    (h : s.Stands quote rest) (hhead : rest'.head? = rest.head?) : s.Stands quote rest' := by
  cases h with
  | plain hq hb hn => exact .plain hq hb hn
  | short hd => exact .short hd
  | named hc => exact .named hc
  | unknown hn hu hd => exact .unknown hn hu hd
  | unbraced hbrace => exact .unbraced (by rwa [hhead])
  | unclosed hdigits hstop hbrace =>
    exact .unclosed hdigits (hstop.of_head_eq hhead) (by rwa [hhead])
  | unnamed hdigits hc => exact .unnamed hdigits hc
  | backslash hstop => exact .backslash (hstop.of_head_eq hhead)

/-- Another text may follow the segments if each segment that stands in front of the old one
stands in front of the new one. -/
theorem Segmented.of_tail {quote : Char} {ss : List Segment} {tail tail' : Text}
    (h : Segmented quote ss tail)
    (hlast : ∀ s : Segment, s.Stands quote tail → s.Stands quote tail') :
    Segmented quote ss tail' := by
  induction h with
  | nil => exact .nil
  | @cons s ss _ hs _ ih =>
    refine .cons ?_ (ih hlast)
    by_cases hraw : ss.flatMap Segment.raw = []
    · rw [hraw] at hs ⊢
      exact hlast s hs
    · apply hs.of_head_eq
      rw [List.head?_append_of_ne_nil _ hraw, List.head?_append_of_ne_nil _ hraw]

/-- Only the next character matters to the body of a string, and only if it has no closing quote. -/
theorem QuotedBody.WellFormed.of_rest {quote : Char} {b : QuotedBody} (h : b.WellFormed quote)
    {rest' : Text} (hhead : b.closed = false → rest'.head? = b.rest.head?) :
    QuotedBody.WellFormed quote { b with rest := rest' } where
  segmented := by
    apply h.segmented.of_tail
    intro s hs
    apply hs.of_head_eq
    cases hclosed : b.closed with
    | true => simp [QuotedBody.tail, hclosed]
    | false => simpa [QuotedBody.tail, hclosed] using hhead hclosed
  cut_off hclosed := (h.cut_off hclosed).of_head_eq (hhead hclosed)

/-- The second text looks like the first to what stands in front of it: no run goes on further, a
point follows both or neither, and nothing of two characters reaches further into the second. -/
structure LooksLike (rest rest' : Text) : Prop where
  word : Stops isWordPart rest → Stops isWordPart rest'
  digit : Stops Char.isDigit rest → Stops Char.isDigit rest'
  point : rest'.head? = some '.' ↔ rest.head? = some '.'
  after_point : ∀ more', rest' = '.' :: more' → ∃ more, rest = '.' :: more ∧
    (Stops Char.isDigit more → Stops Char.isDigit more')
  reach : ∀ front short : Text, front ≠ [] → short.length ≤ 2 → short.any isBlank = false →
    short <+: front ++ rest' → short <+: front ++ rest

theorem Operator.spelling_length_le (o : Operator) : o.spelling.length ≤ 2 := by
  cases o <;> decide

theorem Operator.no_blank (o : Operator) : o.spelling.any isBlank = false := by
  cases o <;> decide

theorem LooksLike.operator {rest rest' : Text} (h : LooksLike rest rest') {front : Text}
    (hfront : front ≠ []) (o : Operator) (ho : o.spelling <+: front ++ rest') :
    o.spelling <+: front ++ rest :=
  h.reach front o.spelling hfront o.spelling_length_le o.no_blank ho

/-- A lexeme other than a comment stands in front of any text that looks like the text after it. To
a string that the line cuts off the next character has to be the same. -/
theorem Lexeme.Stands.of_looksLike {l : Lexeme} {rest rest' : Text} (h : l.Stands rest)
    (hk : l.kind ≠ .comment) (hlook : LooksLike rest rest')
    (hhead : (∃ f ∈ l.faults, f.kind = .unterminatedString) → Stops (· ≠ '\n') rest →
      rest'.head? = rest.head?) : l.Stands rest' := by
  cases h with
  | word hc hw hstop => exact .word hc hw (hlook.word hstop)
  | @integer digits _ hne hdigits hstop hpoint =>
    have hsame : integerLexeme digits rest = integerLexeme digits rest' := by
      simp only [integerLexeme, pointFaults, hlook.point]
    rw [hsame]
    refine .integer hne hdigits (hlook.digit hstop) ?_
    intro more' hmore'
    obtain ⟨more, hmore, hstops⟩ := hlook.after_point more' hmore'
    exact hstops (hpoint more hmore)
  | float hne hne' hwhole hfraction hstop =>
    exact .float hne hne' hwhole hfraction (hlook.digit hstop)
  | @string quote b hquote hb =>
    refine .string hquote (hb.of_rest fun hclosed => hhead ?_ (hb.cut_off hclosed))
    exact ⟨⟨.unterminatedString, [], quote :: b.text quote⟩, by simp [stringLexeme, hclosed], rfl⟩
  | lineComment => exact absurd rfl hk
  | blockComment => exact absurd rfl hk
  | openComment => exact absurd rfl hk
  | @operator o _ hlongest hno =>
    have hne := o.spelling_ne_nil
    refine .operator (fun o' ho' => hlongest o' (hlook.operator hne o' ho')) ⟨?_, ?_⟩
    · exact fun hp => hno.1 (hlook.reach _ _ hne (by decide) (by decide) hp)
    · exact fun hp => hno.2 (hlook.reach _ _ hne (by decide) (by decide) hp)
  | punctuation => exact .punctuation

/-- A stray character stands in front of any such text too. -/
theorem Piece.Stands.of_looksLike {x : Piece} {rest rest' : Text} (h : x.Stands rest)
    (hk : ∀ l, x = .lexeme l → l.kind ≠ .comment) (hlook : LooksLike rest rest')
    (hhead : ∀ l, x = .lexeme l → (∃ f ∈ l.faults, f.kind = .unterminatedString) →
      Stops (· ≠ '\n') rest → rest'.head? = rest.head?) : x.Stands rest' := by
  cases h with
  | blank hb => exact .blank hb
  | stray hb hd hw hquote hp ho =>
    refine .stray hb hd hw hquote hp fun o ho' => ho o ?_
    exact hlook.operator (List.cons_ne_nil _ []) o ho'
  | lexeme hl => exact .lexeme (hl.of_looksLike (hk _ rfl) hlook (hhead _ rfl))

/-- A text with more behind it looks like the text, unless it is empty or just a point. -/
theorem looksLike_append {rest : Text} (hne : rest ≠ []) (hdot : rest ≠ ['.']) (more : Text) :
    LooksLike rest (rest ++ more) where
  word hstop := hstop.append hne more
  digit hstop := hstop.append hne more
  point := by rw [List.head?_append_of_ne_nil rest hne]
  after_point := by
    intro more' hmore'
    obtain ⟨c, r, rfl⟩ := List.exists_cons_of_ne_nil hne
    obtain ⟨rfl, rfl⟩ := List.cons.inj hmore'
    refine ⟨r, rfl, fun hstop => hstop.append ?_ more⟩
    rintro rfl
    exact hdot rfl
  reach := by
    intro front short hfront hlen _ hp
    have := List.length_pos_iff.mpr hfront
    have := List.length_pos_iff.mpr hne
    rw [← List.append_assoc, List.isPrefix_append_of_length] at hp
    · exact hp
    · rw [List.length_append]
      omega

/-- More text after a text that is not just a point changes no lexeme in front of it. -/
theorem Lexeme.Stands.append {l : Lexeme} {rest : Text} (h : l.Stands rest) (hne : rest ≠ [])
    (hdot : rest ≠ ['.']) (more : Text) : l.Stands (rest ++ more) := by
  by_cases hk : l.kind = .comment
  · cases h with
    | word => exact absurd hk (wordKind_ne (by simp) (by simp))
    | lineComment ht hstop => exact .lineComment ht (hstop.append hne more)
    | blockComment hblock => exact .blockComment hblock
    | openComment => exact absurd rfl hne
    | _ => cases hk
  · exact h.of_looksLike hk (looksLike_append hne hdot more) fun _ _ =>
      List.head?_append_of_ne_nil rest hne

/-! ## At the end of a line -/

theorem eq_nil_or_line_feed {rest : Text} (h : Stops (· ≠ '\n') rest) :
    rest = [] ∨ ∃ r, rest = '\n' :: r := by
  cases rest with
  | nil => exact .inl rfl
  | cons c r =>
    have hc : c = '\n' := by simpa using stops_cons_iff.mp h
    exact .inr ⟨r, by rw [hc]⟩

/-- A run of a class without the line feed stops at the end of a line. -/
theorem Stops.of_line_end {p : Char → Bool} {rest : Text} (hend : Stops (· ≠ '\n') rest)
    (hp : p '\n' = false) : Stops p rest := by
  rcases eq_nil_or_line_feed hend with rfl | ⟨r, rfl⟩
  · exact stops_nil p
  · exact stops_cons_iff.mpr hp

theorem head_ne_of_line_end {rest : Text} {c : Char} (hend : Stops (· ≠ '\n') rest)
    (hc : c ≠ '\n') : rest.head? ≠ some c := by
  rcases eq_nil_or_line_feed hend with rfl | ⟨r, rfl⟩
  · simp
  · simpa using hc.symm

/-- A text without a line feed that reaches past the end of a line does not begin there. -/
theorem prefix_of_line_end {short t rest : Text} (hend : Stops (· ≠ '\n') rest)
    (hshort : '\n' ∉ short) (h : short <+: t ++ rest) : short <+: t := by
  rcases List.prefix_or_prefix_of_prefix h (List.prefix_append t rest) with hle | ⟨more, rfl⟩
  · exact hle
  · rw [List.prefix_append_right_inj] at h
    have hmore : more = [] := by
      cases more with
      | nil => rfl
      | cons c more =>
        obtain ⟨after, rfl⟩ := h
        have hc : c = '\n' := by simpa using stops_cons_iff.mp hend
        exact absurd (by simp [hc]) hshort
    exact ⟨[], by rw [hmore, List.append_nil, List.append_nil]⟩

/-- A segment that stands anywhere stands at the end of a line. -/
theorem Segment.Stands.at_line_end {quote : Char} {s : Segment} {rest rest' : Text}
    (h : s.Stands quote rest) (hend : Stops (· ≠ '\n') rest') : s.Stands quote rest' := by
  cases h with
  | plain hq hb hn => exact .plain hq hb hn
  | short hd => exact .short hd
  | named hc => exact .named hc
  | unknown hn hu hd => exact .unknown hn hu hd
  | unbraced => exact .unbraced (head_ne_of_line_end hend (by decide))
  | unclosed hdigits =>
    exact .unclosed hdigits (hend.of_line_end (by decide)) (head_ne_of_line_end hend (by decide))
  | unnamed hdigits hc => exact .unnamed hdigits hc
  | backslash => exact .backslash hend

/-- The body of a string stays what it is when its line ends after it. -/
theorem QuotedBody.WellFormed.at_line_end {quote : Char} {b : QuotedBody}
    (h : b.WellFormed quote) {rest' : Text} (hend : Stops (· ≠ '\n') rest') :
    QuotedBody.WellFormed quote { b with rest := rest' } where
  segmented := by
    apply h.segmented.of_tail
    intro s hs
    cases hclosed : b.closed with
    | true =>
      apply hs.of_head_eq
      simp [QuotedBody.tail, hclosed]
    | false =>
      apply hs.at_line_end
      simpa [QuotedBody.tail, hclosed] using hend
  cut_off _ := hend

/-- What stands anywhere stands at the end of a line, with the same kind, text and value. A
comment that the text runs out in needs the text to end there as well. -/
theorem Lexeme.Stands.at_line_end {l : Lexeme} {rest rest' : Text} (h : l.Stands rest)
    (hend : Stops (· ≠ '\n') rest') (hopen : ∀ t, l = Lexis.openComment t → rest' = []) :
    ∃ l' : Lexeme, l'.Stands rest' ∧ l'.kind = l.kind ∧ l'.text = l.text ∧ l'.value = l.value := by
  cases h with
  | word hc hw => exact ⟨_, .word hc hw (hend.of_line_end (by decide)), rfl, rfl, rfl⟩
  | @integer digits _ hne hdigits =>
    have hstop : Stops Char.isDigit rest' := hend.of_line_end (by decide)
    refine ⟨integerLexeme digits rest', .integer hne hdigits hstop ?_, rfl, rfl, rfl⟩
    rintro more rfl
    exact absurd rfl (head_ne_of_line_end hend (c := '.') (by decide))
  | float hne hne' hwhole hfraction =>
    exact ⟨_, .float hne hne' hwhole hfraction (hend.of_line_end (by decide)), rfl, rfl, rfl⟩
  | @string quote b hquote hb =>
    exact ⟨_, .string hquote (hb.at_line_end hend), rfl, rfl, rfl⟩
  | lineComment ht => exact ⟨_, .lineComment ht hend, rfl, rfl, rfl⟩
  | blockComment hblock => exact ⟨_, .blockComment hblock, rfl, rfl, rfl⟩
  | openComment hblock =>
    rw [hopen _ rfl]
    exact ⟨_, .openComment hblock, rfl, rfl, rfl⟩
  | @operator o _ hlongest hno =>
    refine ⟨_, .operator ?_ ⟨?_, ?_⟩, rfl, rfl, rfl⟩
    · intro o' ho'
      exact (prefix_of_line_end hend o'.no_line_feed ho').length_le
    · intro hslashes
      have hin := prefix_of_line_end hend (by decide) hslashes
      exact hno.1 (hin.trans (List.prefix_append _ _))
    · intro hstar
      have hin := prefix_of_line_end hend (by decide) hstar
      exact hno.2 (hin.trans (List.prefix_append _ _))
  | punctuation => exact ⟨_, .punctuation, rfl, rfl, rfl⟩

end Lexis
