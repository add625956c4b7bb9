-- The law of recovery in strings. Whatever stands after an opening quote is cut in one way into
-- segments; the value keeps all of it, and what is malformed is reported where it stands.
import Lexis.Proofs.StringSpellings

namespace Lexis

/-! ## The segments of a string -/

/-- A text that is a malformed escape, given the text after it. -/
inductive MalformedEscape : Text → Text → Prop
  | letter {c : Char} {rest : Text} : c ≠ '\n' → c ≠ 'u' → (∀ d, (c, d) ∉ shortEscapes) →
      MalformedEscape ['\\', c] rest
  | unbraced {rest : Text} : rest.head? ≠ some '{' → MalformedEscape ['\\', 'u'] rest
  | unclosed {digits rest : Text} : (∀ d ∈ digits, isHexDigit d) → Stops isHexDigit rest →
      rest.head? ≠ some '}' → MalformedEscape ('\\' :: 'u' :: '{' :: digits) rest
  | unnamed {digits rest : Text} : (∀ d ∈ digits, isHexDigit d) →
      (∀ c : Char, 1 ≤ digits.length → digits.length ≤ 6 → ¬ HexSpells digits c.toNat) →
      MalformedEscape (numbered digits) rest

/-- A segment that may come next in a string with this quote, given the text after it. -/
inductive Segment.Next (quote : Char) : Segment → Text → Prop
  | plain {c : Char} {rest : Text} : c ≠ quote → c ≠ '\\' → c ≠ '\n' → Next quote (.plain c) rest
  | escape {letters rest : Text} {c : Char} : Spells quote c ('\\' :: letters) →
      Next quote (.escape ('\\' :: letters) c) rest
  | malformed {raw rest : Text} : MalformedEscape raw rest → Next quote (.malformed raw) rest
  | backslash {rest : Text} : Stops (· ≠ '\n') rest → Next quote .backslash rest

/-- The lexeme of a token is cut into an opening quote, segments, and the closing quote if there is
one. Each segment is judged in front of the text that follows it in the source. -/
structure Token.CutInto (t : Token) (rest : Text) (quote : Char) (b : QuotedBody) : Prop where
  is_quote : IsQuote quote
  lexeme_eq : t.lexeme = quote :: b.text quote
  rest_eq : b.rest = rest
  segments : ∀ front s back, b.segments = front ++ s :: back →
    s.Next quote (back.flatMap Segment.raw ++ b.tail quote)

/-- The error of a segment at a position, if it is malformed. -/
def Segment.errors (p : Position) : Segment → List LexicalError
  | malformed raw => [⟨.invalidEscape, p, raw⟩]
  | _ => []

/-- The errors of segments that start at a position. -/
def segmentErrors (p : Position) : List Segment → List LexicalError
  | [] => []
  | s :: ss => s.errors p ++ segmentErrors (p.advancedOver s.raw) ss

/-- A string token of a scan, given the text after it, keeps all that it is cut into. -/
structure Token.Recovered (t : Token) (s : ScanResult) (rest : Text) (quote : Char)
    (b : QuotedBody) : Prop where
  cut : t.CutInto rest quote b
  unique : ∀ quote' b', t.CutInto rest quote' b' → quote' = quote ∧ b' = b
  value : t.value = some (.string (b.segments.flatMap Segment.decoded))
  errors : s.errorsIn t = (if b.closed then [] else [⟨.unterminatedString, t.start, t.lexeme⟩]) ++
    segmentErrors (t.start.advance quote) b.segments
  unterminated : b.closed = false ↔ Stops (· ≠ '\n') (b.tail quote)
  malformed_inside : ∀ raw, .malformed raw ∈ b.segments → '"' ∉ raw ∧ '\'' ∉ raw ∧ '\n' ∉ raw
  backslash_last : ∀ front back, b.segments = front ++ .backslash :: back →
    back = [] ∧ b.closed = false

/-! ## The segments and the grammar -/

theorem malformedEscape_iff {quote : Char} {raw rest : Text} :
    (Segment.malformed raw).Stands quote rest ↔ MalformedEscape raw rest := by
  constructor
  · intro h
    cases h with
    | unknown hn hu hd =>
      refine .letter hn hu ?_
      intro d hmem
      rw [shortEscape?_iff.mpr hmem] at hd
      cases hd
    | unbraced hbrace => exact .unbraced hbrace
    | unclosed hdigits hstop hbrace => exact .unclosed hdigits hstop hbrace
    | unnamed hdigits hc =>
      refine .unnamed hdigits ?_
      intro c hpos hsix hn
      rw [charOfHex?_iff.mpr ⟨hpos, hsix, hn⟩] at hc
      cases hc
  · intro h
    cases h with
    | letter hn hu hd =>
      refine .unknown hn hu ?_
      rw [Option.eq_none_iff_forall_ne_some]
      exact fun d hshort => hd d (shortEscape?_iff.mp hshort)
    | unbraced hbrace => exact .unbraced hbrace
    | unclosed hdigits hstop hbrace => exact .unclosed hdigits hstop hbrace
    | unnamed hdigits hc =>
      refine .unnamed hdigits ?_
      rw [Option.eq_none_iff_forall_ne_some]
      intro c hname
      obtain ⟨hpos, hsix, hn⟩ := charOfHex?_iff.mp hname
      exact hc c hpos hsix hn

theorem Segment.next_iff {quote : Char} {s : Segment} {rest : Text} :
    s.Next quote rest ↔ s.Stands quote rest := by
  constructor
  · intro h
    cases h with
    | plain hq hb hn => exact .plain hq hb hn
    | escape hc =>
      cases hc with
      | itself _ hb => exact absurd rfl hb
      | short hshort => exact .short (shortEscape?_iff.mpr hshort)
      | byNumber hpos hsix hn => exact .named (charOfHex?_iff.mpr ⟨hpos, hsix, hn⟩)
    | malformed hraw => exact malformedEscape_iff.mpr hraw
    | backslash hstop => exact .backslash hstop
  · intro h
    cases s with
    | plain c =>
      cases h with
      | plain hq hb hn => exact .plain hq hb hn
    | escape raw c =>
      cases h with
      | short hd => exact .escape (.short (shortEscape?_iff.mp hd))
      | named hc =>
        obtain ⟨hpos, hsix, hn⟩ := charOfHex?_iff.mp hc
        exact .escape (.byNumber hpos hsix hn)
    | malformed raw => exact .malformed (malformedEscape_iff.mp h)
    | backslash =>
      cases h with
      | backslash hstop => exact .backslash hstop

theorem Token.CutInto.segmented {t : Token} {rest : Text} {quote : Char} {b : QuotedBody}
    (h : t.CutInto rest quote b) : Segmented quote b.segments (b.tail quote) :=
  segmented_iff.mpr fun front s back hss => Segment.next_iff.mp (h.segments front s back hss)

/-! ## One way to cut -/

theorem QuotedBody.WellFormed.of_text_eq_nil {quote : Char} {b : QuotedBody}
    (h : b.WellFormed quote) (htext : b.text quote = []) : b = ⟨[], false, b.rest⟩ := by
  obtain ⟨ss, closed, rest⟩ := b
  obtain ⟨hraws, hopen⟩ := List.append_eq_nil_iff.mp htext
  rw [List.flatMap_eq_nil_iff] at hraws
  have hss : ss = [] := List.eq_nil_iff_forall_not_mem.mpr fun s hs =>
    h.segmented.raw_ne_nil s hs (hraws s hs)
  cases closed with
  | false => rw [hss]
  | true => cases hopen

/-- No other cut takes the same text in front of the same rest. The other cut need not promise
that the line ends where it leaves the string open. -/
theorem QuotedBody.WellFormed.eq_of_segmented {quote : Char} {b b' : QuotedBody}
    (h : b.WellFormed quote) (hquote : IsQuote quote)
    (h' : Segmented quote b'.segments (b'.tail quote)) (htext : b'.text quote = b.text quote)
    (hrest : b'.rest = b.rest) : b' = b := by
  obtain ⟨ss, closed, rest⟩ := b'
  have hread := h.read hquote
  rw [← htext, ← hrest, text_append_rest, readQuotedBody_of_segmented hquote h'] at hread
  cases closed with
  | true =>
    rw [show tail quote ⟨ss, true, rest⟩ = quote :: rest from rfl,
      readQuotedBody_quote hquote] at hread
    rw [← hread, List.append_nil]
  | false =>
    rw [show tail quote ⟨ss, false, rest⟩ = rest from rfl] at hread
    -- the reader takes no more than the cut does, since it leaves all of the rest
    have hmore := readQuotedBody_append quote rest
    have hleft : (readQuotedBody quote rest).rest = rest :=
      (congrArg QuotedBody.rest hread).trans hrest.symm
    rw [hleft] at hmore
    have hnone := (wellFormed_readQuotedBody quote rest).of_text_eq_nil
      (List.append_left_eq_self.mp hmore)
    rw [hleft] at hnone
    rw [← hread, hnone, List.append_nil]

theorem Token.CutInto.unique {t : Token} {rest : Text} {quote quote' : Char} {b b' : QuotedBody}
    (h : t.CutInto rest quote b) (hb : b.WellFormed quote) (h' : t.CutInto rest quote' b') :
    quote' = quote ∧ b' = b := by
  obtain ⟨rfl, htext⟩ := List.cons.inj (h'.lexeme_eq.symm.trans h.lexeme_eq)
  exact ⟨rfl, hb.eq_of_segmented h.is_quote h'.segmented htext
    (h'.rest_eq.trans h.rest_eq.symm)⟩

/-! ## What a string token keeps -/

theorem placed_escapeFaults (p : Position) (before : Text) (ss : List Segment) :
    (escapeFaults before ss).map (Fault.placed p) =
      segmentErrors (p.advancedOver before.reverse) ss := by
  induction ss generalizing before with
  | nil => rfl
  | cons s ss ih =>
    have hone : (s.faults before).map (Fault.placed p) =
        s.errors (p.advancedOver before.reverse) := by
      cases s <;> rfl
    rw [escapeFaults_cons, List.map_append, hone, ih, List.reverse_append, List.reverse_reverse,
      Position.advancedOver_append, segmentErrors]

theorem MalformedEscape.no_quote {raw rest : Text} (h : MalformedEscape raw rest) :
    '"' ∉ raw ∧ '\'' ∉ raw := by
  have no_hex : ∀ {digits : Text}, (∀ d ∈ digits, isHexDigit d) →
      '"' ∉ digits ∧ '\'' ∉ digits := by
    intro digits hdigits
    exact ⟨fun hmem => absurd (hdigits _ hmem) (by decide),
      fun hmem => absurd (hdigits _ hmem) (by decide)⟩
  cases h with
  | @letter c _ _ _ hshort =>
    have hdouble : c ≠ '"' := by rintro rfl; exact hshort '"' (by decide)
    have hsingle : c ≠ '\'' := by rintro rfl; exact hshort '\'' (by decide)
    simp [hdouble.symm, hsingle.symm]
  | unbraced => simp
  | unclosed hdigits => simpa using no_hex hdigits
  | unnamed hdigits => simpa [numbered] using no_hex hdigits

theorem QuotedBody.WellFormed.unterminated_iff {quote : Char} {b : QuotedBody}
    (h : b.WellFormed quote) (hquote : IsQuote quote) :
    b.closed = false ↔ Stops (· ≠ '\n') (b.tail quote) := by
  constructor
  · intro hopen
    rw [tail, hopen]
    exact h.cut_off hopen
  · intro hend
    cases hclosed : b.closed with
    | false => rfl
    | true =>
      rw [tail, hclosed] at hend
      have hn : quote = '\n' := by simpa using stops_cons_iff.mp hend
      rcases hquote with rfl | rfl <;> cases hn

theorem recovered_placed {source : Text} {front back : List Piece} {quote : Char}
    {b : QuotedBody} (h : pieces source = front ++ .lexeme (stringLexeme quote b) :: back)
    (hquote : IsQuote quote) (hrest : b.rest = textOf back) (hb : b.WellFormed quote)
    (origin : Position) :
    ((stringLexeme quote b).placed (origin.advancedOver (textOf front))).Recovered
      (scanFrom origin source) (textOf back) quote b := by
  have hcut : ((stringLexeme quote b).placed (origin.advancedOver (textOf front))).CutInto
      (textOf back) quote b :=
    ⟨hquote, rfl, hrest, fun front s back hss =>
      Segment.next_iff.mpr (segmented_iff.mp hb.segmented front s back hss)⟩
  refine
    { cut := hcut
      unique := fun quote' b' hcut' => hcut.unique hb hcut'
      value := rfl
      errors := ?_
      unterminated := hb.unterminated_iff hquote
      malformed_inside := ?_
      backslash_last := ?_ }
  · rw [errorsIn_string h hquote]
    simp only [stringLexeme, List.map_append, placed_escapeFaults]
    cases b.closed with
    | true => rfl
    | false => rfl
  · intro raw hmem
    obtain ⟨next, hstands⟩ := hb.segmented.stands_of_mem hmem
    obtain ⟨hdouble, hsingle⟩ := (malformedEscape_iff.mp hstands).no_quote
    exact ⟨hdouble, hsingle, hstands.no_line_feed⟩
  · intro before after hss
    have hsegmented := hb.segmented
    rw [hss] at hsegmented
    obtain ⟨hafter, hend⟩ := hsegmented.after_backslash
    exact ⟨hafter, (hb.unterminated_iff hquote).mpr hend⟩

/-- Error recovery in strings loses nothing: each string token of a scan is cut in one way into
segments and an optional closing quote, its value keeps every segment, and the errors in it are
its missing quote and its malformed escapes, in order. -/
theorem recovery_in_strings_loses_nothing {origin : Position} {source : Text} {t : Token}
    (ht : t ∈ (scanFrom origin source).tokens) (hk : t.kind = .stringLiteral) :
    ∃ before rest quote b, source = before ++ (t.lexeme ++ rest) ∧
      t.start = origin.advancedOver before ∧
      t.Recovered (scanFrom origin source) rest quote b := by
  obtain ⟨front, l, back, hps, rfl⟩ := lexeme_of_mem_tokens ht (by simp [hk])
  obtain ⟨quote, b, rfl, hquote, hrest, hb⟩ := (lexeme_stands_of_pieces hps).of_string hk
  exact ⟨textOf front, textOf back, quote, b, cut_of_pieces hps, rfl,
    recovered_placed hps hquote hrest hb origin⟩

theorem a_string_of_three_bad_escapes_is_recovered :
    let source := "= 'a\\q\\u\"\\u\x7bD800\x7d\\".toList
    let t : Token := ⟨.stringLiteral, "'a\\q\\u\"\\u\x7bD800\x7d\\".toList, ⟨1, 3, 2⟩, ⟨1, 19, 18⟩,
      some (.string "a\\q\\u\"\\u\x7bD800\x7d\\".toList)⟩
    t ∈ (scanFrom .start source).tokens ∧ t.kind = .stringLiteral ∧
      ∃ before rest quote b, source = before ++ (t.lexeme ++ rest) ∧
        t.start = Position.start.advancedOver before ∧
        t.Recovered (scanFrom .start source) rest quote b := by
  intro source t
  have ht : t ∈ (scanFrom .start source).tokens := by decide +kernel
  exact ⟨ht, rfl, recovery_in_strings_loses_nothing ht rfl⟩

end Lexis
