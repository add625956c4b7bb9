-- The faults of a lexeme: what they are, where they lie, and so in which order
-- the errors of a scan come. Only a point right after an integer lies past its
-- lexeme, and then the point is the next lexeme and has no fault of its own.
import Lexis.Proofs.PieceGrammar

namespace Lexis

/-! ## The escapes of a string -/

theorem Segment.mem_faults {before : Text} {s : Segment} {f : Fault} : f ∈ s.faults before ↔
    ∃ raw, s = .malformed raw ∧ f = ⟨.invalidEscape, before.reverse, raw⟩ := by
  cases s <;> simp [faults]

/-- The malformed escapes of the segments are the faults, each with the text in front of it. -/
theorem mem_escapeFaults {before : Text} {ss : List Segment} {f : Fault} :
    f ∈ escapeFaults before ss ↔ ∃ front raw back, ss = front ++ .malformed raw :: back ∧
      f = ⟨.invalidEscape, before.reverse ++ front.flatMap Segment.raw, raw⟩ := by
  induction ss generalizing before with
  | nil => simp [escapeFaults]
  | cons s ss ih =>
    rw [escapeFaults_cons, List.mem_append, Segment.mem_faults, ih]
    constructor
    · rintro (⟨raw, rfl, rfl⟩ | ⟨front, raw, back, rfl, rfl⟩)
      · exact ⟨[], raw, ss, rfl, by simp⟩
      · exact ⟨s :: front, raw, back, rfl, by simp⟩
    · rintro ⟨front, raw, back, hss, rfl⟩
      cases front with
      | nil =>
        obtain ⟨rfl, rfl⟩ := List.cons.inj hss
        exact .inl ⟨raw, rfl, by simp⟩
      | cons s' front =>
        obtain ⟨rfl, rfl⟩ := List.cons.inj hss
        exact .inr ⟨front, raw, back, rfl, by simp⟩

theorem escapeFaults_sorted {ss : List Segment} (h : ∀ s ∈ ss, s.raw ≠ []) (before : Text) :
    (escapeFaults before ss).Pairwise fun f g => f.before.byteSize < g.before.byteSize := by
  induction ss generalizing before with
  | nil => exact .nil
  | cons s ss ih =>
    have hlater := ih (fun s' hs' => h s' (List.mem_cons_of_mem _ hs')) (s.raw.reverse ++ before)
    have hone : (s.faults before).Pairwise fun f g => f.before.byteSize < g.before.byteSize := by
      cases s <;> simp [Segment.faults]
    rw [escapeFaults_cons]
    refine List.pairwise_append.mpr ⟨hone, hlater, ?_⟩
    intro f hf g hg
    obtain ⟨raw, rfl, rfl⟩ := Segment.mem_faults.mp hf
    obtain ⟨front, raw', back, -, rfl⟩ := mem_escapeFaults.mp hg
    have hpos := Text.byteSize_pos (h _ List.mem_cons_self)
    simp only [List.reverse_append, List.reverse_reverse, Text.byteSize_append]
    omega

/-! ## What can be wrong with a token -/

/-- The token is a string with this body, given the text after it. -/
structure Token.IsString (t : Token) (rest : Text) (quote : Char) (b : QuotedBody) : Prop where
  is_string : t.kind = .stringLiteral
  is_quote : IsQuote quote
  lexeme_eq : t.lexeme = quote :: b.text quote
  rest_eq : b.rest = rest
  well_formed : b.WellFormed quote

/-- The errors that a token brings along, given the text after it. -/
inductive Token.Faulty (t : Token) (rest : Text) : LexicalError → Prop
  | unclosedString {quote : Char} {b : QuotedBody} : t.IsString rest quote b → b.closed = false →
      Faulty t rest ⟨.unterminatedString, t.start, t.lexeme⟩
  | badEscape {quote : Char} {b : QuotedBody} {front back : List Segment} {raw : Text} :
      t.IsString rest quote b → b.segments = front ++ .malformed raw :: back →
      Faulty t rest ⟨.invalidEscape, t.start.advancedOver (quote :: front.flatMap Segment.raw), raw⟩
  | noValue : t.kind = .integerLiteral ∨ t.kind = .floatLiteral → t.value = none →
      Faulty t rest ⟨.malformedNumber, t.start, t.lexeme⟩
  | point : t.kind = .integerLiteral → rest.head? = some '.' →
      Faulty t rest ⟨.malformedNumber, t.stop, ['.']⟩
  | unclosedComment : t.kind = .comment → ['/', '*'] <+: t.lexeme → ¬ IsBlockComment t.lexeme →
      Faulty t rest ⟨.unterminatedComment, t.start, t.lexeme⟩

theorem mem_valueFaults {text : Text} {value : Option Literal} {f : Fault} :
    f ∈ valueFaults text value ↔ value = none ∧ f = ⟨.malformedNumber, [], text⟩ := by
  unfold valueFaults
  cases value <;> simp

theorem mem_pointFaults {digits rest : Text} {f : Fault} : f ∈ pointFaults digits rest ↔
    rest.head? = some '.' ∧ f = ⟨.malformedNumber, digits, ['.']⟩ := by
  unfold pointFaults
  split <;> simp_all

theorem mem_faults_stringLexeme {quote : Char} {b : QuotedBody} {f : Fault} :
    f ∈ (stringLexeme quote b).faults ↔
      (b.closed = false ∧ f = ⟨.unterminatedString, [], quote :: b.text quote⟩) ∨
      ∃ front raw back, b.segments = front ++ .malformed raw :: back ∧
        f = ⟨.invalidEscape, quote :: front.flatMap Segment.raw, raw⟩ := by
  simp only [stringLexeme, List.mem_append, mem_escapeFaults, List.reverse_singleton,
    List.singleton_append]
  cases b.closed <;> simp

/-- Each fault of a lexeme is one of the errors that its token may bring along. -/
theorem Lexeme.Stands.faulty {l : Lexeme} {rest : Text} {f : Fault} (h : l.Stands rest)
    (hf : f ∈ l.faults) (p : Position) : (l.placed p).Faulty rest (f.placed p) := by
  cases h with
  | word => cases hf
  | @integer digits =>
    rcases List.mem_append.mp hf with hf | hf
    · obtain ⟨hvalue, rfl⟩ := mem_valueFaults.mp hf
      exact .noValue (.inl rfl) hvalue
    · obtain ⟨hpoint, rfl⟩ := mem_pointFaults.mp hf
      exact .point rfl hpoint
  | float =>
    obtain ⟨hvalue, rfl⟩ := mem_valueFaults.mp hf
    exact .noValue (.inr rfl) hvalue
  | @string quote b hquote hb =>
    have hstring : ((stringLexeme quote b).placed p).IsString b.rest quote b :=
      ⟨rfl, hquote, rfl, rfl, hb⟩
    rcases mem_faults_stringLexeme.mp hf with ⟨hclosed, rfl⟩ | ⟨front, raw, back, hss, rfl⟩
    · exact .unclosedString hstring hclosed
    · exact .badEscape hstring hss
  | lineComment => cases hf
  | blockComment => cases hf
  | @openComment r hopen =>
    rw [List.mem_singleton.mp hf]
    exact .unclosedComment rfl ⟨r, rfl⟩ (hopen _ (List.prefix_refl _))
  | operator => cases hf
  | punctuation => cases hf

/-- A string token has one body. -/
theorem Token.IsString.unique {t : Token} {rest : Text} {quote quote' : Char}
    {b b' : QuotedBody} (h : t.IsString rest quote b) (h' : t.IsString rest quote' b') :
    quote = quote' ∧ b = b' := by
  have hlexeme := h.lexeme_eq.symm.trans h'.lexeme_eq
  obtain ⟨rfl, htext⟩ := List.cons.inj hlexeme
  refine ⟨rfl, ?_⟩
  have hread := (readQuotedBody_iff h.is_quote).mpr ⟨rfl, h.well_formed⟩
  rw [htext, h.rest_eq, ← h'.rest_eq] at hread
  exact hread.symm.trans ((readQuotedBody_iff h.is_quote).mpr ⟨rfl, h'.well_formed⟩)

/-- Each error that a token may bring along is a fault of its lexeme. -/
theorem Lexeme.Stands.fault_of_faulty {l : Lexeme} {rest : Text} {p : Position}
    {e : LexicalError} (h : l.Stands rest) (he : (l.placed p).Faulty rest e) :
    ∃ f ∈ l.faults, f.placed p = e := by
  have body_of_string : ∀ {quote b}, (l.placed p).IsString rest quote b →
      l = stringLexeme quote b := by
    intro quote b hs
    obtain ⟨quote', b', rfl, hquote, hrest, hb⟩ := h.of_string hs.is_string
    obtain ⟨rfl, rfl⟩ := hs.unique ⟨rfl, hquote, rfl, hrest, hb⟩
    rfl
  cases he with
  | unclosedString hs hclosed =>
    rw [body_of_string hs]
    exact ⟨_, mem_faults_stringLexeme.mpr (.inl ⟨hclosed, rfl⟩), rfl⟩
  | badEscape hs hss =>
    rw [body_of_string hs]
    exact ⟨_, mem_faults_stringLexeme.mpr (.inr ⟨_, _, _, hss, rfl⟩), rfl⟩
  | noValue hk hvalue =>
    rcases hk with hk | hk
    · obtain ⟨digits, rfl, -⟩ := h.of_integer hk
      exact ⟨_, List.mem_append_left _ (mem_valueFaults.mpr ⟨hvalue, rfl⟩), rfl⟩
    · obtain ⟨whole, fraction, rfl, -⟩ := h.of_float hk
      exact ⟨_, mem_valueFaults.mpr ⟨hvalue, rfl⟩, rfl⟩
  | point hk hpoint =>
    obtain ⟨digits, rfl, -⟩ := h.of_integer hk
    exact ⟨_, List.mem_append_right _ (mem_pointFaults.mpr ⟨hpoint, rfl⟩), rfl⟩
  | unclosedComment hk hopen hblock =>
    rcases h.of_comment hk with ⟨t, rfl⟩ | ⟨-, hblock'⟩ | ⟨r, rfl, -⟩
    · obtain ⟨u, hu⟩ := hopen
      simp [placed, plain] at hu
    · exact absurd hblock' hblock
    · exact ⟨_, List.mem_singleton_self _, rfl⟩

/-! ## Where the faults of a lexeme lie -/

/-- A fault lies inside its lexeme, or is the point right after an integer. -/
theorem Lexeme.Stands.fault_place {l : Lexeme} {rest : Text} {f : Fault} (h : l.Stands rest)
    (hf : f ∈ l.faults) : (f.text ≠ [] ∧ f.before ++ f.text <+: l.text) ∨
      (l.kind = .integerLiteral ∧ f.before = l.text ∧ f.text = ['.'] ∧ rest.head? = some '.') := by
  obtain ⟨c, t, ht, -⟩ := h.first
  have hne : l.text ≠ [] := by rw [ht]; exact List.cons_ne_nil _ _
  cases h with
  | word => cases hf
  | integer =>
    rcases List.mem_append.mp hf with hf | hf
    · obtain ⟨-, rfl⟩ := mem_valueFaults.mp hf
      exact .inl ⟨hne, List.prefix_refl _⟩
    · obtain ⟨hpoint, rfl⟩ := mem_pointFaults.mp hf
      exact .inr ⟨rfl, rfl, rfl, hpoint⟩
  | float =>
    obtain ⟨-, rfl⟩ := mem_valueFaults.mp hf
    exact .inl ⟨hne, List.prefix_refl _⟩
  | @string quote b hquote hb =>
    rcases mem_faults_stringLexeme.mp hf with ⟨-, rfl⟩ | ⟨front, raw, back, hss, rfl⟩
    · exact .inl ⟨hne, List.prefix_refl _⟩
    · have hmem : Segment.malformed raw ∈ b.segments := by rw [hss]; simp
      refine .inl ⟨hb.segmented.raw_ne_nil _ hmem, ?_⟩
      have htext : (stringLexeme quote b).text = quote :: front.flatMap Segment.raw ++ raw ++
          (back.flatMap Segment.raw ++ bif b.closed then [quote] else []) := by
        simp [stringLexeme, QuotedBody.text, hss, Segment.raw]
      rw [htext]
      exact List.prefix_append _ _
  | lineComment => cases hf
  | blockComment => cases hf
  | openComment =>
    rw [List.mem_singleton.mp hf]
    exact .inl ⟨hne, List.prefix_refl _⟩
  | operator => cases hf
  | punctuation => cases hf

/-- No fault of a lexeme that is no integer starts at its end. -/
theorem Lexeme.Stands.fault_inside {l : Lexeme} {rest : Text} {f : Fault} (h : l.Stands rest)
    (hk : l.kind ≠ .integerLiteral) (hf : f ∈ l.faults) :
    f.before.byteSize < l.text.byteSize := by
  rcases h.fault_place hf with ⟨hne, t, ht⟩ | ⟨hint, -⟩
  · have := Text.byteSize_pos hne
    rw [← ht, Text.byteSize_append, Text.byteSize_append]
    omega
  · exact absurd hint hk

theorem Lexeme.Stands.faults_sorted {l : Lexeme} {rest : Text} (h : l.Stands rest) :
    l.faults.Pairwise fun f g => f.before.byteSize < g.before.byteSize := by
  cases h with
  | word => exact .nil
  | @integer digits rest hne =>
    have hpos := Text.byteSize_pos hne
    simp only [integerLexeme, valueFaults, pointFaults]
    split <;> split <;> simp [hpos]
  | float =>
    simp only [floatLexeme, valueFaults]
    split <;> simp
  | @string quote b hquote hb =>
    have hsorted := escapeFaults_sorted hb.segmented.raw_ne_nil [quote]
    simp only [stringLexeme]
    split
    · exact hsorted
    · refine .cons ?_ hsorted
      intro g hg
      obtain ⟨front, raw, back, -, rfl⟩ := mem_escapeFaults.mp hg
      have := quote.utf8Size_pos
      simp only [List.reverse_singleton, Text.byteSize_append, Text.byteSize_cons,
        Text.byteSize_nil]
      omega
  | lineComment => exact .nil
  | blockComment => exact .nil
  | openComment => exact List.pairwise_singleton _ _
  | operator => exact .nil
  | punctuation => exact .nil

/-! ## The errors of a piece -/

theorem Fault.offset_placed (p : Position) (f : Fault) :
    (f.placed p).position.offset = p.offset + f.before.byteSize :=
  Position.offset_advancedOver p f.before

theorem Piece.Stands.error_place {x : Piece} {rest : Text} {p : Position} {e : LexicalError}
    (h : x.Stands rest) (he : e ∈ x.errors p) : p.offset ≤ e.position.offset ∧
      (e.position.offset < p.offset + x.text.byteSize ∨
        e.position.offset = p.offset + x.text.byteSize ∧ rest.head? = some '.') := by
  cases h with
  | blank => cases he
  | @stray c =>
    rw [List.mem_singleton.mp he]
    have := c.utf8Size_pos
    simp only [strayError, Piece.text, Text.byteSize_cons, Text.byteSize_nil]
    omega
  | @lexeme l rest hl =>
    obtain ⟨f, hf, rfl⟩ := List.mem_map.mp he
    rw [Fault.offset_placed, Piece.text]
    refine ⟨by omega, ?_⟩
    rcases hl.fault_place hf with ⟨hne, t, ht⟩ | ⟨-, hbefore, -, hpoint⟩
    · have := Text.byteSize_pos hne
      rw [← ht, Text.byteSize_append, Text.byteSize_append]
      exact .inl (by omega)
    · exact .inr ⟨by rw [hbefore], hpoint⟩

theorem Piece.Stands.errors_sorted {x : Piece} {rest : Text} (h : x.Stands rest) (p : Position) :
    (x.errors p).Pairwise fun a b => a.position.offset < b.position.offset := by
  cases h with
  | blank => exact .nil
  | stray => exact List.pairwise_singleton _ _
  | lexeme hl =>
    simp only [Piece.errors, List.pairwise_map, Fault.offset_placed]
    refine hl.faults_sorted.imp ?_
    intro f g hfg
    omega

/-- The piece at a point is the point alone, and has no error. -/
theorem Piece.Stands.errors_at_point {x : Piece} {rest : Text} (h : x.Stands rest)
    (hpoint : (x.text ++ rest).head? = some '.') (p : Position) : x.errors p = [] := by
  obtain ⟨r, hr⟩ : ∃ r, x.text ++ rest = '.' :: r := List.head?_eq_some_iff.mp hpoint
  have hread := readPiece_of_stands h hr
  have hdot : Piece.Stands (.lexeme (.plain (.punctuation .dot) ['.'])) r :=
    .lexeme (.punctuation (p := .dot))
  have hpiece := hread.symm.trans (readPiece_of_stands hdot rfl)
  rw [(Prod.mk.inj hpiece).1]
  rfl

/-! ## The errors of a text -/

/-- The errors of pieces come in strict order, none before the place where the pieces start,
and none at that place when a point stands there. -/
theorem WellLaid.errors_sorted {ps : List Piece} (h : WellLaid ps) (p : Position) :
    (errorsOf p ps).Pairwise (fun a b => a.position.offset < b.position.offset) ∧
      ∀ e ∈ errorsOf p ps, p.offset ≤ e.position.offset ∧
        ((textOf ps).head? = some '.' → p.offset < e.position.offset) := by
  induction h generalizing p with
  | nil => exact ⟨.nil, fun e he => by cases he⟩
  | @cons x ps hx _ ih =>
    obtain ⟨hsorted, hlater⟩ := ih (p.advancedOver x.text)
    have hpos := Text.byteSize_pos hx.text_ne_nil
    simp only [Position.offset_advancedOver] at hlater
    constructor
    · refine List.pairwise_append.mpr ⟨hx.errors_sorted p, hsorted, ?_⟩
      intro a ha b hb
      obtain ⟨hle, hlt⟩ := hlater b hb
      rcases (hx.error_place ha).2 with h | ⟨h, hpoint⟩
      · omega
      · have := hlt hpoint
        omega
    · intro e he
      rcases List.mem_append.mp he with he | he
      · refine ⟨(hx.error_place he).1, ?_⟩
        intro hpoint
        rw [hx.errors_at_point hpoint p] at he
        cases he
      · have := (hlater e he).1
        exact ⟨by omega, fun _ => by omega⟩

/-- The errors of a source come in the strict order of their offsets. -/
theorem errors_tokenize_sorted (source : Text) :
    (tokenize source).errors.Pairwise fun a b => a.position.offset < b.position.offset := by
  rw [errors_tokenize]
  exact ((wellLaid_pieces source).errors_sorted .start).1

end Lexis
