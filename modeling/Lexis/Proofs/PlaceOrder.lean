-- The order of places. Positions are compared by their lines and columns before their offsets, and
-- columns start again on each line. The places that one text leads to come in the order of the
-- text all the same, so a span holds the text between its ends and is as long as that text.
import Lexis.Proofs.ErrorList
import Lexis.Proofs.TokenPlaces

namespace Lexis

/-! ## What the order is -/

/-- The order of a reader: line first, then column, then offset. -/
def Position.Before (a b : Position) : Prop :=
  a.line < b.line ∨
    a.line = b.line ∧ (a.column < b.column ∨ a.column = b.column ∧ a.offset < b.offset)

/-- The span holds the text: it ends where the text leads from its start, never before that, and
has as many bytes as the text. -/
structure Span.Holds (s : Span) (t : Text) : Prop where
  stop_eq : s.stop = s.start.advancedOver t
  offset_le : s.start.offset ≤ s.stop.offset
  byteLength_eq : s.byteLength = t.byteSize
  isEmpty_iff : s.isEmpty = true ↔ t = []
  compare_eq : compare s.start s.stop = compare 0 t.byteSize

/-- Texts act on the place: one after another they lead where both at once do, and the fronts of
one text lead to places in the order of the fronts. A span that a text takes holds that text. -/
structure Position.MovesInOrder (p : Position) : Prop where
  nothing : p.advancedOver [] = p
  one_after_another : ∀ a b, p.advancedOver (a ++ b) = (p.advancedOver a).advancedOver b
  offset_grows : ∀ t, (p.advancedOver t).offset = p.offset + t.byteSize
  in_order : ∀ t x y : Text, x <+: t → y <+: t →
    compare (p.advancedOver x) (p.advancedOver y) = compare x.byteSize y.byteSize
  before_iff : ∀ t x y : Text, x <+: t → y <+: t →
    ((p.advancedOver x).Before (p.advancedOver y) ↔ x.byteSize < y.byteSize)
  apart : ∀ t x y : Text, x <+: t → y <+: t → (p.advancedOver x = p.advancedOver y ↔ x = y)
  spans_hold : ∀ t, (Span.covering p t).Holds t

namespace ScanResult

/-- The spans that a scan reports, those of its tokens first. -/
def spans (s : ScanResult) : List Span :=
  s.tokens.map Token.span ++ s.errors.map LexicalError.span

/-- The ends of the spans. -/
def places (s : ScanResult) : List Position := s.spans.flatMap fun r => [r.start, r.stop]

/-- Each span of a scan holds the text of its token or error, and the end-of-file token alone has
an empty one. The ends of all the spans compare as their offsets do. -/
structure SpansHold (stop : Position) (s : ScanResult) : Prop where
  tokens_hold : ∀ t ∈ s.tokens, t.span.Holds t.lexeme
  errors_hold : ∀ e ∈ s.errors, e.span.Holds e.text
  empty_token : ∀ t ∈ s.tokens, t.span.isEmpty = true ↔ t.isEndOfFile = true
  no_empty_error : ∀ e ∈ s.errors, e.span.isEmpty = false
  one_empty : s.spans.filter Span.isEmpty = [Span.point stop]
  places_in_order : ∀ p ∈ s.places, ∀ q ∈ s.places,
    compare p q = compare p.offset q.offset ∧ (p = q ↔ p.offset = q.offset)

end ScanResult

/-! ## The order of all positions -/

namespace Position

theorem compare_def (a b : Position) : compare a b =
    (compare a.line b.line).then
      ((compare a.column b.column).then (compare a.offset b.offset)) := rfl

theorem compare_eq_lt_iff {a b : Position} : compare a b = .lt ↔ a.Before b := by
  simp only [compare_def, Before, Ordering.then_eq_lt, Nat.compare_eq_lt, Nat.compare_eq_eq]

instance : Std.TransOrd Position :=
  inferInstanceAs (Std.TransCmp (compareLex (compareOn line)
    (compareLex (compareOn column) (compareOn offset))))

instance : Std.LawfulEqOrd Position where
  eq_of_compare {a b} h := by
    obtain ⟨line, column, offset⟩ := a
    obtain ⟨line', column', offset'⟩ := b
    simpa only [compare_def, Ordering.then_eq_eq, Nat.compare_eq_eq, mk.injEq] using h

/-! ## Moving goes on -/

/-- A line feed goes on to a later line, and any other character to a later column. -/
theorem before_advance (p : Position) (c : Char) : p.Before (p.advance c) := by
  unfold advance
  split
  · exact .inl (Nat.lt_succ_self _)
  · exact .inr ⟨rfl, .inl (Nat.lt_succ_self _)⟩

/-- A text with a character in it leads to a later place. Neither lines nor columns grow at each
character, so it is the order itself that is carried from one to the next. -/
theorem compare_advancedOver {t : Text} (h : t ≠ []) (p : Position) :
    compare p (p.advancedOver t) = .lt := by
  induction t generalizing p with
  | nil => exact absurd rfl h
  | cons c t ih =>
    have hfirst : compare p (p.advance c) = .lt := compare_eq_lt_iff.mpr (p.before_advance c)
    rw [advancedOver_cons]
    by_cases ht : t = []
    · rw [ht]
      exact hfirst
    · exact Std.TransCmp.lt_trans hfirst (ih ht (p.advance c))

theorem compare_advancedOver_append (p : Position) (x m : Text) :
    compare (p.advancedOver x) (p.advancedOver (x ++ m)) =
      compare x.byteSize (x ++ m).byteSize := by
  by_cases hm : m = []
  · rw [hm, List.append_nil, Std.ReflOrd.compare_self, Std.ReflOrd.compare_self]
  · have hpos := Text.byteSize_pos hm
    rw [advancedOver_append, compare_advancedOver hm, Text.byteSize_append,
      Nat.compare_eq_lt.mpr (by omega)]

variable {t x y : Text}

/-- Of two fronts of one text one is a front of the other, so the order of their places is that of
their sizes. -/
theorem compare_fronts (hx : x <+: t) (hy : y <+: t) (p : Position) :
    compare (p.advancedOver x) (p.advancedOver y) = compare x.byteSize y.byteSize := by
  rcases List.prefix_or_prefix_of_prefix hx hy with ⟨m, rfl⟩ | ⟨m, rfl⟩
  · exact p.compare_advancedOver_append x m
  · calc compare (p.advancedOver (y ++ m)) (p.advancedOver y)
        = (compare (p.advancedOver y) (p.advancedOver (y ++ m))).swap := Std.OrientedOrd.eq_swap
      _ = (compare y.byteSize (y ++ m).byteSize).swap := by rw [compare_advancedOver_append]
      _ = compare (y ++ m).byteSize y.byteSize := Std.OrientedOrd.eq_swap.symm

theorem eq_of_byteSize_eq_of_fronts (hx : x <+: t) (hy : y <+: t)
    (hsize : x.byteSize = y.byteSize) : x = y := by
  obtain ⟨r, hr⟩ := hx
  obtain ⟨r', hr'⟩ := hy
  exact (Text.append_inj_of_byteSize (hr.trans hr'.symm) hsize).1

/-- Places that fronts of one text lead to compare as their offsets do. -/
theorem compare_offsets (hx : x <+: t) (hy : y <+: t) (p : Position) :
    compare (p.advancedOver x) (p.advancedOver y) =
      compare (p.advancedOver x).offset (p.advancedOver y).offset := by
  rw [compare_fronts hx hy, offset_advancedOver, offset_advancedOver]
  simp only [Nat.compare_eq_ite_lt, Nat.add_lt_add_iff_left]

/-- Positions of no common text need not compare as their offsets do. -/
example : compare (⟨1, 9, 30⟩ : Position) ⟨2, 1, 10⟩ = .lt := by decide

end Position

/-! ## Spans of text -/

theorem Span.holds_covering (p : Position) (t : Text) : (covering p t).Holds t where
  stop_eq := rfl
  offset_le := by
    rw [covering, Position.offset_advancedOver]
    exact Nat.le_add_right _ _
  byteLength_eq := by
    rw [byteLength, covering, Position.offset_advancedOver, Nat.add_sub_cancel_left]
  isEmpty_iff := by
    rw [isEmpty, covering, Position.offset_advancedOver, beq_iff_eq]
    constructor
    · intro hsize
      by_contra ht
      have := Text.byteSize_pos ht
      simp only at hsize
      omega
    · rintro rfl
      rfl
  compare_eq := p.compare_advancedOver_append [] t

theorem Position.movesInOrder (p : Position) : p.MovesInOrder where
  nothing := p.advancedOver_nil
  one_after_another := p.advancedOver_append
  offset_grows := p.offset_advancedOver
  in_order t x y hx hy := compare_fronts hx hy p
  before_iff t x y hx hy := by
    rw [← compare_eq_lt_iff, compare_fronts hx hy, Nat.compare_eq_lt]
  apart t x y hx hy := by
    refine ⟨fun h => eq_of_byteSize_eq_of_fronts hx hy ?_, fun h => by rw [h]⟩
    rwa [← Std.LawfulEqOrd.compare_eq_iff_eq, compare_fronts hx hy, Nat.compare_eq_eq] at h
  spans_hold := Span.holds_covering p

/-! ## The spans of a scan -/

section
variable {origin : Position} {source : Text}

theorem Token.span_eq_covering {t : Token} (ht : t ∈ (scanFrom origin source).tokens) :
    t.span = Span.covering t.start t.lexeme := by
  obtain ⟨-, -, -, -, hstop⟩ := cut_of_token ht
  rw [span, hstop]
  rfl

theorem Token.holds_span {t : Token} (ht : t ∈ (scanFrom origin source).tokens) :
    t.span.Holds t.lexeme := by
  rw [t.span_eq_covering ht]
  exact Span.holds_covering t.start t.lexeme

/-- A span of a scan covers a part of the source. -/
theorem cut_of_span {r : Span} (hr : r ∈ (scanFrom origin source).spans) :
    ∃ before part after, source = before ++ (part ++ after) ∧
      r = Span.covering (origin.advancedOver before) part := by
  rcases List.mem_append.mp hr with hr | hr
  · obtain ⟨t, ht, rfl⟩ := List.mem_map.mp hr
    obtain ⟨before, after, hsource, hstart, -⟩ := cut_of_token ht
    exact ⟨before, t.lexeme, after, hsource, by rw [← hstart, t.span_eq_covering ht]⟩
  · obtain ⟨e, he, rfl⟩ := List.mem_map.mp hr
    obtain ⟨upTo, after, hsource, hposition⟩ := error_quotes_source he
    exact ⟨upTo, e.text, after, hsource, by rw [← hposition]; rfl⟩

/-- The places of a scan are those that fronts of the source lead to. -/
theorem front_of_place {p : Position} (hp : p ∈ (scanFrom origin source).places) :
    ∃ front, front <+: source ∧ p = origin.advancedOver front := by
  obtain ⟨r, hr, hend⟩ := List.mem_flatMap.mp hp
  obtain ⟨before, part, after, hsource, rfl⟩ := cut_of_span hr
  rcases List.mem_cons.mp hend with rfl | hend
  · exact ⟨before, ⟨part ++ after, hsource.symm⟩, rfl⟩
  · refine ⟨before ++ part, ⟨after, ?_⟩, ?_⟩
    · rw [hsource, List.append_assoc]
    · rw [List.mem_singleton.mp hend, Position.advancedOver_append]
      rfl

/-! ## Empty spans -/

/-- Of the tokens of a scan the end-of-file token is the one with no text. -/
theorem lexeme_eq_nil_iff {t : Token} (ht : t ∈ (scanFrom origin source).tokens) :
    t.lexeme = [] ↔ t.isEndOfFile = true := by
  rcases mem_tokens_scanFrom.mp ht with ⟨front, l, back, hps, rfl⟩ | rfl
  · have hne : l.text ≠ [] := (stands_of_pieces hps).text_ne_nil
    rw [(lexeme_stands_of_pieces hps).isEndOfFile_placed]
    exact ⟨fun h => absurd h hne, fun h => nomatch h⟩
  · exact ⟨fun _ => rfl, fun _ => rfl⟩

theorem error_text_ne_nil {e : LexicalError} (he : e ∈ (scanFrom origin source).errors) :
    e.text ≠ [] := by
  rw [scanFrom_eq] at he
  obtain ⟨front, x, back, hps, hx⟩ := mem_errorsOf.mp he
  cases stands_of_pieces hps with
  | blank => cases hx
  | stray =>
    rw [List.mem_singleton.mp hx]
    exact List.cons_ne_nil _ _
  | lexeme hl =>
    obtain ⟨f, hf, rfl⟩ := List.mem_map.mp hx
    rcases hl.fault_place hf with ⟨hne, -⟩ | ⟨-, -, hpoint, -⟩
    · exact hne
    · rw [Fault.placed, hpoint]
      exact List.cons_ne_nil _ _

theorem Token.isEmpty_span_iff {t : Token} (ht : t ∈ (scanFrom origin source).tokens) :
    t.span.isEmpty = true ↔ t.isEndOfFile = true :=
  (t.holds_span ht).isEmpty_iff.trans (lexeme_eq_nil_iff ht)

theorem LexicalError.isEmpty_span {e : LexicalError} (he : e ∈ (scanFrom origin source).errors) :
    e.span.isEmpty = false := by
  have hholds : e.span.Holds e.text := Span.holds_covering e.position e.text
  rw [Bool.eq_false_iff, ne_eq, hholds.isEmpty_iff]
  exact error_text_ne_nil he

/-- The one span of a scan with no byte in it is the point where the source ends. -/
theorem empty_spans (origin : Position) (source : Text) :
    (scanFrom origin source).spans.filter Span.isEmpty =
      [Span.point (origin.advancedOver source)] := by
  have htokens : (scanFrom origin source).tokens =
      tokensOf origin (pieces source) ++ [Token.endOfFile (origin.advancedOver source)] := by
    rw [scanFrom_eq]
  have hbody : ((tokensOf origin (pieces source)).map Token.span).filter Span.isEmpty = [] := by
    rw [List.filter_eq_nil_iff, List.forall_mem_map]
    intro t ht
    have hmem : t ∈ (scanFrom origin source).tokens := htokens ▸ List.mem_append_left _ ht
    obtain ⟨front, l, back, hps, rfl⟩ := mem_tokensOf.mp ht
    rw [Token.isEmpty_span_iff hmem, (lexeme_stands_of_pieces hps).isEndOfFile_placed]
    exact Bool.false_ne_true
  have hlast : [(Token.endOfFile (origin.advancedOver source)).span].filter Span.isEmpty =
      [Span.point (origin.advancedOver source)] :=
    List.filter_eq_self.mpr (List.forall_mem_singleton.mpr (beq_self_eq_true _))
  have herrors : ((scanFrom origin source).errors.map LexicalError.span).filter Span.isEmpty =
      [] := by
    rw [List.filter_eq_nil_iff, List.forall_mem_map]
    intro e he
    rw [e.isEmpty_span he]
    exact Bool.false_ne_true
  rw [ScanResult.spans, List.filter_append, herrors, List.append_nil, htokens, List.map_append,
    List.filter_append, hbody, List.nil_append]
  exact hlast

end

/-! ## The law -/

/-- From any position, texts lead to places in their order, and the spans of a scan hold what they
are spans of. -/
theorem places_come_in_the_order_of_the_text (origin : Position) (source : Text) :
    origin.MovesInOrder ∧
      (scanFrom origin source).SpansHold (origin.advancedOver source) := by
  refine ⟨origin.movesInOrder, {
    tokens_hold := fun t ht => t.holds_span ht
    errors_hold := fun e _ => Span.holds_covering e.position e.text
    empty_token := fun t ht => t.isEmpty_span_iff ht
    no_empty_error := fun e he => e.isEmpty_span he
    one_empty := empty_spans origin source
    places_in_order := ?_ }⟩
  intro p hp q hq
  obtain ⟨x, hx, rfl⟩ := front_of_place hp
  obtain ⟨y, hy, rfl⟩ := front_of_place hq
  have horder := Position.compare_offsets hx hy origin
  refine ⟨horder, ?_⟩
  rw [← Std.LawfulEqOrd.compare_eq_iff_eq, horder, Nat.compare_eq_eq]

end Lexis
