-- The law of the origin: where a text starts changes what a scan says about places, and nothing
-- else. Each place it reports is the one that the text in front of that place leads to.
import Lexis.Proofs.ErrorList
import Lexis.Proofs.LexerRun
import Lexis.Proofs.TokenPlaces
import Lexis.Scan.Cursor
import Mathlib.Data.List.Induction

namespace Lexis

/-! ## What a place is -/

/-- The place after a text, by counting: its line feeds, its characters since the last of them,
and its bytes. -/
def Position.counted (p : Position) (t : Text) : Position where
  line := p.line + t.count '\n'
  column := (if '\n' ∈ t then 1 else p.column) + (t.reverse.takeWhile (· ≠ '\n')).length
  offset := p.offset + t.byteSize

/-- The place is recomputed from the text in front of it, which its offset cuts off. Moving over
that text, counting it and walking a cursor over it all lead there. The cursor keeps the source
and the offset of the origin, and has the text behind the place ahead of it. -/
structure Recomputed (origin : Position) (source : Text) (p : Position) (before after : Text) :
    Prop where
  cut : source.splitAt? (p.offset - origin.offset) = some (before, after)
  advanced : p = origin.advancedOver before
  counted : p = origin.counted before
  walked : (Cursor.withOrigin origin source).advanceBy before.length =
    ⟨source, p.offset - origin.offset, origin.offset, p.line, p.column⟩
  ahead : ((Cursor.withOrigin origin source).advanceBy before.length).rest = after
  stands : ((Cursor.withOrigin origin source).advanceBy before.length).location = p

/-- What a token says to a reader who counts offsets from the origin, and has no lines. -/
def Token.seenFrom (origin : Position) (t : Token) :
    TokenKind × Text × Option Literal × Nat × Nat :=
  (t.kind, t.lexeme, t.value, t.start.offset - origin.offset, t.stop.offset - origin.offset)

def LexicalError.seenFrom (origin : Position) (e : LexicalError) : FaultKind × Text × Nat :=
  (e.kind, e.text, e.position.offset - origin.offset)

/-- The tokens and errors are those of the source alone, with all places recomputed from the
origin. -/
structure Relocated (origin : Position) (source : Text) (s : ScanResult) : Prop where
  same_tokens : s.tokens.map (Token.seenFrom origin) =
    (tokenize source).tokens.map (Token.seenFrom .start)
  same_errors : s.errors.map (LexicalError.seenFrom origin) =
    (tokenize source).errors.map (LexicalError.seenFrom .start)
  starts : ∀ t ∈ s.tokens, ∃ before after, Recomputed origin source t.start before after
  stops : ∀ t ∈ s.tokens, ∃ before after, Recomputed origin source t.stop before after
  places : ∀ e ∈ s.errors, ∃ before after, Recomputed origin source e.position before after
  covers : ∀ t ∈ s.tokens, t.stop = t.start.advancedOver t.lexeme
  last : s.tokens.getLast? = some (Token.endOfFile (origin.advancedOver source))

/-! ## Three ways to the same place -/

theorem Position.counted_append_singleton (p : Position) (t : Text) (c : Char) :
    p.counted (t ++ [c]) = (p.counted t).advance c := by
  unfold counted advance
  by_cases hc : c = '\n'
  · simp [hc, Nat.add_assoc]
  · simp [hc, Ne.symm hc, List.count_append, Nat.add_assoc]

theorem Position.advancedOver_eq_counted (p : Position) (t : Text) :
    p.advancedOver t = p.counted t := by
  induction t using List.reverseRecOn with
  | nil => simp [counted]
  | append_singleton t c ih =>
    rw [advancedOver_append, ih, counted_append_singleton]
    rfl

/-- The offset of a place after a front of the source, counted from the origin. -/
theorem Position.local_offset (origin : Position) (before : Text) :
    (origin.advancedOver before).offset - origin.offset = before.byteSize := by
  rw [offset_advancedOver, Nat.add_sub_cancel_left]

/-- The place after a front of the source is recomputed from that front. -/
theorem recomputed_of_cut (origin : Position) {source before after : Text}
    (h : source = before ++ after) :
    Recomputed origin source (origin.advancedOver before) before after := by
  have hrest : (Cursor.withOrigin origin source).rest = before ++ after :=
    (Cursor.rest_of_cut (List.nil_append source).symm rfl).trans h
  have hwalk := Cursor.advanceBy_length hrest
  refine ⟨?_, rfl, Position.advancedOver_eq_counted origin before, ?_, ?_, ?_⟩
  · rw [Position.local_offset, h]
    exact Text.splitAt?_append before after
  · have hoffset : (Cursor.withOrigin origin source).offset + before.byteSize =
        before.byteSize := Nat.zero_add _
    rw [hwalk, Position.local_offset, Cursor.past, hoffset]
    rfl
  · rw [hwalk]
    exact Cursor.rest_past hrest
  · rw [hwalk, Cursor.location_past]
    rfl

/-! ## Scanning does not depend on the origin -/

theorem seenFrom_tokensOf (p q : Position) (ps : List Piece) (before : Text) :
    (tokensOf (p.advancedOver before) ps).map (Token.seenFrom p) =
      (tokensOf (q.advancedOver before) ps).map (Token.seenFrom q) := by
  induction ps generalizing before with
  | nil => rfl
  | cons x ps ih =>
    have hone : (x.tokens (p.advancedOver before)).map (Token.seenFrom p) =
        (x.tokens (q.advancedOver before)).map (Token.seenFrom q) := by
      cases x with
      | blank => rfl
      | stray => rfl
      | lexeme l =>
        simp only [Piece.tokens, List.map_singleton, Token.seenFrom, Lexeme.placed,
          ← Position.advancedOver_append, Position.local_offset]
    rw [tokensOf, tokensOf, List.map_append, List.map_append, hone,
      ← Position.advancedOver_append, ← Position.advancedOver_append, ih]

theorem seenFrom_errorsOf (p q : Position) (ps : List Piece) (before : Text) :
    (errorsOf (p.advancedOver before) ps).map (LexicalError.seenFrom p) =
      (errorsOf (q.advancedOver before) ps).map (LexicalError.seenFrom q) := by
  induction ps generalizing before with
  | nil => rfl
  | cons x ps ih =>
    have hone : (x.errors (p.advancedOver before)).map (LexicalError.seenFrom p) =
        (x.errors (q.advancedOver before)).map (LexicalError.seenFrom q) := by
      cases x with
      | blank => rfl
      | stray c =>
        simp only [Piece.errors, List.map_singleton, LexicalError.seenFrom, strayError,
          Position.local_offset]
      | lexeme l =>
        simp only [Piece.errors, List.map_map]
        apply List.map_congr_left
        intro f _
        simp only [Function.comp_apply, LexicalError.seenFrom, Fault.placed,
          ← Position.advancedOver_append, Position.local_offset]
    rw [errorsOf, errorsOf, List.map_append, List.map_append, hone,
      ← Position.advancedOver_append, ← Position.advancedOver_append, ih]

/-! ## The places of a scan -/

theorem token_is_recomputed {origin : Position} {source : Text} {t : Token}
    (ht : t ∈ (scanFrom origin source).tokens) :
    (∃ before after, Recomputed origin source t.start before after) ∧
      (∃ before after, Recomputed origin source t.stop before after) ∧
      t.stop = t.start.advancedOver t.lexeme := by
  rcases mem_tokens_scanFrom.mp ht with ⟨front, l, back, hps, rfl⟩ | rfl
  · have hcut := cut_of_pieces hps
    have hcut' : source = (textOf front ++ l.text) ++ textOf back := by
      rw [hcut, List.append_assoc]
      rfl
    have hstop := recomputed_of_cut origin hcut'
    rw [Position.advancedOver_append] at hstop
    exact ⟨⟨_, _, recomputed_of_cut origin hcut⟩, ⟨_, _, hstop⟩, rfl⟩
  · have hend := recomputed_of_cut origin (List.append_nil source).symm
    exact ⟨⟨_, _, hend⟩, ⟨_, _, hend⟩, rfl⟩

/-- A lexer that starts anywhere finds what it finds in the source alone, and each place that it
reports is the one that the text in front of it leads to. -/
theorem the_origin_only_moves_places (origin : Position) (source : Text) :
    let run := (Lexer.withOrigin origin source).drain
    Relocated origin source ⟨run.1, run.2.errors⟩ := by
  intro run
  have hrun : (⟨run.1, run.2.errors⟩ : ScanResult) = scanFrom origin source := by
    rw [Lexer.tokens_drain_withOrigin, Lexer.errors_drain_withOrigin]
  rw [hrun]
  refine
    { same_tokens := ?_
      same_errors := ?_
      starts := fun t ht => (token_is_recomputed ht).1
      stops := fun t ht => (token_is_recomputed ht).2.1
      places := ?_
      covers := fun t ht => (token_is_recomputed ht).2.2
      last := ?_ }
  · have hbody := seenFrom_tokensOf origin .start (pieces source) []
    have hlast : (Token.endOfFile (origin.advancedOver source)).seenFrom origin =
        (Token.endOfFile (Position.start.advancedOver source)).seenFrom .start := by
      simp only [Token.seenFrom, Token.endOfFile, Position.local_offset]
    simp only [Position.advancedOver_nil] at hbody
    rw [tokenize, scanFrom_eq, scanFrom_eq, List.map_append, List.map_append, hbody,
      List.map_singleton, List.map_singleton, hlast]
  · rw [tokenize, scanFrom_eq, scanFrom_eq]
    exact seenFrom_errorsOf origin .start (pieces source) []
  · intro e he
    obtain ⟨upTo, after, hsource, hposition⟩ := error_quotes_source he
    rw [hposition]
    exact ⟨_, _, recomputed_of_cut origin hsource⟩
  · rw [scanFrom_eq]
    exact List.getLast?_concat

end Lexis
