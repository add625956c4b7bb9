-- Where the tokens of a scan stand, from any origin: in front of which text, and with which errors
-- inside them. A scan is seen here from one of its tokens.
import Lexis.Proofs.FaultPlaces

namespace Lexis

/-! ## Around one lexeme of a scan -/

/-- The pieces after a lexeme are those of the text after it. -/
theorem pieces_back {source : Text} {front back : List Piece} {x : Piece}
    (h : pieces source = front ++ x :: back) : pieces (textOf back) = back := by
  have hlaid := wellLaid_pieces source
  rw [h] at hlaid
  cases hlaid.of_append with
  | cons _ hback => exact pieces_iff.mpr ⟨rfl, hback⟩

/-- The scan goes on after a lexeme with a scan of the text after it. -/
theorem scanFrom_at_lexeme {source : Text} {front back : List Piece} {l : Lexeme}
    (h : pieces source = front ++ .lexeme l :: back) (origin : Position) :
    let p := origin.advancedOver (textOf front)
    let later := scanFrom (p.advancedOver l.text) (textOf back)
    scanFrom origin source = ⟨tokensOf origin front ++ l.placed p :: later.tokens,
      errorsOf origin front ++ (l.faults.map (Fault.placed p) ++ later.errors)⟩ := by
  intro p later
  have hend : origin.advancedOver source =
      (p.advancedOver l.text).advancedOver (textOf back) := by
    rw [cut_of_pieces h, Position.advancedOver_append, Position.advancedOver_append]
    rfl
  have hlater : later = ⟨tokensOf (p.advancedOver l.text) back ++
      [Token.endOfFile (origin.advancedOver source)], errorsOf (p.advancedOver l.text) back⟩ := by
    rw [hend, show later = _ from scanFrom_eq _ _, pieces_back h]
  rw [hlater, scanFrom_eq, h, tokensOf_append, errorsOf_append, List.append_assoc]
  rfl

/-- A token of a scan cuts its source in front of it and behind it. -/
theorem cut_of_token {origin : Position} {source : Text} {t : Token}
    (ht : t ∈ (scanFrom origin source).tokens) : ∃ before after,
      source = before ++ (t.lexeme ++ after) ∧ t.start = origin.advancedOver before ∧
        t.stop = t.start.advancedOver t.lexeme := by
  rcases mem_tokens_scanFrom.mp ht with ⟨front, l, back, hps, rfl⟩ | rfl
  · exact ⟨textOf front, textOf back, cut_of_pieces hps, rfl, rfl⟩
  · exact ⟨source, [], (List.append_nil source).symm, rfl, rfl⟩

/-- The token that starts between two parts of a source, the second of them not empty, is the
lexeme that the second part begins with. -/
theorem lexeme_of_start {origin : Position} {before s : Text} {t : Token}
    (ht : t ∈ (scanFrom origin (before ++ s)).tokens)
    (hstart : t.start = origin.advancedOver before) (hs : s ≠ []) :
    ∃ front l back, pieces (before ++ s) = front ++ .lexeme l :: back ∧ textOf front = before ∧
      l.text ++ textOf back = s ∧ t = l.placed (origin.advancedOver before) := by
  have hoffset := congrArg Position.offset hstart
  rcases mem_tokens_scanFrom.mp ht with ⟨front, l, back, hps, rfl⟩ | rfl
  · simp only [Lexeme.placed, Position.offset_advancedOver] at hoffset
    obtain ⟨hbefore, hrest⟩ :=
      Text.append_inj_of_byteSize (cut_of_pieces hps) (by omega : before.byteSize = _)
    exact ⟨front, l, back, hps, hbefore.symm, hrest.symm, by rw [hbefore]⟩
  · have := Text.byteSize_pos hs
    simp only [Token.endOfFile, Position.offset_advancedOver, Text.byteSize_append] at hoffset
    omega

/-! ## The errors in a token -/

/-- The errors of a scan that lie in a token. -/
def ScanResult.errorsIn (s : ScanResult) (t : Token) : List LexicalError :=
  s.errors.filter fun e =>
    t.start.offset ≤ e.position.offset ∧ e.position.offset < t.stop.offset

/-- The errors of pieces lie in the text of the pieces, unless a point comes next. -/
theorem WellLaid.errors_before {ps qs : List Piece} (h : WellLaid (ps ++ qs))
    (hpoint : (textOf qs).head? ≠ some '.') {p : Position} {e : LexicalError}
    (he : e ∈ errorsOf p ps) : e.position.offset < p.offset + (textOf ps).byteSize := by
  induction ps generalizing p with
  | nil => cases he
  | cons x ps ih =>
    cases h with
    | cons hx hrest =>
      rw [textOf_cons, Text.byteSize_append]
      rcases List.mem_append.mp he with he | he
      · rcases (hx.error_place he).2 with hlt | ⟨heq, hdot⟩
        · omega
        · cases ps with
          | nil => exact absurd hdot hpoint
          | cons y ps =>
            cases hrest with
            | cons hy _ =>
              have := Text.byteSize_pos hy.text_ne_nil
              rw [textOf_cons, Text.byteSize_append]
              omega
      · have := ih hrest he
        rw [Position.offset_advancedOver] at this
        omega

/-- The errors in a token are the faults of its lexeme. A point, and an integer in front of a
point, are left out here. -/
theorem errorsIn_placed {source : Text} {front back : List Piece} {l : Lexeme}
    (h : pieces source = front ++ .lexeme l :: back) (hk : l.kind ≠ .integerLiteral)
    (hpoint : l.text.head? ≠ some '.') (origin : Position) :
    (scanFrom origin source).errorsIn (l.placed (origin.advancedOver (textOf front))) =
      l.faults.map (Fault.placed (origin.advancedOver (textOf front))) := by
  have hstands := lexeme_stands_of_pieces h
  have hlaid := wellLaid_pieces source
  rw [h] at hlaid
  obtain ⟨c, t, ht, -⟩ := hstands.first
  have hbefore : ∀ e ∈ errorsOf origin front,
      e.position.offset < (origin.advancedOver (textOf front)).offset := by
    intro e he
    rw [Position.offset_advancedOver]
    apply hlaid.errors_before _ he
    rw [textOf_cons, Piece.text, ht, List.cons_append]
    rwa [ht] at hpoint
  have hafter : ∀ e ∈ errorsOf ((origin.advancedOver (textOf front)).advancedOver l.text) back,
      ((origin.advancedOver (textOf front)).advancedOver l.text).offset ≤ e.position.offset := by
    intro e he
    cases hlaid.of_append with
    | cons _ hback => exact ((hback.errors_sorted _).2 e he).1
  simp only [ScanResult.errorsIn, scanFrom_eq, h, errorsOf_append, errorsOf, Piece.errors,
    Piece.text, List.filter_append]
  rw [List.filter_eq_nil_iff.mpr, List.filter_eq_self.mpr, List.filter_eq_nil_iff.mpr,
    List.nil_append, List.append_nil]
  · intro e he hin
    exact Nat.not_lt.mpr (hafter e he) (of_decide_eq_true hin).2
  · intro e he
    obtain ⟨f, hf, rfl⟩ := List.mem_map.mp he
    have := hstands.fault_inside hk hf
    simp only [Lexeme.placed, Fault.offset_placed, Position.offset_advancedOver, decide_eq_true_eq]
    omega
  · intro e he hin
    exact Nat.not_le.mpr (hbefore e he) (of_decide_eq_true hin).1

end Lexis
