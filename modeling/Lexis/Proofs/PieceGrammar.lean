-- The pieces of a text are the one way to cut it by the lexical grammar. So
-- what holds of every cut by the grammar holds of every scan.
import Lexis.Proofs.Layout
import Lexis.Proofs.LexicalGrammar

namespace Lexis

/-! ## The grammar -/

/-- A piece as it may stand in a source, given the text after it. -/
inductive Piece.Stands : Piece → Text → Prop
  | blank {c : Char} {rest : Text} : isBlank c → Stands (.blank c) rest
  | stray {c : Char} {rest : Text} : isBlank c = false → c.isDigit = false →
      isWordStart c = false → ¬ IsQuote c → Punctuation.ofChar? c = none →
      (∀ o : Operator, ¬ o.spelling <+: c :: rest) → Stands (.stray c) rest
  | lexeme {l : Lexeme} {rest : Text} : l.Stands rest → Stands (.lexeme l) rest

/-- Each piece stands in front of the text of the pieces after it. -/
inductive WellLaid : List Piece → Prop
  | nil : WellLaid []
  | cons {x : Piece} {ps : List Piece} : x.Stands (textOf ps) → WellLaid ps → WellLaid (x :: ps)

/-! ## The one way to cut a text -/

theorem Piece.Stands.text_ne_nil {x : Piece} {rest : Text} (h : x.Stands rest) : x.text ≠ [] := by
  cases h with
  | blank => exact List.cons_ne_nil _ _
  | stray => exact List.cons_ne_nil _ _
  | lexeme hl =>
    obtain ⟨c, t, ht, -⟩ := hl.first
    rw [Piece.text, ht]
    exact List.cons_ne_nil _ _

theorem stands_readPiece (c : Char) (r : Text) : (readPiece c r).1.Stands (readPiece c r).2 := by
  unfold readPiece
  split
  · rename_i hb; exact .blank hb
  · rename_i hb
    split
    · rename_i h; exact .lexeme (stands_readLexeme? h)
    · rename_i h
      obtain ⟨hd, hw, hquote, hp, ho⟩ := readLexeme?_eq_none_iff.mp h
      exact .stray (by simpa using hb) hd hw hquote hp ho

theorem readPiece_of_stands {x : Piece} {rest r : Text} {c : Char} (h : x.Stands rest)
    (ht : x.text ++ rest = c :: r) : readPiece c r = (x, rest) := by
  cases h with
  | blank hb =>
    cases ht
    simp [readPiece, hb]
  | stray hb hd hw hquote hp ho =>
    cases ht
    have hnone := readLexeme?_eq_none_iff.mpr ⟨hd, hw, hquote, hp, ho⟩
    simp [readPiece, hb, hnone]
  | lexeme hl =>
    obtain ⟨d, t, hdt, hb⟩ := hl.first
    have hc : d = c := by
      rw [Piece.text, hdt, List.cons_append, List.cons.injEq] at ht
      exact ht.1
    rw [hc] at hb
    simp [readPiece, hb, readLexeme?_of_stands hl ht]

theorem wellLaid_pieces (t : Text) : WellLaid (pieces t) := by
  fun_induction pieces t with
  | case1 => exact .nil
  | case2 c r found ih =>
    refine .cons ?_ ih
    rw [textOf_pieces]
    exact stands_readPiece c r

/-- The pieces of a text are the one way to cut it by the grammar. -/
theorem pieces_iff {t : Text} {ps : List Piece} : pieces t = ps ↔ textOf ps = t ∧ WellLaid ps := by
  constructor
  · rintro rfl
    exact ⟨textOf_pieces t, wellLaid_pieces t⟩
  · rintro ⟨rfl, h⟩
    induction h with
    | nil => simp [pieces]
    | @cons x ps hx _ ih =>
      obtain ⟨c, r, hcr⟩ : ∃ c r, x.text ++ textOf ps = c :: r := by
        obtain ⟨c, t, ht⟩ := List.exists_cons_of_ne_nil hx.text_ne_nil
        exact ⟨c, t ++ textOf ps, by rw [ht, List.cons_append]⟩
      rw [textOf_cons, hcr, pieces, readPiece_of_stands hx hcr]
      simp only [ih]

theorem WellLaid.of_append {front back : List Piece} (h : WellLaid (front ++ back)) :
    WellLaid back := by
  induction front with
  | nil => exact h
  | cons x front ih =>
    cases h with
    | cons _ hrest => exact ih hrest

/-- A piece of a text stands in front of the text of the pieces after it. -/
theorem stands_of_pieces {t : Text} {front back : List Piece} {x : Piece}
    (h : pieces t = front ++ x :: back) : x.Stands (textOf back) := by
  have hlaid := wellLaid_pieces t
  rw [h] at hlaid
  cases hlaid.of_append with
  | cons hx _ => exact hx

theorem lexeme_stands_of_pieces {t : Text} {front back : List Piece} {l : Lexeme}
    (h : pieces t = front ++ .lexeme l :: back) : l.Stands (textOf back) := by
  cases stands_of_pieces h with
  | lexeme hl => exact hl

/-! ## The tokens of a source -/

/-- The text that follows a token in its source. -/
def Follows (source : Text) (t : Token) (rest : Text) : Prop :=
  ∃ upTo, source.splitAt? t.stop.offset = some (upTo, rest)

theorem Follows.unique {source rest rest' : Text} {t : Token} (h : Follows source t rest)
    (h' : Follows source t rest') : rest = rest' := by
  obtain ⟨upTo, hcut⟩ := h
  obtain ⟨upTo', hcut'⟩ := h'
  rw [hcut, Option.some.injEq, Prod.mk.injEq] at hcut'
  exact hcut'.2

theorem follows_placed (before : Text) (l : Lexeme) (rest : Text) :
    Follows (before ++ (l.text ++ rest)) (l.placed (Position.start.advancedOver before)) rest := by
  refine ⟨before ++ l.text, ?_⟩
  rw [l.stop_placed, ← List.append_assoc]
  exact Text.splitAt?_append _ _

/-- A token of a scan is a lexeme where the pieces in front of it stop, or the last token. -/
theorem mem_tokens_scanFrom {origin : Position} {source : Text} {t : Token} :
    t ∈ (scanFrom origin source).tokens ↔
      (∃ front l back, pieces source = front ++ .lexeme l :: back ∧
        t = l.placed (origin.advancedOver (textOf front))) ∨
      t = Token.endOfFile (origin.advancedOver source) := by
  rw [scanFrom_eq, List.mem_append, mem_tokensOf, List.mem_singleton]

theorem lexeme_of_mem_tokens {origin : Position} {source : Text} {t : Token}
    (ht : t ∈ (scanFrom origin source).tokens) (hk : t.kind ≠ .endOfFile) :
    ∃ front l back, pieces source = front ++ .lexeme l :: back ∧
      t = l.placed (origin.advancedOver (textOf front)) := by
  rcases mem_tokens_scanFrom.mp ht with h | rfl
  · exact h
  · exact absurd rfl hk

/-- A token is a lexeme that stands in the source, and brings the faults of the lexeme along. -/
theorem lexeme_of_token {source : Text} {t : Token} (ht : t ∈ (tokenize source).tokens)
    (hk : t.kind ≠ .endOfFile) : ∃ (before : Text) (l : Lexeme) (rest : Text),
      source = before ++ (l.text ++ rest) ∧
      l.Stands rest ∧ t = l.placed (Position.start.advancedOver before) ∧
      ∀ e ∈ l.faults.map (Fault.placed t.start), e ∈ (tokenize source).errors := by
  obtain ⟨front, l, back, hps, rfl⟩ := lexeme_of_mem_tokens ht hk
  refine ⟨textOf front, l, textOf back, cut_of_pieces hps, lexeme_stands_of_pieces hps, rfl, ?_⟩
  intro e he
  rw [errors_tokenize]
  exact mem_errorsOf.mpr ⟨front, .lexeme l, back, hps, he⟩

end Lexis
