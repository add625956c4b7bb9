-- Where the pieces of a text land. A piece stands where the text before it
-- stops, so each token and each error of a scan is known by the pieces in
-- front of its own.
import Lexis.Scan.Tokens

namespace Lexis

/-! ## Offsets into a text -/

namespace Text

/-- Two ways to cut a text at one offset are one way. -/
theorem append_inj_of_byteSize {s s' t t' : Text} (h : s ++ t = s' ++ t')
    (hsize : byteSize s = byteSize s') : s = s' ∧ t = t' := by
  have hs := splitAt?_append s t
  rw [h, hsize, splitAt?_append] at hs
  simp only [Option.some.injEq, Prod.mk.injEq] at hs
  exact ⟨hs.1.symm, hs.2.symm⟩

/-- A cut that falls inside a character, or in front of it, falls in front. -/
theorem eq_of_cut_in_char {s s' t t' : Text} {c d : Char} (h : s ++ c :: t = s' ++ d :: t')
    (hle : byteSize s ≤ byteSize s') (hlt : byteSize s' < byteSize s + c.utf8Size) :
    s' = s ∧ d = c ∧ t' = t := by
  rcases List.append_eq_append_iff.mp h with ⟨m, hs', hm⟩ | ⟨m, hs, hm⟩
  · cases m with
    | nil =>
      simp only [List.append_nil] at hs'
      simp only [List.nil_append, List.cons.injEq] at hm
      exact ⟨hs', hm.1.symm, hm.2.symm⟩
    | cons x m =>
      simp only [List.cons_append, List.cons.injEq] at hm
      obtain ⟨rfl, -⟩ := hm
      simp only [hs', byteSize_append, byteSize_cons] at hlt
      omega
  · have hm0 : m = [] := by
      by_cases hm0 : m = []
      · exact hm0
      · have := byteSize_pos hm0
        simp only [hs, byteSize_append] at hle
        omega
    subst hm0
    simp only [List.append_nil] at hs
    simp only [List.nil_append, List.cons.injEq] at hm
    exact ⟨hs.symm, hm.1, hm.2⟩

end Text

@[simp] theorem Position.offset_advancedOver_start (t : Text) :
    (Position.start.advancedOver t).offset = t.byteSize := by
  rw [offset_advancedOver]
  simp [Position.start]

/-- A lexeme placed after a front starts at the size of the front. -/
theorem Lexeme.start_placed (before : Text) (l : Lexeme) :
    (l.placed (Position.start.advancedOver before)).start.offset = before.byteSize :=
  Position.offset_advancedOver_start before

theorem Lexeme.stop_placed (before : Text) (l : Lexeme) :
    (l.placed (Position.start.advancedOver before)).stop.offset = (before ++ l.text).byteSize := by
  rw [← Position.offset_advancedOver_start (before ++ l.text), Position.advancedOver_append]
  rfl

/-! ## Pieces one after another -/

/-- The text that pieces take. -/
def textOf (ps : List Piece) : Text := ps.flatMap Piece.text

@[simp] theorem textOf_nil : textOf [] = [] := rfl

@[simp] theorem textOf_cons (x : Piece) (ps : List Piece) :
    textOf (x :: ps) = x.text ++ textOf ps := rfl

@[simp] theorem textOf_append (ps qs : List Piece) :
    textOf (ps ++ qs) = textOf ps ++ textOf qs := by
  simp [textOf]

@[simp] theorem textOf_pieces (t : Text) : textOf (pieces t) = t := flatMap_text_pieces t

/-- A piece of a source cuts the source in front of it and behind it. -/
theorem cut_of_pieces {source : Text} {front back : List Piece} {x : Piece}
    (h : pieces source = front ++ x :: back) :
    source = textOf front ++ (x.text ++ textOf back) := by
  rw [← textOf_cons, ← textOf_append, ← h, textOf_pieces]

/-- The tokens that pieces add from a position on, without the end-of-file token. -/
def tokensOf (p : Position) : List Piece → List Token
  | [] => []
  | x :: rest => x.tokens p ++ tokensOf (p.advancedOver x.text) rest

/-- The errors that pieces add from a position on. -/
def errorsOf (p : Position) : List Piece → List LexicalError
  | [] => []
  | x :: rest => x.errors p ++ errorsOf (p.advancedOver x.text) rest

theorem tokens_layOut (p : Position) (ps : List Piece) :
    (layOut p ps).tokens = tokensOf p ps ++ [Token.endOfFile (p.advancedOver (textOf ps))] := by
  induction ps generalizing p with
  | nil => rfl
  | cons x ps ih =>
    simp only [layOut, ScanResult.after, ih, tokensOf, textOf_cons, Position.advancedOver_append,
      List.append_assoc]

theorem errors_layOut (p : Position) (ps : List Piece) :
    (layOut p ps).errors = errorsOf p ps := by
  induction ps generalizing p with
  | nil => rfl
  | cons x ps ih => simp only [layOut, ScanResult.after, ih, errorsOf]

theorem scanFrom_nil (p : Position) : scanFrom p [] = ⟨[Token.endOfFile p], []⟩ := by
  simp [scanFrom, pieces, layOut]

theorem scanFrom_eq (p : Position) (t : Text) : scanFrom p t =
    ⟨tokensOf p (pieces t) ++ [Token.endOfFile (p.advancedOver t)], errorsOf p (pieces t)⟩ := by
  have htokens := tokens_layOut p (pieces t)
  rw [textOf_pieces] at htokens
  rw [← htokens, ← errors_layOut]
  rfl

theorem tokens_tokenize (t : Text) : (tokenize t).tokens =
    tokensOf .start (pieces t) ++ [Token.endOfFile (Position.start.advancedOver t)] := by
  rw [tokenize, scanFrom_eq]

theorem errors_tokenize (t : Text) : (tokenize t).errors = errorsOf .start (pieces t) := by
  rw [tokenize, scanFrom_eq]

theorem tokensOf_append (p : Position) (ps qs : List Piece) :
    tokensOf p (ps ++ qs) = tokensOf p ps ++ tokensOf (p.advancedOver (textOf ps)) qs := by
  induction ps generalizing p with
  | nil => rfl
  | cons x ps ih =>
    simp only [List.cons_append, tokensOf, ih, textOf_cons, Position.advancedOver_append,
      List.append_assoc]

theorem errorsOf_append (p : Position) (ps qs : List Piece) :
    errorsOf p (ps ++ qs) = errorsOf p ps ++ errorsOf (p.advancedOver (textOf ps)) qs := by
  induction ps generalizing p with
  | nil => rfl
  | cons x ps ih =>
    simp only [List.cons_append, errorsOf, ih, textOf_cons, Position.advancedOver_append,
      List.append_assoc]

/-- A token is a lexeme where the pieces in front of it stop. -/
theorem mem_tokensOf {p : Position} {ps : List Piece} {t : Token} :
    t ∈ tokensOf p ps ↔ ∃ front l back, ps = front ++ .lexeme l :: back ∧
      t = l.placed (p.advancedOver (textOf front)) := by
  constructor
  · intro h
    induction ps generalizing p with
    | nil => simp [tokensOf] at h
    | cons x ps ih =>
      simp only [tokensOf, List.mem_append] at h
      rcases h with h | h
      · cases x with
        | blank c => simp [Piece.tokens] at h
        | stray c => simp [Piece.tokens] at h
        | lexeme l =>
          simp only [Piece.tokens, List.mem_singleton] at h
          exact ⟨[], l, ps, rfl, h⟩
      · obtain ⟨front, l, back, hps, ht⟩ := ih h
        refine ⟨x :: front, l, back, by rw [hps, List.cons_append], ?_⟩
        rw [ht, textOf_cons, Position.advancedOver_append]
  · rintro ⟨front, l, back, rfl, rfl⟩
    rw [tokensOf_append]
    simp [tokensOf, Piece.tokens]

/-- An error belongs to a piece, and is placed where the pieces in front of it stop. -/
theorem mem_errorsOf {p : Position} {ps : List Piece} {e : LexicalError} :
    e ∈ errorsOf p ps ↔ ∃ front x back, ps = front ++ x :: back ∧
      e ∈ x.errors (p.advancedOver (textOf front)) := by
  constructor
  · intro h
    induction ps generalizing p with
    | nil => simp [errorsOf] at h
    | cons x ps ih =>
      simp only [errorsOf, List.mem_append] at h
      rcases h with h | h
      · exact ⟨[], x, ps, rfl, h⟩
      · obtain ⟨front, y, back, hps, he⟩ := ih h
        refine ⟨x :: front, y, back, by rw [hps, List.cons_append], ?_⟩
        rw [textOf_cons, Position.advancedOver_append]
        exact he
  · rintro ⟨front, x, back, rfl, he⟩
    rw [errorsOf_append]
    simp [errorsOf, he]

end Lexis
