-- The law of the lexemes: a lexeme means the same wherever it stands. Tokens of any scans, written
-- on lines of their own and scanned again, come back as they were.
import Lexis.Proofs.Chunks
import Lexis.Proofs.Tiling

namespace Lexis

/-! ## Tokens without their places -/

/-- What a token is, wherever it stands. -/
def Token.content (t : Token) : TokenKind × Text × Option Literal := (t.kind, t.lexeme, t.value)

/-- The tokens of a scan but the end-of-file token. -/
def ScanResult.body (s : ScanResult) : List Token := s.tokens.filter fun t => !t.isEndOfFile

/-- The token is a block comment that its source runs out in. -/
def Token.LeftOpen (t : Token) : Prop :=
  t.kind = .comment ∧ ['/', '*'] <+: t.lexeme ∧ ¬ IsBlockComment t.lexeme

/-- The lexemes of tokens, with a line feed between neighbours. -/
def onLines (ts : List Token) : Text := Text.join ['\n'] (ts.map Token.lexeme)

/-- The lexemes of the tokens are scanned as these tokens again, and no character between them is
an error. -/
structure ScansBack (ts : List Token) : Prop where
  same_tokens : (tokenize (onLines ts)).body.map Token.content = ts.map Token.content
  no_stray : ∀ e ∈ (tokenize (onLines ts)).errors, e.kind ≠ .invalidCharacter

theorem onLines_singleton (t : Token) : onLines [t] = t.lexeme := by
  unfold onLines Text.join
  rw [List.map_singleton, List.intercalate_singleton]

theorem onLines_cons {ts : List Token} (h : ts ≠ []) (t : Token) :
    onLines (t :: ts) = t.lexeme ++ '\n' :: onLines ts := by
  obtain ⟨u, ts, rfl⟩ := List.exists_cons_of_ne_nil h
  unfold onLines Text.join
  rw [List.map_cons, List.map_cons, List.intercalate_cons_cons, List.append_assoc]
  rfl

/-! ## Pieces without their places -/

/-- What the token of a piece is, wherever the piece stands. -/
def Piece.content? : Piece → Option (TokenKind × Text × Option Literal)
  | lexeme l => some (l.kind, l.text, l.value)
  | _ => none

theorem content_tokensOf (p : Position) (ps : List Piece) :
    (tokensOf p ps).map Token.content = ps.filterMap Piece.content? := by
  induction ps generalizing p with
  | nil => rfl
  | cons x ps ih =>
    rw [tokensOf, List.map_append, ih]
    cases x with
    | blank => rfl
    | stray => rfl
    | lexeme l => rfl

theorem body_scanFrom (p : Position) (t : Text) : (scanFrom p t).body = tokensOf p (pieces t) := by
  unfold ScanResult.body
  rw [scanFrom_eq, List.filter_append, filter_tokensOf_pieces]
  exact List.append_nil _

/-- An invalid character is the error of a stray piece. -/
theorem stray_of_error {t : Text} {p : Position} {e : LexicalError}
    (he : e ∈ errorsOf p (pieces t)) (hk : e.kind = .invalidCharacter) :
    ∃ c, .stray c ∈ pieces t := by
  obtain ⟨front, x, back, hps, hx⟩ := mem_errorsOf.mp he
  cases stands_of_pieces hps with
  | blank => cases hx
  | @stray c =>
    rw [hps]
    exact ⟨c, by simp⟩
  | lexeme hl =>
    obtain ⟨f, hf, rfl⟩ := List.mem_map.mp hx
    exact absurd hk (hl.faulty hf p).not_stray

/-! ## Comments that are left open -/

/-- Nothing follows a comment that is left open. -/
theorem Lexeme.Stands.rest_of_leftOpen {l : Lexeme} {rest : Text} {p : Position}
    (h : l.Stands rest) (hopen : (l.placed p).LeftOpen) : rest = [] := by
  obtain ⟨hk, hmarker, hblock⟩ := hopen
  cases h with
  | word => exact absurd hk (wordKind_ne (by simp) (by simp))
  | lineComment =>
    obtain ⟨t, ht⟩ := hmarker
    simp [placed, plain] at ht
  | blockComment hclosed => exact absurd hclosed hblock
  | openComment => rfl
  | _ => cases hk

/-- Only the last token of pieces can be a comment that is left open. -/
theorem WellLaid.closed_before_last {ps : List Piece} (h : WellLaid ps) (p : Position) :
    ∀ t ∈ (tokensOf p ps).dropLast, ¬ t.LeftOpen := by
  induction h generalizing p with
  | nil => intro t ht; cases ht
  | @cons x ps hx hps ih =>
    cases hx with
    | blank => exact ih _
    | stray => exact ih _
    | @lexeme l _ hl =>
      have hcons : tokensOf p (.lexeme l :: ps) =
          l.placed p :: tokensOf (p.advancedOver l.text) ps := rfl
      intro t ht hopen
      rw [hcons] at ht
      by_cases hlast : tokensOf (p.advancedOver l.text) ps = []
      · rw [hlast] at ht
        cases ht
      · rw [List.dropLast_cons_of_ne_nil hlast] at ht
        rcases List.mem_cons.mp ht with rfl | ht
        · have hrest := hl.rest_of_leftOpen hopen
          cases hps with
          | nil => exact hlast rfl
          | cons hy _ => exact hy.text_ne_nil (List.append_eq_nil_iff.mp hrest).1
        · exact ih _ t ht hopen

/-! ## Lexemes on lines of their own -/

/-- The token comes from some scan, and does not end it. -/
def Token.Scanned (t : Token) : Prop := ∃ origin source, t ∈ (scanFrom origin source).body

/-- A token of any scan can stand at the end of a line. -/
theorem Token.Scanned.at_line_end {t : Token} (h : t.Scanned) {rest : Text}
    (hend : Stops (· ≠ '\n') rest) (hopen : t.LeftOpen → rest = []) :
    ∃ l : Lexeme, l.Stands rest ∧ l.text = t.lexeme ∧
      (Piece.lexeme l).content? = some t.content := by
  obtain ⟨origin, source, ht⟩ := h
  rw [body_scanFrom] at ht
  obtain ⟨front, l, back, hps, rfl⟩ := mem_tokensOf.mp ht
  have hl := lexeme_stands_of_pieces hps
  obtain ⟨l', hl', hkind, htext, hvalue⟩ := hl.at_line_end hend (by
    rintro u rfl
    apply hopen
    rcases hl.of_comment rfl with ⟨v, hv⟩ | ⟨hv, -⟩ | ⟨v, hv, hblock⟩
    · cases hv
    · cases hv
    · cases hv
      exact ⟨rfl, ⟨v, rfl⟩, hblock _ (List.prefix_refl _)⟩)
  refine ⟨l', hl', htext, ?_⟩
  rw [Piece.content?, hkind, htext, hvalue]
  rfl

/-- The pieces of lexemes on lines are the lexemes, and the line feeds between them. -/
theorem pieces_onLines {ts : List Token} (hts : ∀ t ∈ ts, t.Scanned)
    (hclosed : ∀ t ∈ ts.dropLast, ¬ t.LeftOpen) : ∃ ps, pieces (onLines ts) = ps ∧
      ps.filterMap Piece.content? = ts.map Token.content ∧ ∀ c, .stray c ∉ ps := by
  simp only [pieces_iff]
  induction ts with
  | nil => exact ⟨[], ⟨rfl, .nil⟩, rfl, fun _ => List.not_mem_nil⟩
  | cons t ts ih =>
    have ht : t.Scanned := hts t List.mem_cons_self
    by_cases hlast : ts = []
    · subst hlast
      obtain ⟨l, hl, htext, hcontent⟩ := ht.at_line_end (stops_nil _) (fun _ => rfl)
      refine ⟨[.lexeme l], ⟨?_, .cons (.lexeme hl) .nil⟩, ?_, by simp⟩
      · rw [onLines_singleton, ← htext]
        exact List.append_nil _
      · simp [hcontent]
    · rw [List.dropLast_cons_of_ne_nil hlast] at hclosed
      obtain ⟨ps, ⟨htextOf, hlaid⟩, hcontents, hstray⟩ :=
        ih (fun u hu => hts u (List.mem_cons_of_mem _ hu))
          (fun u hu => hclosed u (List.mem_cons_of_mem _ hu))
      have hline : Stops (· ≠ '\n') ('\n' :: onLines ts) := stops_cons_iff.mpr (by decide)
      obtain ⟨l, hl, htext, hcontent⟩ := ht.at_line_end hline
        (fun hopen => absurd hopen (hclosed t List.mem_cons_self))
      have hafter : textOf (.blank '\n' :: ps) = '\n' :: onLines ts := by
        rw [textOf_cons, htextOf]
        rfl
      refine ⟨.lexeme l :: .blank '\n' :: ps, ⟨?_, ?_⟩, ?_, ?_⟩
      · rw [onLines_cons hlast, textOf_cons, hafter, Piece.text, htext]
      · rw [← hafter] at hl
        exact .cons (.lexeme hl) (.cons (.blank (by decide)) hlaid)
      · rw [List.filterMap_cons_some hcontent, List.filterMap_cons_none rfl, hcontents,
          List.map_cons]
      · simpa using hstray

theorem scansBack_of_scanned {ts : List Token} (hts : ∀ t ∈ ts, t.Scanned)
    (hclosed : ∀ t ∈ ts.dropLast, ¬ t.LeftOpen) : ScansBack ts := by
  obtain ⟨ps, hps, hcontents, hstray⟩ := pieces_onLines hts hclosed
  constructor
  · rw [tokenize, body_scanFrom, content_tokensOf, hps, hcontents]
  · intro e he hk
    rw [errors_tokenize] at he
    obtain ⟨c, hc⟩ := stray_of_error he hk
    rw [hps] at hc
    exact hstray c hc

/-- Tokens of any scans, taken in any order and written on lines of their own, are scanned as
themselves. Only a comment that is left open has to come last. So a scan, written on lines and
scanned again, gives the same tokens, and each of its lexemes alone gives its token. -/
theorem lexemes_are_context_independent :
    (∀ ts : List Token, (∀ t ∈ ts, t.Scanned) → (∀ t ∈ ts.dropLast, ¬ t.LeftOpen) →
      ScansBack ts) ∧
    ∀ (origin : Position) (source : Text),
      ScansBack (scanFrom origin source).body ∧
        ∀ t ∈ (scanFrom origin source).body, ScansBack [t] := by
  refine ⟨fun ts hts hclosed => scansBack_of_scanned hts hclosed, ?_⟩
  intro origin source
  have hscanned : ∀ t ∈ (scanFrom origin source).body, t.Scanned :=
    fun t ht => ⟨origin, source, ht⟩
  constructor
  · apply scansBack_of_scanned hscanned
    rw [body_scanFrom]
    exact (wellLaid_pieces source).closed_before_last origin
  · intro t ht
    apply scansBack_of_scanned
    · intro u hu
      rw [List.mem_singleton.mp hu]
      exact hscanned t ht
    · intro u hu
      cases hu

theorem five_lexemes_of_five_scans_come_back :
    let word : Token := ⟨.identifier, "x".toList, ⟨1, 1, 0⟩, ⟨1, 2, 1⟩, none⟩
    let digits : Token := ⟨.integerLiteral, "1".toList, ⟨1, 1, 0⟩, ⟨1, 2, 1⟩, some (.integer 1)⟩
    let cut : Token := ⟨.stringLiteral, "'a\\".toList, ⟨1, 1, 0⟩, ⟨1, 4, 3⟩,
      some (.string "a\\".toList)⟩
    let slash : Token := ⟨.operator .div, "/".toList, ⟨1, 1, 0⟩, ⟨1, 2, 1⟩, none⟩
    let half : Token := ⟨.comment, "/* \n".toList, ⟨1, 1, 0⟩, ⟨2, 1, 4⟩, none⟩
    let ts := [word, digits, cut, slash, half]
    (∀ t ∈ ts, t.Scanned) ∧ (∀ t ∈ ts.dropLast, ¬ t.LeftOpen) ∧ ScansBack ts := by
  intro word digits cut slash half ts
  have hword : word ∈ (scanFrom .start "x+y".toList).body := by decide +kernel
  have hdigits : digits ∈ (scanFrom .start "1..2".toList).body := by decide +kernel
  have hcut : cut ∈ (scanFrom .start "'a\\\n'".toList).body := by decide +kernel
  have hslash : slash ∈ (scanFrom .start "/ /*".toList).body := by decide +kernel
  have hhalf : half ∈ (scanFrom .start "/* \n".toList).body := by decide +kernel
  have hts : ∀ t ∈ ts, t.Scanned := by
    intro t ht
    simp only [ts, List.mem_cons, List.not_mem_nil, or_false] at ht
    rcases ht with rfl | rfl | rfl | rfl | rfl
    · exact ⟨_, _, hword⟩
    · exact ⟨_, _, hdigits⟩
    · exact ⟨_, _, hcut⟩
    · exact ⟨_, _, hslash⟩
    · exact ⟨_, _, hhalf⟩
  have hclosed : ∀ t ∈ ts.dropLast, ¬ t.LeftOpen := by
    have hkind : ∀ t ∈ ts.dropLast, t.kind ≠ .comment := by decide
    exact fun t ht hopen => hkind t ht hopen.1
  exact ⟨hts, hclosed, lexemes_are_context_independent.1 ts hts hclosed⟩

end Lexis
