-- The law of the chunks: a source that is cut at line ends, outside of block
-- comments, gives chunk by chunk what it gives as a whole.
import Lexis.Proofs.LexerRun
import Lexis.Proofs.LineEnds

namespace Lexis

/-! ## Chunk by chunk -/

/-- Drains a lexer of its own for each chunk, from where the text before the chunk ends. -/
def lexChunks (before : Text) : List Text → List ScanResult
  | [] => []
  | chunk :: rest =>
    let run := (Lexer.withOrigin (Position.start.advancedOver before) chunk).drain
    ⟨run.1, run.2.errors⟩ :: lexChunks (before ++ chunk) rest

/-- The results of chunks as one. Only the last chunk keeps its end-of-file token. -/
def ScanResult.joined : List ScanResult → ScanResult
  | [] => ⟨[], []⟩
  | [s] => s
  | s :: rest => (joined rest).after (s.tokens.filter fun t => !t.isEndOfFile) s.errors

/-- The text is empty or ends with a line feed. -/
def EndsLine (t : Text) : Prop := t = [] ∨ t.getLast? = some '\n'

instance (t : Text) : Decidable (EndsLine t) := inferInstanceAs (Decidable (_ ∨ _))

/-- The text runs out in a block comment. -/
def LeavesCommentOpen (t : Text) : Prop :=
  ∃ e ∈ (tokenize t).errors, e.kind = .unterminatedComment

instance (t : Text) : Decidable (LeavesCommentOpen t) :=
  inferInstanceAs (Decidable (∃ e ∈ (tokenize t).errors, e.kind = .unterminatedComment))

theorem lexChunks_eq_scanChunks (before : Text) (chunks : List Text) :
    lexChunks before chunks = scanChunks (Position.start.advancedOver before) chunks := by
  induction chunks generalizing before with
  | nil => rfl
  | cons chunk chunks ih =>
    rw [lexChunks, scanChunks, ih, Lexer.tokens_drain_withOrigin, Lexer.errors_drain_withOrigin,
      Position.advancedOver_append]

/-! ## The pieces of a text that ends a line -/

/-- More text after a line changes no piece of the line. -/
theorem Piece.Stands.append {x : Piece} {rest : Text} (h : x.Stands rest)
    (hlast : (x.text ++ rest).getLast? = some '\n') (hopen : ∀ t, x ≠ .lexeme (openComment t))
    (more : Text) : x.Stands (rest ++ more) := by
  by_cases hrest : rest = []
  · -- The piece itself ends the line.
    rw [hrest, List.append_nil] at hlast
    have hmem := List.mem_of_getLast? hlast
    cases h with
    | blank hb => exact .blank hb
    | stray hb =>
      rw [← List.mem_singleton.mp hmem] at hb
      cases hb
    | lexeme hl =>
      rcases hl.of_line_feed hmem with hany | ⟨t, rfl⟩
      · exact .lexeme (hany _)
      · exact absurd rfl (hopen t)
  · -- A line feed is still to come, and no piece looks past it.
    rw [List.getLast?_append_of_ne_nil _ hrest] at hlast
    have hdot : rest ≠ ['.'] := by
      rintro rfl
      cases hlast
    cases h with
    | blank hb => exact .blank hb
    | stray hb hd hw hquote hp ho =>
      refine .stray hb hd hw hquote hp fun o ho' => ho o ?_
      exact (looksLike_append hrest hdot more).operator (List.cons_ne_nil _ []) o ho'
    | lexeme hl => exact .lexeme (hl.append hrest hdot more)

theorem WellLaid.append {ps qs : List Piece} (hqs : WellLaid qs)
    (hps : ∀ front x back, ps = front ++ x :: back → x.Stands (textOf back ++ textOf qs)) :
    WellLaid (ps ++ qs) := by
  induction ps with
  | nil => exact hqs
  | cons x ps ih =>
    refine .cons ?_ (ih ?_)
    · have hx := hps [] x ps rfl
      rwa [← textOf_append] at hx
    · rintro front y back rfl
      exact hps (x :: front) y back rfl

/-- A cut at the end of a line, outside of block comments, cuts no piece. -/
theorem pieces_append {a : Text} (hline : EndsLine a) (hclosed : ¬ LeavesCommentOpen a)
    (b : Text) : pieces (a ++ b) = pieces a ++ pieces b := by
  apply pieces_iff.mpr
  refine ⟨by rw [textOf_append, textOf_pieces, textOf_pieces], ?_⟩
  apply (wellLaid_pieces b).append
  intro front x back hps
  have hx := stands_of_pieces hps
  have hne : x.text ++ textOf back ≠ [] := by simp [hx.text_ne_nil]
  apply hx.append
  · have ha := cut_of_pieces hps
    rcases hline with rfl | hlast
    · exact absurd (List.append_eq_nil_iff.mp ha.symm).2 hne
    · rwa [ha, List.getLast?_append_of_ne_nil _ hne] at hlast
  · rintro t rfl
    apply hclosed
    refine ⟨⟨.unterminatedComment, Position.start.advancedOver (textOf front), t⟩, ?_, rfl⟩
    rw [errors_tokenize, mem_errorsOf]
    exact ⟨front, _, back, hps, List.mem_map.mpr ⟨_, List.mem_singleton_self _, rfl⟩⟩

/-! ## Scans of a text in two parts -/

theorem filter_tokensOf_pieces (p : Position) (t : Text) :
    (tokensOf p (pieces t)).filter (fun t => !t.isEndOfFile) = tokensOf p (pieces t) := by
  rw [List.filter_eq_self]
  intro token ht
  obtain ⟨front, l, back, hps, rfl⟩ := mem_tokensOf.mp ht
  rw [(lexeme_stands_of_pieces hps).isEndOfFile_placed]
  rfl

/-- The scan of a text goes on after its first lines as if they had been scanned alone. -/
theorem scanFrom_append {a : Text} (hline : EndsLine a) (hclosed : ¬ LeavesCommentOpen a)
    (p : Position) (b : Text) : scanFrom p (a ++ b) = (scanFrom (p.advancedOver a) b).after
      ((scanFrom p a).tokens.filter fun t => !t.isEndOfFile) (scanFrom p a).errors := by
  simp only [scanFrom_eq, ScanResult.after, pieces_append hline hclosed, tokensOf_append,
    errorsOf_append, textOf_pieces, Position.advancedOver_append, List.filter_append,
    filter_tokensOf_pieces, List.append_assoc]
  rfl

/-! ## The whole source -/

theorem ScanResult.joined_cons {rest : List ScanResult} (h : rest ≠ []) (s : ScanResult) :
    joined (s :: rest) =
      (joined rest).after (s.tokens.filter fun t => !t.isEndOfFile) s.errors := by
  cases rest with
  | nil => exact absurd rfl h
  | cons => rfl

theorem scanChunks_ne_nil (p : Position) (front : List Text) (last : Text) :
    scanChunks p (front ++ [last]) ≠ [] := by
  cases front <;> exact List.cons_ne_nil _ _

theorem joined_scanChunks {front : List Text} {last : Text}
    (hlines : ∀ chunk ∈ front, EndsLine chunk)
    (hclosed : ∀ chunk ∈ front, ¬ LeavesCommentOpen chunk) (p : Position) :
    ScanResult.joined (scanChunks p (front ++ [last])) = scanFrom p (front ++ [last]).flatten := by
  induction front generalizing p with
  | nil => simp [scanChunks, ScanResult.joined]
  | cons chunk front ih =>
    have hrest := ih (fun c hc => hlines c (List.mem_cons_of_mem _ hc))
      (fun c hc => hclosed c (List.mem_cons_of_mem _ hc)) (p.advancedOver chunk)
    have hchunk := scanFrom_append (hlines chunk List.mem_cons_self)
      (hclosed chunk List.mem_cons_self) p (front ++ [last]).flatten
    rw [List.cons_append, List.flatten_cons, hchunk, ← hrest, scanChunks,
      ScanResult.joined_cons (scanChunks_ne_nil _ front last)]

/-- Cut a source at line ends, outside of block comments, into any number of chunks. Scanning
them one by one gives the tokens and the errors of the whole. -/
theorem chunks_scan_as_the_whole {front : List Text} {last : Text}
    (hlines : ∀ chunk ∈ front, EndsLine chunk)
    (hclosed : ∀ chunk ∈ front, ¬ LeavesCommentOpen chunk) :
    ScanResult.joined (lexChunks [] (front ++ [last])) = tokenize (front ++ [last]).flatten := by
  rw [lexChunks_eq_scanChunks]
  exact joined_scanChunks hlines hclosed .start

theorem four_chunks_scan_as_the_whole :
    let front := ["/**/ 1.\n".toList, [], "x\\\n\n".toList]
    (∀ chunk ∈ front, EndsLine chunk) ∧ (∀ chunk ∈ front, ¬ LeavesCommentOpen chunk) ∧
      ScanResult.joined (lexChunks [] (front ++ ["'y /*".toList])) =
        tokenize (front ++ ["'y /*".toList]).flatten := by
  intro front
  have hlines : ∀ chunk ∈ front, EndsLine chunk := by decide
  have hclosed : ∀ chunk ∈ front, ¬ LeavesCommentOpen chunk := by decide +kernel
  exact ⟨hlines, hclosed, chunks_scan_as_the_whole hlines hclosed⟩

end Lexis
