-- The law of the comments: at a comment marker the lexer reads what the nested grammar says, and
-- reports a comment that the text runs out in.
import Lexis.Proofs.TokenPlaces

namespace Lexis

/-! ## What a comment is -/

/-- The comment with a text at a position. -/
def commentAt (p : Position) (text : Text) : Token := (Lexeme.plain .comment text).placed p

/-- What the grammar says about the token that starts at the second part of a source. -/
structure FollowsGrammar (origin : Position) (before s : Text) (t : Token) : Prop where
  block : ∀ b, b <+: s → IsBlockComment b → t = commentAt (origin.advancedOver before) b ∧
    (scanFrom origin (before ++ s)).errorsIn t = [] ∧ ∀ b', b' <+: s → IsBlockComment b' → b' = b
  unclosed : ['/', '*'] <+: s → (∀ b, b <+: s → ¬ IsBlockComment b) →
    t = commentAt (origin.advancedOver before) s ∧
    (scanFrom origin (before ++ s)).errorsIn t = [⟨.unterminatedComment, t.start, s⟩] ∧
    ∃ tokens errors, scanFrom origin (before ++ s) =
      ⟨tokens ++ [t, Token.endOfFile t.stop], errors ++ [⟨.unterminatedComment, t.start, s⟩]⟩
  line : ['/', '/'] <+: s → ∃ text, t = commentAt (origin.advancedOver before) text ∧
    (scanFrom origin (before ++ s)).errorsIn t = [] ∧ text <+: s ∧ '\n' ∉ text ∧
    ∀ longer, longer <+: s → '\n' ∉ longer → longer <+: text

/-! ## Reading at a marker -/

/-- The token that starts at a comment marker is what the reader of comments finds. -/
theorem token_of_comment {origin : Position} {before r : Text} {c : Char} {t : Token}
    {l : Lexeme} {rest : Text} (ht : t ∈ (scanFrom origin (before ++ c :: r)).tokens)
    (hstart : t.start = origin.advancedOver before) (hread : readLexeme? c r = some (l, rest))
    (hk : l.kind ≠ .integerLiteral) (hc : c ≠ '.') :
    t = l.placed (origin.advancedOver before) ∧
      (scanFrom origin (before ++ c :: r)).errorsIn t =
        l.faults.map (Fault.placed (origin.advancedOver before)) ∧
      ∃ tokens errors, scanFrom origin (before ++ c :: r) =
        (scanFrom t.stop rest).after (tokens ++ [t])
          (errors ++ l.faults.map (Fault.placed (origin.advancedOver before))) := by
  obtain ⟨front, l', back, hps, hbefore, hs, rfl⟩ :=
    lexeme_of_start ht hstart (List.cons_ne_nil c r)
  have hstands := lexeme_stands_of_pieces hps
  have hsame := (readLexeme?_of_stands hstands hs).symm.trans hread
  simp only [Option.some.injEq, Prod.mk.injEq] at hsame
  obtain ⟨rfl, rfl⟩ := hsame
  subst hbefore
  refine ⟨rfl, ?_, ?_⟩
  · apply errorsIn_placed hps hk
    obtain ⟨d, text, htext, -⟩ := hstands.first
    rw [htext, List.cons_append, List.cons.injEq] at hs
    rw [htext, hs.1]
    exact fun hp => hc (Option.some.inj hp)
  · refine ⟨tokensOf origin front, errorsOf origin front, ?_⟩
    rw [scanFrom_at_lexeme hps origin]
    simp [ScanResult.after, Lexeme.placed]

theorem readLexeme?_of_block {b rest s : Text} (h : IsBlockComment b) (hs : b ++ rest = s) :
    ∃ r, s = '/' :: r ∧ readLexeme? '/' r = some (.plain .comment b, rest) := by
  obtain ⟨u, rfl, -⟩ := id h
  refine ⟨'*' :: (u ++ rest), hs.symm, ?_⟩
  exact congrArg some (readBlockComment_of_isBlockComment h rfl)

/-- A front of a text without line feeds is a front of the line that the text begins with. -/
theorem prefix_takeWhile {p : Char → Bool} {front s : Text} (h : front <+: s)
    (hp : ∀ x ∈ front, p x) : front <+: s.takeWhile p := by
  obtain ⟨rest, rfl⟩ := h
  rw [List.takeWhile_append_of_pos hp]
  exact List.prefix_append _ _

/-! ## The three kinds of comments -/

section

variable {origin : Position} {before s : Text} {t : Token}

theorem block_is_read (ht : t ∈ (scanFrom origin (before ++ s)).tokens)
    (hstart : t.start = origin.advancedOver before) {b : Text} (hb : b <+: s)
    (hblock : IsBlockComment b) : t = commentAt (origin.advancedOver before) b ∧
      (scanFrom origin (before ++ s)).errorsIn t = [] := by
  obtain ⟨rest, hs⟩ := hb
  obtain ⟨r, rfl, hread⟩ := readLexeme?_of_block hblock hs
  obtain ⟨htoken, herrors, -⟩ :=
    token_of_comment ht hstart hread (fun hk => by cases hk) (by decide)
  exact ⟨htoken, herrors⟩

/-- Of the fronts of a text only one is a whole block comment. -/
theorem block_unique {b b' : Text} (hb : b <+: s) (hblock : IsBlockComment b) (hb' : b' <+: s)
    (hblock' : IsBlockComment b') : b' = b := by
  obtain ⟨rest, hs⟩ := hb
  obtain ⟨rest', hs'⟩ := hb'
  obtain ⟨r, hr, hread⟩ := readLexeme?_of_block hblock hs
  obtain ⟨r', hr', hread'⟩ := readLexeme?_of_block hblock' hs'
  rw [hr, List.cons.injEq] at hr'
  rw [← hr'.2, hread] at hread'
  exact (congrArg (fun found => found.1.text) (Option.some.inj hread')).symm

theorem unclosed_is_reported (ht : t ∈ (scanFrom origin (before ++ s)).tokens)
    (hstart : t.start = origin.advancedOver before) (hs : ['/', '*'] <+: s)
    (hopen : ∀ b, b <+: s → ¬ IsBlockComment b) :
    t = commentAt (origin.advancedOver before) s ∧
    (scanFrom origin (before ++ s)).errorsIn t = [⟨.unterminatedComment, t.start, s⟩] ∧
    ∃ tokens errors, scanFrom origin (before ++ s) =
      ⟨tokens ++ [t, Token.endOfFile t.stop], errors ++ [⟨.unterminatedComment, t.start, s⟩]⟩ := by
  obtain ⟨r, rfl⟩ := hs
  have hread : readLexeme? '/' ('*' :: r) = some (openComment ('/' :: '*' :: r), []) :=
    congrArg some (readBlockComment_open hopen)
  obtain ⟨htoken, herrors, tokens, errors, hscan⟩ :=
    token_of_comment ht hstart hread (fun hk => by cases hk) (by decide)
  have hfault : (openComment ('/' :: '*' :: r)).faults.map
      (Fault.placed (origin.advancedOver before)) =
        [⟨.unterminatedComment, t.start, '/' :: '*' :: r⟩] := by
    rw [htoken]
    rfl
  rw [hfault] at herrors hscan
  refine ⟨htoken, herrors, tokens, errors, ?_⟩
  rw [scanFrom_nil] at hscan
  simpa [ScanResult.after] using hscan

theorem line_is_read (ht : t ∈ (scanFrom origin (before ++ s)).tokens)
    (hstart : t.start = origin.advancedOver before) (hs : ['/', '/'] <+: s) :
    t = commentAt (origin.advancedOver before) (s.takeWhile (· ≠ '\n')) ∧
      (scanFrom origin (before ++ s)).errorsIn t = [] := by
  obtain ⟨r, rfl⟩ := hs
  have hread : readLexeme? '/' ('/' :: r) = some (readLineComment r) := rfl
  obtain ⟨htoken, herrors, -⟩ :=
    token_of_comment ht hstart hread (fun hk => by cases hk) (by decide)
  exact ⟨htoken, herrors⟩

end

/-! ## Comments follow the grammar -/

/-- A text that begins with a comment marker begins with a token. -/
theorem token_at_marker (origin : Position) {s : Text}
    (h : ['/', '/'] <+: s ∨ ['/', '*'] <+: s) :
    ∃ t ∈ (scanFrom origin s).tokens, t.start = origin := by
  have hread : ∃ r l rest, s = '/' :: r ∧ readLexeme? '/' r = some (l, rest) := by
    rcases h with ⟨r, rfl⟩ | ⟨r, rfl⟩
    · exact ⟨_, _, _, rfl, rfl⟩
    · exact ⟨_, _, _, rfl, rfl⟩
  obtain ⟨r, l, rest, rfl, hread⟩ := hread
  have hpiece : readPiece '/' r = (.lexeme l, rest) := by simp [readPiece, hread, isBlank]
  have hps : pieces ('/' :: r) = [] ++ .lexeme l :: pieces rest := by
    rw [pieces, hpiece]
    rfl
  exact ⟨l.placed origin, mem_tokens_scanFrom.mpr (.inl ⟨[], l, _, hps, rfl⟩), rfl⟩

/-- Wherever a token starts at a comment marker, it is the comment that the grammar finds there,
and a text that begins with a marker begins with such a token. -/
theorem comments_follow_the_grammar :
    (∀ (origin : Position) (s : Text), ['/', '/'] <+: s ∨ ['/', '*'] <+: s →
      ∃ t ∈ (scanFrom origin s).tokens, t.start = origin) ∧
    ∀ (origin : Position) (before s : Text), ∀ t ∈ (scanFrom origin (before ++ s)).tokens,
      t.start = origin.advancedOver before → FollowsGrammar origin before s t := by
  refine ⟨fun origin s h => token_at_marker origin h, ?_⟩
  intro origin before s t ht hstart
  refine
    { block := ?_
      unclosed := fun hs hopen => unclosed_is_reported ht hstart hs hopen
      line := ?_ }
  · intro b hb hblock
    obtain ⟨htoken, herrors⟩ := block_is_read ht hstart hb hblock
    exact ⟨htoken, herrors, fun b' hb' hblock' => block_unique hb hblock hb' hblock'⟩
  · intro hs
    obtain ⟨htoken, herrors⟩ := line_is_read ht hstart hs
    refine ⟨_, htoken, herrors, List.takeWhile_prefix _, ?_, ?_⟩
    · intro hmem
      simpa using List.mem_takeWhile_imp hmem
    · intro longer hlonger hn
      apply prefix_takeWhile hlonger
      intro x hx
      exact decide_eq_true (fun hnewline => hn (hnewline ▸ hx))

theorem a_nested_comment_and_an_open_one :
    let origin : Position := ⟨2, 5, 9⟩
    let block := "/*/**/*/".toList
    let closed : Token := ⟨.comment, block, ⟨2, 7, 11⟩, ⟨2, 15, 19⟩, none⟩
    let half := "/* a\n/* b */".toList
    let unclosed : Token := ⟨.comment, half, ⟨2, 6, 10⟩, ⟨3, 8, 22⟩, none⟩
    (closed ∈ (scanFrom origin "@ /*/**/*/ */".toList).tokens ∧
      closed.start = origin.advancedOver ['@', ' '] ∧ IsBlockComment block ∧
      FollowsGrammar origin ['@', ' '] "/*/**/*/ */".toList closed) ∧
    unclosed ∈ (scanFrom origin ('1' :: half)).tokens ∧
      unclosed.start = origin.advancedOver ['1'] ∧ (∀ b, b <+: half → ¬ IsBlockComment b) ∧
      FollowsGrammar origin ['1'] half unclosed := by
  intro origin block closed half unclosed
  have hclosed : closed ∈ (scanFrom origin "@ /*/**/*/ */".toList).tokens := by decide +kernel
  have hblock : IsBlockComment block := ⟨_, rfl, .nested .done .done⟩
  have hunclosed : unclosed ∈ (scanFrom origin ('1' :: half)).tokens := by decide +kernel
  have hopen : ∀ b, b <+: half → ¬ IsBlockComment b :=
    rest_readBlockBody_eq_none_iff.mp (by decide)
  exact ⟨⟨hclosed, rfl, hblock,
      comments_follow_the_grammar.2 origin ['@', ' '] _ closed hclosed rfl⟩,
    hunclosed, rfl, hopen, comments_follow_the_grammar.2 origin ['1'] half unclosed hunclosed rfl⟩

end Lexis
