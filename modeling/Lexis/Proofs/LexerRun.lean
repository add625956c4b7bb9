-- The laws of the lexer on demand. Each call refines one reading of the text
-- ahead, which knows nothing of the source behind the cursor. So a lexer that
-- is run to its end hands out the tokens of a scan of its text, and has found
-- the errors of that scan.
import Lexis.Proofs.PieceGrammar
import Lexis.Scan.Lexer

namespace Lexis

/-! ## One piece -/

theorem ScanResult.after_after (s : ScanResult) (ts ts' : List Token)
    (es es' : List LexicalError) :
    (s.after ts es).after ts' es' = s.after (ts' ++ ts) (es' ++ es) := by
  simp [after]

theorem scanFrom_cons (p : Position) (c : Char) (r : Text) : scanFrom p (c :: r) =
    (scanFrom (p.advancedOver (readPiece c r).1.text) (readPiece c r).2).after
      ((readPiece c r).1.tokens p) ((readPiece c r).1.errors p) := by
  unfold scanFrom
  rw [pieces]
  rfl

theorem Piece.tokens_of_no_lexeme {x : Piece} (h : ∀ l, x = .lexeme l → False) (p : Position) :
    x.tokens p = [] := by
  cases x with
  | blank => rfl
  | stray => rfl
  | lexeme l => exact absurd rfl (h l)

theorem lexeme_stands_readPiece {c : Char} {r : Text} {l : Lexeme}
    (h : (readPiece c r).1 = .lexeme l) : l.Stands (readPiece c r).2 := by
  have hstands := stands_readPiece c r
  rw [h] at hstands
  cases hstands with
  | lexeme hl => exact hl

theorem advancedOver_readPiece (p : Position) (c : Char) (r : Text) :
    (p.advancedOver (readPiece c r).1.text).advancedOver (readPiece c r).2 =
      p.advancedOver (c :: r) := by
  rw [← Position.advancedOver_append, readPiece_append]

/-! ## Reading one token -/

/-- The next token of a text, the errors found on the way to it and in it, and
where the text goes on. -/
structure Advance where
  errors : List LexicalError
  token : Token
  rest : Text
deriving DecidableEq, Repr

/-- Reads pieces up to the first lexeme, or to the end of the text. -/
def nextFrom (p : Position) (t : Text) : Advance :=
  match t with
  | [] => ⟨[], Token.endOfFile p, []⟩
  | c :: r =>
    let found := readPiece c r
    match found.1 with
    | .lexeme l => ⟨l.faults.map (Fault.placed p), l.placed p, found.2⟩
    | piece =>
      let more := nextFrom (p.advancedOver piece.text) found.2
      { more with errors := piece.errors p ++ more.errors }
termination_by t.length
decreasing_by
  have := length_readPiece_le c r
  simp; omega

theorem nextFrom_nil (p : Position) : nextFrom p [] = ⟨[], Token.endOfFile p, []⟩ := by
  rw [nextFrom]

theorem nextFrom_blanks {blanks : Text} (h : ∀ c ∈ blanks, isBlank c = true) (p : Position)
    (t : Text) : nextFrom p (blanks ++ t) = nextFrom (p.advancedOver blanks) t := by
  induction blanks generalizing p with
  | nil => rfl
  | cons c blanks ih =>
    obtain ⟨hc, hblanks⟩ := List.forall_mem_cons.mp h
    have hpiece : readPiece c (blanks ++ t) = (.blank c, blanks ++ t) := if_pos hc
    rw [List.cons_append, nextFrom, hpiece]
    exact ih hblanks _

theorem nextFrom_lexeme {c : Char} {r : Text} {l : Lexeme} {rest : Text} (hc : isBlank c = false)
    (h : readLexeme? c r = some (l, rest)) (p : Position) :
    nextFrom p (c :: r) = ⟨l.faults.map (Fault.placed p), l.placed p, rest⟩ := by
  have hpiece : readPiece c r = (.lexeme l, rest) := by simp [readPiece, hc, h]
  rw [nextFrom, hpiece]

theorem nextFrom_stray {c : Char} {r : Text} (hc : isBlank c = false) (h : readLexeme? c r = none)
    (p : Position) : nextFrom p (c :: r) =
      let more := nextFrom (p.advance c) r
      { more with errors := strayError p c :: more.errors } := by
  have hpiece : readPiece c r = (.stray c, r) := by simp [readPiece, hc, h]
  rw [nextFrom, hpiece]
  rfl

/-! ## A call and a reading -/

namespace Lexer

/-- A call of the lexer does what reading the text ahead does: it passes over a text in front of
the token, and over the token. -/
structure Refines (x : Lexer) (a : Advance) (before : Text) : Prop where
  cut : x.rest = before ++ (a.token.lexeme ++ a.rest)
  start : a.token.start = x.location.advancedOver before
  stop : a.token.stop = a.token.start.advancedOver a.token.lexeme
  call : x.nextToken = (a.token,
    { cursor := x.cursor.past (before ++ a.token.lexeme)
      tokenStart := x.cursor.offset + before.byteSize
      tokenPlace := a.token.start
      errors := x.errors ++ a.errors
      finished := x.finished || a.token.isEndOfFile })

/-- The blanks that are next. -/
def blanks (x : Lexer) : Text := x.rest.takeWhile isBlank

/-- The lexer behind the blanks that are next, where a token may begin. -/
def behindBlanks (x : Lexer) : Lexer := (x.past x.blanks []).markStart

theorem skipBlanks_markStart (x : Lexer) : x.skipBlanks.markStart = x.behindBlanks :=
  congrArg markStart (onCursor_eatWhile isBlank)

theorem marked_behindBlanks (x : Lexer) : x.behindBlanks.Marked := marked_markStart _

theorem rest_behindBlanks (x : Lexer) : x.behindBlanks.rest = x.rest.dropWhile isBlank :=
  Cursor.rest_past (c := x.cursor) List.takeWhile_append_dropWhile.symm

theorem cut_behindBlanks (x : Lexer) :
    x.rest = x.blanks ++ x.behindBlanks.rest := by
  rw [rest_behindBlanks, blanks, List.takeWhile_append_dropWhile]

theorem location_behindBlanks (x : Lexer) :
    x.behindBlanks.location = x.location.advancedOver x.blanks :=
  Cursor.location_past x.blanks x.cursor

theorem behindBlanks_past (x : Lexer) (t : Text) (es : List LexicalError) :
    x.behindBlanks.past t es =
      { cursor := x.cursor.past (x.blanks ++ t)
        tokenStart := x.cursor.offset + x.blanks.byteSize
        tokenPlace := x.behindBlanks.location
        errors := x.errors ++ es
        finished := x.finished } := by
  rw [← Cursor.past_past, ← List.append_nil x.errors]
  rfl

theorem finish_behindBlanks (x : Lexer) : x.behindBlanks.finish =
    { cursor := x.cursor.past x.blanks
      tokenStart := x.cursor.offset + x.blanks.byteSize
      tokenPlace := x.behindBlanks.location
      errors := x.errors
      finished := true } := by
  rw [← List.append_nil x.errors]
  rfl

theorem nextFrom_behindBlanks (x : Lexer) :
    nextFrom x.location x.rest = nextFrom x.behindBlanks.location x.behindBlanks.rest := by
  have hblanks : ∀ c ∈ x.blanks, isBlank c = true :=
    fun c hc => List.all_eq_true.mp List.all_takeWhile c hc
  rw [location_behindBlanks, ← nextFrom_blanks hblanks, ← cut_behindBlanks]

variable {x : Lexer}

theorem nextToken_at_end (h : x.behindBlanks.rest = []) : x.nextToken =
    (Token.endOfFile x.behindBlanks.location, x.behindBlanks.finish) := by
  have hmarked : x.behindBlanks.finish.Marked := ⟨rfl, rfl⟩
  have htoken : (x.behindBlanks.finish.past [] []).makeToken .endOfFile none = _ :=
    makeToken_past hmarked (List.nil_append _).symm .endOfFile none
  rw [past_nil] at htoken
  rw [nextToken, skipBlanks_markStart, dif_pos (Cursor.isAtEnd_of_nil h), htoken]
  rfl

theorem nextToken_lexeme {c : Char} {r rest : Text} {l : Lexeme} (h : x.behindBlanks.rest = c :: r)
    (hl : readLexeme? c r = some (l, rest)) : x.nextToken = x.behindBlanks.taking l := by
  have hhere := lexHere?_eq x.marked_behindBlanks h
  rw [nextToken, skipBlanks_markStart, Cursor.isAtEnd_of_cons h, dif_neg Bool.false_ne_true, hhere,
    hl]
  rfl

theorem nextToken_stray {c : Char} {r : Text} (h : x.behindBlanks.rest = c :: r)
    (hl : readLexeme? c r = none) : x.nextToken =
      (x.behindBlanks.past [c] [strayError x.behindBlanks.location c]).nextToken := by
  have hhere := lexHere?_eq x.marked_behindBlanks h
  rw [nextToken, skipBlanks_markStart, Cursor.isAtEnd_of_cons h, dif_neg Bool.false_ne_true, hhere,
    hl, Option.map_none]
  exact congrArg nextToken (skipStray_eq x.marked_behindBlanks h)

/-- A call that goes on behind a text refines the reading that goes on there. -/
theorem Refines.of_behind {z : Lexer} {passed before : Text} {es : List LexicalError}
    {a : Advance} (h : z.Refines a before) (hcut : x.rest = passed ++ z.rest)
    (hcursor : z.cursor = x.cursor.past passed) (herrors : z.errors = x.errors ++ es)
    (hfinished : z.finished = x.finished) (hcall : x.nextToken = z.nextToken) :
    x.Refines { a with errors := es ++ a.errors } (passed ++ before) where
  cut := by rw [hcut, h.cut, List.append_assoc]
  start := by
    have hlocation : z.location = x.location.advancedOver passed := by
      rw [location, hcursor, Cursor.location_past]
      rfl
    rw [h.start, hlocation, Position.advancedOver_append]
  stop := h.stop
  call := by
    have hoffset : z.cursor.offset = x.cursor.offset + passed.byteSize := by rw [hcursor]; rfl
    rw [hcall, h.call, hoffset, hcursor, herrors, hfinished, Cursor.past_past, List.append_assoc,
      List.append_assoc, Nat.add_assoc, Text.byteSize_append]

/-- Every call refines the reading of the text ahead. -/
theorem exists_refines (x : Lexer) : ∃ before, x.Refines (nextFrom x.location x.rest) before := by
  induction hlength : x.rest.length using Nat.strongRecOn generalizing x with
  | ind n ih =>
  rw [nextFrom_behindBlanks]
  have hcut := x.cut_behindBlanks
  cases hrest : x.behindBlanks.rest with
  | nil =>
    rw [nextFrom_nil]
    refine ⟨x.blanks, ?_, x.location_behindBlanks, rfl, ?_⟩
    · rw [hrest] at hcut
      exact hcut
    · rw [nextToken_at_end hrest, finish_behindBlanks]
      simp [Token.endOfFile, Token.isEndOfFile]
  | cons c r =>
    have hc : isBlank c = false := by
      rw [rest_behindBlanks] at hrest
      have hstop := stops_dropWhile isBlank x.rest
      rw [hrest] at hstop
      exact stops_cons_iff.mp hstop
    cases hl : readLexeme? c r with
    | some found =>
      obtain ⟨l, rest⟩ := found
      obtain ⟨htext, hstands⟩ := readLexeme?_iff.mp hl
      rw [nextFrom_lexeme hc hl]
      refine ⟨x.blanks, ?_, x.location_behindBlanks, rfl, ?_⟩
      · rw [hrest, ← htext] at hcut
        exact hcut
      · have hkind := hstands.isEndOfFile_placed x.behindBlanks.location
        rw [nextToken_lexeme hrest hl, taking, behindBlanks_past, hkind, Bool.or_false]
        rfl
    | none =>
      let z := x.behindBlanks.past [c] [strayError x.behindBlanks.location c]
      have hz : z.rest = r := rest_past hrest
      have hless : z.rest.length < n := by
        have := congrArg List.length hcut
        rw [hrest, List.length_append, List.length_cons] at this
        rw [hz]
        omega
      obtain ⟨before, hmore⟩ := ih _ hless z rfl
      rw [nextFrom_stray hc hl]
      have hfirst : x.rest = (x.blanks ++ [c]) ++ z.rest := by
        rw [hz, List.append_assoc]
        rwa [hrest] at hcut
      refine ⟨(x.blanks ++ [c]) ++ before, ?_⟩
      have herrors : z.errors = x.errors ++ [strayError x.behindBlanks.location c] :=
        congrArg (· ++ _) (List.append_nil x.errors)
      have hlocation : x.behindBlanks.location.advance c = z.location :=
        (Cursor.location_past [c] x.behindBlanks.cursor).symm
      rw [hlocation, ← hz]
      exact hmore.of_behind hfirst (Cursor.past_past _ _ _) herrors rfl (nextToken_stray hrest hl)

/-! ## What a call changes -/

theorem token_nextToken (x : Lexer) : x.nextToken.1 = (nextFrom x.location x.rest).token := by
  obtain ⟨before, href⟩ := x.exists_refines
  rw [href.call]

theorem errors_nextToken (x : Lexer) :
    x.nextToken.2.errors = x.errors ++ (nextFrom x.location x.rest).errors := by
  obtain ⟨before, href⟩ := x.exists_refines
  rw [href.call]

theorem finished_nextToken (x : Lexer) :
    x.nextToken.2.finished = (x.finished || x.nextToken.1.isEndOfFile) := by
  obtain ⟨before, href⟩ := x.exists_refines
  rw [href.call]

theorem rest_nextToken (x : Lexer) : x.nextToken.2.rest = (nextFrom x.location x.rest).rest := by
  obtain ⟨before, href⟩ := x.exists_refines
  rw [href.call]
  have hcut := href.cut
  rw [← List.append_assoc] at hcut
  exact Cursor.rest_past hcut

theorem location_nextToken (x : Lexer) : x.nextToken.2.location = x.nextToken.1.stop := by
  obtain ⟨before, href⟩ := x.exists_refines
  rw [href.call, href.stop, href.start, ← Position.advancedOver_append]
  exact Cursor.location_past _ x.cursor

/-- The lexer stands at the end of its source, where the text ahead has led it, and has handed out
the end-of-file token. -/
structure AtEnd (x : Lexer) (stop : Position) : Prop where
  rest : x.rest = []
  location : x.location = stop
  marked : x.Marked
  finished : x.finished = true

/-- At the end a call changes nothing. -/
theorem AtEnd.nextToken_eq {stop : Position} (h : x.AtEnd stop) :
    x.nextToken = (Token.endOfFile stop, x) := by
  have hblanks : x.blanks = [] := by rw [blanks, h.rest]; rfl
  have hsame : x.behindBlanks = x := by
    rw [behindBlanks, hblanks, past_nil, h.marked.markStart_eq]
  have hend : x.behindBlanks.rest = [] := by rw [hsame, h.rest]
  rw [nextToken_at_end hend, hsame, h.location, finish, ← h.finished]

end Lexer

/-! ## One token -/

/-- The end-of-file token comes when nothing is left. -/
theorem scanFrom_of_last {p : Position} {t : Text}
    (h : (nextFrom p t).token.isEndOfFile = true) : (nextFrom p t).rest = [] ∧
      (nextFrom p t).token = Token.endOfFile (p.advancedOver t) ∧
      scanFrom p t = ⟨[(nextFrom p t).token], (nextFrom p t).errors⟩ := by
  fun_induction nextFrom p t with
  | case1 p => exact ⟨rfl, rfl, scanFrom_nil p⟩
  | case2 p c r found l hl =>
    rw [(lexeme_stands_readPiece hl).isEndOfFile_placed] at h
    cases h
  | case3 p c r found hfound more ih =>
    obtain ⟨hrest, htoken, hscan⟩ := ih h
    refine ⟨hrest, ?_, ?_⟩
    · rw [← advancedOver_readPiece]
      exact htoken
    · rw [scanFrom_cons, Piece.tokens_of_no_lexeme hfound, hscan]
      rfl

/-- Any other token is followed by a scan of what is left. -/
theorem scanFrom_of_next {p : Position} {t : Text}
    (h : (nextFrom p t).token.isEndOfFile = false) :
    (nextFrom p t).token.stop.advancedOver (nextFrom p t).rest = p.advancedOver t ∧
      scanFrom p t = (scanFrom (nextFrom p t).token.stop (nextFrom p t).rest).after
        [(nextFrom p t).token] (nextFrom p t).errors := by
  fun_induction nextFrom p t with
  | case1 => cases h
  | case2 p c r found l hl =>
    have htext : (readPiece c r).1.text = l.text := by rw [hl]; rfl
    constructor
    · rw [← advancedOver_readPiece, htext]
      rfl
    · rw [scanFrom_cons, htext, hl]
      rfl
  | case3 p c r found hfound more ih =>
    obtain ⟨hstop, hscan⟩ := ih h
    constructor
    · rw [← advancedOver_readPiece]
      exact hstop
    · rw [scanFrom_cons, Piece.tokens_of_no_lexeme hfound, hscan, ScanResult.after_after]
      rfl

/-! ## The whole run -/

namespace Lexer

variable {x : Lexer}

/-- The end-of-file token leaves the lexer at the end. -/
theorem atEnd_of_last (h : x.nextToken.1.isEndOfFile = true) :
    x.nextToken.2.AtEnd (x.location.advancedOver x.rest) := by
  obtain ⟨before, href⟩ := x.exists_refines
  rw [token_nextToken] at h
  obtain ⟨hrest, htoken, -⟩ := scanFrom_of_last h
  have hlast : (nextFrom x.location x.rest).token.lexeme = [] := by rw [htoken]; rfl
  refine ⟨by rw [rest_nextToken, hrest], ?_, ?_, ?_⟩
  · rw [location_nextToken, token_nextToken, htoken]
    rfl
  · rw [href.call, hlast, List.append_nil]
    exact ⟨rfl, href.start.trans (Cursor.location_past before x.cursor).symm⟩
  · rw [finished_nextToken, token_nextToken, h, Bool.or_true]

/-- The end-of-file token ends the scan of the text ahead. -/
theorem scan_of_last (h : x.nextToken.1.isEndOfFile = true) :
    ∃ es, x.nextToken.2.errors = x.errors ++ es ∧
      scanFrom x.location x.rest = ⟨[x.nextToken.1], es⟩ := by
  rw [token_nextToken] at h ⊢
  exact ⟨_, x.errors_nextToken, (scanFrom_of_last h).2.2⟩

/-- Any other token is followed by a scan of what is left. -/
theorem scan_of_next (h : x.nextToken.1.isEndOfFile = false) :
    ∃ es, x.nextToken.2.errors = x.errors ++ es ∧
      x.nextToken.2.location.advancedOver x.nextToken.2.rest = x.location.advancedOver x.rest ∧
      scanFrom x.location x.rest =
        (scanFrom x.nextToken.2.location x.nextToken.2.rest).after [x.nextToken.1] es := by
  rw [location_nextToken, rest_nextToken]
  rw [token_nextToken] at h ⊢
  exact ⟨_, x.errors_nextToken, scanFrom_of_next h⟩

/-- What draining a lexer gives: a scan of the text that was left, and its errors behind the
others. -/
structure Drained (x : Lexer) (s : ScanResult) : Prop where
  tokens : x.drain.1 = s.tokens
  errors : x.drain.2.errors = x.errors ++ s.errors
  atEnd : x.drain.2.AtEnd (x.location.advancedOver x.rest)

/-- A lexer that is drained has scanned all the text that was left. -/
theorem drained (h : x.finished = false) : x.Drained (scanFrom x.location x.rest) := by
  fun_induction drain x with
  | case1 x hx => exact absurd hx (Bool.eq_false_iff.mp h)
  | case2 x hx more ih =>
    have hfinished := x.finished_nextToken
    rw [h, Bool.false_or] at hfinished
    have hdrain : x.drain = (x.nextToken.1 :: x.nextToken.2.drain.1, x.nextToken.2.drain.2) := by
      rw [drain, dif_neg hx]
    cases hlast : x.nextToken.1.isEndOfFile with
    | true =>
      obtain ⟨es, herrors, hscan⟩ := scan_of_last hlast
      have hdone : x.nextToken.2.drain = ([], x.nextToken.2) := by
        rw [drain, dif_pos (hfinished.trans hlast)]
      rw [hdone] at hdrain
      exact ⟨by rw [hdrain, hscan], by rw [hdrain, herrors, hscan], hdrain ▸ atEnd_of_last hlast⟩
    | false =>
      obtain ⟨es, herrors, hstop, hscan⟩ := scan_of_next hlast
      have hmore := ih (hfinished.trans hlast)
      refine ⟨?_, ?_, ?_⟩
      · rw [hdrain, hmore.tokens, hscan]
        rfl
      · rw [hdrain, hmore.errors, herrors, hscan, List.append_assoc]
        rfl
      · rw [hdrain, ← hstop]
        exact hmore.atEnd

/-- A new lexer gives what scanning its text from its origin gives. -/
theorem drained_withOrigin (origin : Position) (t : Text) :
    (withOrigin origin t).Drained (scanFrom origin t) := by
  have hdrained := drained (x := withOrigin origin t) rfl
  rwa [rest_withOrigin] at hdrained

theorem tokens_drain_withOrigin (origin : Position) (t : Text) :
    (withOrigin origin t).drain.1 = (scanFrom origin t).tokens :=
  (drained_withOrigin origin t).tokens

theorem errors_drain_withOrigin (origin : Position) (t : Text) :
    (withOrigin origin t).drain.2.errors = (scanFrom origin t).errors :=
  (drained_withOrigin origin t).errors

end Lexer

/-- Scanning a whole source is draining a lexer over it. -/
theorem tokenize_eq_drain (t : Text) :
    tokenize t = ⟨(Lexer.ofText t).drain.1, (Lexer.ofText t).drain.2.errors⟩ := by
  rw [Lexer.ofText, Lexer.tokens_drain_withOrigin, Lexer.errors_drain_withOrigin]
  rfl

end Lexis
