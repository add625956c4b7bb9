-- The lexer and its routines. A lexer moves a cursor over its source. It cuts
-- lexemes out of the source by the offsets at which they begin, and records
-- errors on the way. Beside each routine stands what it comes to: the lexeme
-- that is read from the text ahead, wherever in the source that text stands.
import Lexis.Scan.Cursor
import Lexis.Scan.Piece

namespace Lexis

/-! ## The lexer -/

/-- A cursor over the source, the byte offset in the source and the position
at which the token in hand begins, the errors found so far, and whether the
end-of-file token has been handed out. -/
structure Lexer where
  cursor : Cursor
  tokenStart : Nat
  tokenPlace : Position
  errors : List LexicalError
  finished : Bool
deriving DecidableEq, Repr

namespace Lexer

/-- A lexer over a text that starts at a position. -/
def withOrigin (origin : Position) (t : Text) : Lexer :=
  ⟨.withOrigin origin t, 0, origin, [], false⟩

/-- A lexer over a whole source. -/
def ofText (t : Text) : Lexer := withOrigin .start t

/-- The text that is still ahead. -/
def rest (x : Lexer) : Text := x.cursor.rest

/-- The position of the next character. -/
def location (x : Lexer) : Position := x.cursor.location

theorem rest_withOrigin (origin : Position) (t : Text) : (withOrigin origin t).rest = t :=
  Cursor.rest_of_cut (List.nil_append t).symm rfl

/-- The text of the token in hand, up to the cursor. -/
def lexeme (x : Lexer) : Text := (x.cursor.sliceFrom? x.tokenStart).getD []

/-- The token in hand, up to the cursor. -/
def makeToken (kind : TokenKind) (value : Option Literal) (x : Lexer) : Token :=
  ⟨kind, x.lexeme, x.tokenPlace, x.location, value⟩

def report (kind : FaultKind) (p : Position) (text : Text) (x : Lexer) : Lexer :=
  { x with errors := x.errors ++ [⟨kind, p, text⟩] }

def onCursor (f : Cursor → Cursor) (x : Lexer) : Lexer := { x with cursor := f x.cursor }

/-- Moves over a character if it is the next one, and says whether it was. -/
def matchChar (c : Char) (x : Lexer) : Bool × Lexer :=
  let found := x.cursor.matchChar c
  (found.1, { x with cursor := found.2 })

/-- A token begins at the cursor. -/
def markStart (x : Lexer) : Lexer :=
  { x with tokenStart := x.cursor.offset, tokenPlace := x.cursor.location }

/-! ## Behind a text -/

/-- The lexer behind a text that is ahead, with more errors. -/
def past (t : Text) (es : List LexicalError) (x : Lexer) : Lexer :=
  { x with cursor := x.cursor.past t, errors := x.errors ++ es }

/-- A token begins where the cursor stands. -/
structure Marked (x : Lexer) : Prop where
  start : x.tokenStart = x.cursor.offset
  place : x.tokenPlace = x.location

/-- The token of a lexeme that is ahead, and the lexer behind it with its faults. -/
def taking (l : Lexeme) (x : Lexer) : Token × Lexer :=
  (l.placed x.location, x.past l.text (l.faults.map (Fault.placed x.location)))

variable {x : Lexer} {s t r : Text} {es fs : List LexicalError}

theorem marked_markStart (x : Lexer) : x.markStart.Marked := ⟨rfl, rfl⟩

theorem Marked.markStart_eq (hx : x.Marked) : x.markStart = x := by
  have hplace : x.tokenPlace = x.cursor.location := hx.place
  rw [markStart, ← hx.start, ← hplace]

@[simp] theorem past_nil (x : Lexer) : x.past [] [] = x := by
  simp [past]

theorem past_past : (x.past s es).past t fs = x.past (s ++ t) (es ++ fs) := by
  simp only [past, Cursor.past_past, List.append_assoc]

theorem rest_past (h : x.rest = t ++ r) : (x.past t es).rest = r := Cursor.rest_past h

@[simp] theorem location_past : (x.past t es).location = x.location.advancedOver t :=
  Cursor.location_past t x.cursor

theorem report_past (kind : FaultKind) (p : Position) (text : Text) :
    (x.past t es).report kind p text = x.past t (es ++ [⟨kind, p, text⟩]) := by
  simp only [report, past, List.append_assoc]

theorem lexeme_past (hx : x.Marked) (h : x.rest = t ++ r) : (x.past t es).lexeme = t := by
  rw [lexeme, past, hx.start]
  exact Cursor.sliceFrom?_past h

theorem makeToken_past (hx : x.Marked) (h : x.rest = t ++ r) (kind : TokenKind)
    (value : Option Literal) : (x.past t es).makeToken kind value =
      ⟨kind, t, x.location, x.location.advancedOver t, value⟩ := by
  rw [makeToken, lexeme_past hx h, location_past, ← hx.place]
  rfl

/-- A routine that has moved over a lexeme hands out its token. -/
theorem taking_eq {l : Lexeme} {y : Lexer} (hx : x.Marked) (h : x.rest = l.text ++ r)
    (hy : y = x.past l.text (l.faults.map (Fault.placed x.location))) :
    (y.makeToken l.kind l.value, y) = x.taking l := by
  rw [hy, makeToken_past hx h]
  rfl

theorem onCursor_advance {c : Char} (h : x.rest = c :: r) :
    x.onCursor .advance = x.past [c] [] := by
  simp only [onCursor, past, Cursor.advance_of_cons h, List.append_nil]

theorem onCursor_eatWhile (p : Char → Bool) :
    x.onCursor (.eatWhile p) = x.past (x.rest.takeWhile p) [] := by
  simp only [onCursor, past, Cursor.eatWhile_eq, List.append_nil, rest]

theorem onCursor_advanceBy (h : x.rest = t ++ r) :
    x.onCursor (.advanceBy t.length) = x.past t [] := by
  simp only [onCursor, past, Cursor.advanceBy_length h, List.append_nil]

theorem matchChar_of_head {c : Char} (h : x.rest = c :: r) :
    x.matchChar c = (true, x.past [c] []) := by
  rw [matchChar, Cursor.matchChar_of_head h, past, List.append_nil]

theorem matchChar_of_ne {c : Char} (h : x.rest.head? ≠ some c) : x.matchChar c = (false, x) := by
  rw [matchChar, Cursor.matchChar_of_ne h]

theorem rest_onCursor_advance (x : Lexer) : (x.onCursor .advance).rest = x.rest.tail :=
  x.cursor.rest_advance

theorem rest_onCursor_advanceBy (n : Nat) (x : Lexer) :
    (x.onCursor (.advanceBy n)).rest = x.rest.drop n := x.cursor.rest_advanceBy n

theorem length_rest_pos (h : ¬ x.cursor.isAtEnd = true) : 0 < x.rest.length := by
  apply List.length_pos_iff.mpr
  intro hrest
  exact h (Cursor.isAtEnd_of_nil hrest)

/-! ## Comments -/

/-- Moves on inside a number of block comments until all of them are closed. -/
def skipBlockBody : Nat → Lexer → Lexer
  | 0, x => x
  | depth + 1, x =>
    if _h : x.cursor.isAtEnd then x.report .unterminatedComment x.tokenPlace x.lexeme
    else if x.cursor.current = '/' ∧ x.cursor.peek 1 = '*' then
      skipBlockBody (depth + 2) (x.onCursor (.advanceBy 2))
    else if x.cursor.current = '*' ∧ x.cursor.peek 1 = '/' then
      skipBlockBody depth (x.onCursor (.advanceBy 2))
    else skipBlockBody (depth + 1) (x.onCursor .advance)
termination_by _ x => x.rest.length
decreasing_by
  all_goals
    have := length_rest_pos _h
    simp only [rest_onCursor_advance, rest_onCursor_advanceBy, List.length_drop, List.length_tail]
    omega

theorem skipBlockBody_at_end {y : Lexer} (h : y.rest = []) (depth : Nat) :
    y.skipBlockBody (depth + 1) = y.report .unterminatedComment y.tokenPlace y.lexeme := by
  rw [skipBlockBody, dif_pos (Cursor.isAtEnd_of_nil h)]

theorem skipBlockBody_open {y : Lexer} (h : y.rest = '/' :: '*' :: r) (depth : Nat) :
    y.skipBlockBody (depth + 1) = (y.past ['/', '*'] []).skipBlockBody (depth + 2) := by
  have hcursor : y.cursor.rest = '/' :: '*' :: r := h
  have hmove : y.onCursor (.advanceBy 2) = y.past ['/', '*'] [] :=
    onCursor_advanceBy (t := ['/', '*']) h
  rw [skipBlockBody, hmove]
  simp [Cursor.isAtEnd, Cursor.current, Cursor.peek, hcursor]

theorem skipBlockBody_close {y : Lexer} (h : y.rest = '*' :: '/' :: r) (depth : Nat) :
    y.skipBlockBody (depth + 1) = (y.past ['*', '/'] []).skipBlockBody depth := by
  have hcursor : y.cursor.rest = '*' :: '/' :: r := h
  have hmove : y.onCursor (.advanceBy 2) = y.past ['*', '/'] [] :=
    onCursor_advanceBy (t := ['*', '/']) h
  rw [skipBlockBody, hmove]
  simp [Cursor.isAtEnd, Cursor.current, Cursor.peek, hcursor]

theorem skipBlockBody_char {y : Lexer} {c : Char} (h : y.rest = c :: r) (depth : Nat)
    (hopen : ∀ u, c = '/' → r ≠ '*' :: u) (hclose : ∀ u, c = '*' → r ≠ '/' :: u) :
    y.skipBlockBody (depth + 1) = (y.past [c] []).skipBlockBody (depth + 1) := by
  have hcursor : y.cursor.rest = c :: r := h
  have hno : ∀ a b, b ≠ Cursor.sentinel → (∀ u, c = a → r ≠ b :: u) →
      ¬ (y.cursor.current = a ∧ y.cursor.peek 1 = b) := by
    rintro a b hb hab ⟨hcurrent, hone⟩
    obtain ⟨u, hu⟩ := List.head?_eq_some_iff.mp ((Cursor.peek_one_eq_iff hcursor hb).mp hone)
    rw [Cursor.current_of_cons hcursor] at hcurrent
    exact hab u hcurrent hu
  rw [skipBlockBody, Cursor.isAtEnd_of_cons hcursor, dif_neg Bool.false_ne_true,
    if_neg (hno '/' '*' (by decide) hopen), if_neg (hno '*' '/' (by decide) hclose),
    onCursor_advance h]

/-- The lexer behind the body of a block comment, given the text in front of the body. -/
def pastBody (before : Text) (b : BlockBody) (x : Lexer) : Lexer :=
  x.past (before ++ b.text)
    (if b.rest.isNone then [⟨.unterminatedComment, x.location, before ++ b.text⟩] else [])

theorem pastBody_after (before s : Text) (b : BlockBody) (x : Lexer) :
    x.pastBody before (b.after s) = x.pastBody (before ++ s) b := by
  rw [pastBody, pastBody, BlockBody.after, List.append_assoc]

/-- Behind the opening of a comment, and a part of its body, the rest of the body follows. -/
theorem skipBlockBody_past (hx : x.Marked) (depth : Nat) (h : x.rest = t ++ r) :
    (x.past t []).skipBlockBody (depth + 1) = x.pastBody t (readBlockBody depth r) := by
  fun_induction readBlockBody depth r generalizing t with
  | case1 depth =>
    rw [skipBlockBody_at_end (rest_past h), lexeme_past hx h, report_past, pastBody,
      List.append_nil, ← hx.place]
    rfl
  | case2 depth r ih =>
    rw [skipBlockBody_open (rest_past h), past_past, pastBody_after]
    exact ih (h.trans (List.append_assoc t ['/', '*'] r).symm)
  | case3 r =>
    rw [skipBlockBody_close (rest_past h), skipBlockBody, past_past]
    rfl
  | case4 depth r ih =>
    rw [skipBlockBody_close (rest_past h), past_past, pastBody_after]
    exact ih (h.trans (List.append_assoc t ['*', '/'] r).symm)
  | case5 depth c r hopen hclose hclose' ih =>
    rw [skipBlockBody_char (rest_past h), past_past, pastBody_after]
    · exact ih (h.trans (List.append_assoc t [c] r).symm)
    · exact hopen
    · intro u hc hr
      cases depth with
      | zero => exact hclose u rfl hc hr
      | succ depth => exact hclose' depth u rfl hc hr

/-- Lexes a comment. The cursor stands on the slash of its opening. -/
def lexComment (x : Lexer) : Token × Lexer :=
  let opened := (x.onCursor .advance).matchChar '/'
  let y :=
    if opened.1 then opened.2.onCursor (.eatWhile (· ≠ '\n'))
    else (opened.2.onCursor .advance).skipBlockBody 1
  (y.makeToken .comment none, y)

theorem lexComment_line (hx : x.Marked) (h : x.rest = '/' :: '/' :: r) :
    x.lexComment = x.taking (readLineComment r).1 := by
  have hone : (x.past ['/'] []).rest = '/' :: r := rest_past h
  have htwo : (x.past ['/', '/'] []).rest = r := rest_past h
  rw [lexComment, onCursor_advance h, matchChar_of_head hone, past_past]
  refine taking_eq hx (h.trans (readLineComment_append r).symm) ?_
  have heaten := onCursor_eatWhile (x := x.past ['/', '/'] []) (· ≠ '\n')
  rw [htwo, past_past] at heaten
  exact heaten

theorem lexComment_block (hx : x.Marked) (h : x.rest = '/' :: '*' :: r) :
    x.lexComment = x.taking (readBlockComment r).1 := by
  have hone : (x.past ['/'] []).rest = '*' :: r := rest_past h
  have hbody := skipBlockBody_past hx 0 (t := ['/', '*']) h
  have htext := h.trans (readBlockComment_append r).symm
  rw [lexComment, onCursor_advance h, matchChar_of_ne (by simp [hone])]
  simp only [Bool.false_eq_true, if_false, onCursor_advance hone, past_past]
  rw [readBlockComment_fst] at htext ⊢
  refine taking_eq hx htext (hbody.trans ?_)
  cases hrest : (readBlockBody 0 r).rest <;> simp [pastBody, hrest, Fault.placed]

/-! ## Strings -/

/-- Lexes the rest of an escape by number. The cursor stands behind the `u`. -/
def lexNumberEscape (x : Lexer) : Option Char × Lexer :=
  let opened := x.matchChar '{'
  if opened.1 then
    let digitsStart := opened.2.cursor.offset
    let y := opened.2.onCursor (.eatWhile isHexDigit)
    let digits := (y.cursor.sliceFrom? digitsStart).getD []
    let closed := y.matchChar '}'
    (if closed.1 then charOfHex? digits else none, closed.2)
  else (none, opened.2)

/-- Lexes an escape, and gives the text that it stands for. The cursor stands
on the backslash. A malformed escape stands for itself. -/
def lexEscape (x : Lexer) : Text × Lexer :=
  let backslash := x.location
  let escapeStart := x.cursor.offset
  let y := x.onCursor .advance
  if y.cursor.isAtEnd ∨ y.cursor.current = '\n' then (['\\'], y)
  else
    match shortEscape? y.cursor.current with
    | some c => ([c], y.onCursor .advance)
    | none =>
      let next := y.onCursor .advance
      let found := if y.cursor.current = 'u' then next.lexNumberEscape else (none, next)
      match found.1 with
      | some c => ([c], found.2)
      | none =>
        let raw := (found.2.cursor.sliceFrom? escapeStart).getD []
        (raw, found.2.report .invalidEscape backslash raw)

/-- What the escape by number comes to when its brace is open. -/
theorem lexNumberEscape_open (h : x.rest = '{' :: r) : x.lexNumberEscape =
    let y := x.past ('{' :: r.takeWhile isHexDigit) []
    let closed := y.matchChar '}'
    (if closed.1 then charOfHex? (r.takeWhile isHexDigit) else none, closed.2) := by
  have hr : (x.past ['{'] []).rest = r := rest_past h
  have heaten := onCursor_eatWhile (x := x.past ['{'] []) isHexDigit
  have hdigits : (((x.past ['{'] []).cursor.past (r.takeWhile isHexDigit)).sliceFrom?
      (x.past ['{'] []).cursor.offset).getD [] = r.takeWhile isHexDigit :=
    Cursor.sliceFrom?_past (hr.trans List.takeWhile_append_dropWhile.symm)
  rw [hr] at heaten
  rw [lexNumberEscape, matchChar_of_head h, if_pos rfl]
  simp only [heaten]
  rw [show ((x.past ['{'] []).past (r.takeWhile isHexDigit) []).cursor =
    (x.past ['{'] []).cursor.past (r.takeWhile isHexDigit) from rfl, hdigits, past_past]
  rfl

theorem lexNumberEscape_eq (h : x.rest = r) : ∃ t,
    (∃ c, (readNumberEscape r).1 = .escape ('\\' :: 'u' :: t) c ∧
      x.lexNumberEscape = (some c, x.past t [])) ∨
    ((readNumberEscape r).1 = .malformed ('\\' :: 'u' :: t) ∧
      x.lexNumberEscape = (none, x.past t [])) := by
  have behind : ∀ {u v}, x.rest = '{' :: u → u.dropWhile isHexDigit = v →
      (x.past ('{' :: u.takeWhile isHexDigit) []).rest = v := by
    rintro u v hu rfl
    refine rest_past (hu.trans ?_)
    rw [List.cons_append, List.takeWhile_append_dropWhile]
  fun_cases readNumberEscape r with
  | case1 u digits rest hclose raw c hc =>
    refine ⟨_, .inl ⟨c, rfl, ?_⟩⟩
    simp only [lexNumberEscape_open h, matchChar_of_head (behind h hclose), past_past, if_true]
    exact Prod.ext hc rfl
  | case2 u digits rest hclose raw hc =>
    refine ⟨_, .inr ⟨rfl, ?_⟩⟩
    simp only [lexNumberEscape_open h, matchChar_of_head (behind h hclose), past_past, if_true]
    exact Prod.ext hc rfl
  | case3 u digits hno =>
    refine ⟨_, .inr ⟨rfl, ?_⟩⟩
    have hne : (x.past ('{' :: u.takeWhile isHexDigit) []).rest.head? ≠ some '}' := by
      rw [behind h rfl]
      intro hhead
      obtain ⟨v, hv⟩ := List.head?_eq_some_iff.mp hhead
      exact hno v hv
    simp only [lexNumberEscape_open h, matchChar_of_ne hne]
    rfl
  | case4 =>
    rename_i hno
    refine ⟨[], .inr ⟨rfl, ?_⟩⟩
    have hne : x.rest.head? ≠ some '{' := by
      intro hhead
      obtain ⟨v, hv⟩ := List.head?_eq_some_iff.mp hhead
      exact hno v (h.symm.trans hv)
    simp [lexNumberEscape, matchChar_of_ne hne]

/-- A routine that has moved over a malformed escape reports it. -/
theorem malformed_past (h : x.rest = t ++ r) :
    let y := x.past t []
    let raw := (y.cursor.sliceFrom? x.cursor.offset).getD []
    (raw, y.report .invalidEscape x.location raw) =
      (t, x.past t [⟨.invalidEscape, x.location, t⟩]) := by
  have hraw : ((x.past t []).cursor.sliceFrom? x.cursor.offset).getD [] = t :=
    Cursor.sliceFrom?_past h
  simp only [hraw, report_past, List.nil_append]

theorem lexEscape_eq (h : x.rest = '\\' :: r) : x.lexEscape =
    ((readEscape r).1.decoded, x.past (readEscape r).1.raw
      (((readEscape r).1.faults []).map (Fault.placed x.location))) := by
  have hr : (x.past ['\\'] []).rest = r := rest_past h
  rw [lexEscape, onCursor_advance h]
  fun_cases readEscape r with
  | case1 => rw [if_pos (.inl (Cursor.isAtEnd_of_nil hr))]; rfl
  | case2 t => rw [if_pos (.inr (Cursor.current_of_cons hr))]; rfl
  | case3 t hline =>
    have htwo : (x.past ['\\', 'u'] []).rest = t := rest_past h
    rw [if_neg (by simp [Cursor.isAtEnd_of_cons hr, Cursor.current_of_cons hr]),
      Cursor.current_of_cons hr, onCursor_advance hr, past_past]
    simp only [show shortEscape? 'u' = none from rfl, if_true, List.cons_append, List.nil_append]
    obtain ⟨u, ⟨c, hread, hlex⟩ | ⟨hread, hlex⟩⟩ := lexNumberEscape_eq htwo
    · simp only [hlex, hread, past_past]
      rfl
    · have htext := readNumberEscape_append t
      rw [hread] at htext
      simp only [hlex, hread, past_past]
      exact malformed_past (h.trans htext.symm)
  | case4 c t hline hu d hd =>
    rw [if_neg (by simp [Cursor.isAtEnd_of_cons hr, Cursor.current_of_cons hr, hline]),
      Cursor.current_of_cons hr, onCursor_advance hr, past_past]
    simp only [hd]
    rfl
  | case5 c t hline hu hd =>
    rw [if_neg (by simp [Cursor.isAtEnd_of_cons hr, Cursor.current_of_cons hr, hline]),
      Cursor.current_of_cons hr, onCursor_advance hr, past_past]
    simp only [hd, if_neg hu]
    exact malformed_past (t := ['\\', c]) h

theorem length_lexEscape_lt (hend : ¬ x.cursor.isAtEnd = true) (h : x.cursor.current = '\\') :
    x.lexEscape.2.rest.length < x.rest.length := by
  obtain ⟨r, hr⟩ := Cursor.rest_of_not_end hend
  rw [h] at hr
  have hrest : ∀ es, (x.past (readEscape r).1.raw es).rest = (readEscape r).2 :=
    fun es => rest_past (Eq.trans hr (readEscape_append r).symm)
  rw [lexEscape_eq hr, hrest, show x.rest = '\\' :: r from hr]
  exact Nat.lt_succ_of_le (length_readEscape_le r)

/-- Lexes the rest of a string up to its closing quote or the end of the line,
given the text that it stands for so far. The error of a string that is cut
off goes in front of those of its escapes. -/
def lexStringBody (quote : Char) (firstError : Nat) (content : Text) (x : Lexer) : Text × Lexer :=
  if _hstop : x.cursor.isAtEnd ∨ x.cursor.current = '\n' then
    let cutOff := ⟨.unterminatedString, x.tokenPlace, x.lexeme⟩
    (content, { x with errors := x.errors.insertIdx firstError cutOff })
  else if x.cursor.current = quote then (content, x.onCursor .advance)
  else if _hslash : x.cursor.current = '\\' then
    let found := x.lexEscape
    lexStringBody quote firstError (content ++ found.1) found.2
  else lexStringBody quote firstError (content ++ [x.cursor.current]) (x.onCursor .advance)
termination_by x.rest.length
decreasing_by
  · exact length_lexEscape_lt (fun h => _hstop (.inl h)) _hslash
  · have := length_rest_pos (fun h => _hstop (.inl h))
    simp only [rest_onCursor_advance, List.length_tail]
    omega

theorem lexStringBody_before_line_end {c : Char} (h : x.rest = c :: r) (hc : c ≠ '\n')
    (quote : Char) (firstError : Nat) (content : Text) :
    x.lexStringBody quote firstError content =
      if c = quote then (content, x.onCursor .advance)
      else if c = '\\' then
        x.lexEscape.2.lexStringBody quote firstError (content ++ x.lexEscape.1)
      else (x.onCursor .advance).lexStringBody quote firstError (content ++ [c]) := by
  have hcurrent : x.cursor.current = c := Cursor.current_of_cons h
  have hgoes : ¬ (x.cursor.isAtEnd = true ∨ x.cursor.current = '\n') := by
    rw [Cursor.isAtEnd_of_cons h, hcurrent]
    simp [hc]
  rw [lexStringBody, dif_neg hgoes, hcurrent, dite_eq_ite]

theorem placed_segment_faults (p : Position) (before : Text) (s : Segment) :
    (s.faults []).map (Fault.placed (p.advancedOver before)) =
      (s.faults before.reverse).map (Fault.placed p) := by
  cases s <;> simp [Segment.faults, Fault.placed]

/-- The lexer behind the body of a string, given the text in front of the body
and the errors in that text. -/
def pastQuoted (quote : Char) (before : Text) (es : List LexicalError) (b : QuotedBody)
    (x : Lexer) : Lexer :=
  let cutOff := if b.closed then [] else
    [⟨.unterminatedString, x.location, before ++ b.text quote⟩]
  x.past (before ++ b.text quote)
    (cutOff ++ (es ++ (escapeFaults before.reverse b.segments).map (Fault.placed x.location)))

theorem pastQuoted_after (quote : Char) (before : Text) (s : Segment) (b : QuotedBody) :
    x.pastQuoted quote before es (b.after s) = x.pastQuoted quote (before ++ s.raw)
      (es ++ (s.faults before.reverse).map (Fault.placed x.location)) b := by
  simp only [pastQuoted, QuotedBody.text_after, QuotedBody.segments_after, QuotedBody.closed_after,
    escapeFaults_cons, List.map_append, List.reverse_append, List.append_assoc]

theorem pastQuoted_cutOff (quote : Char) : x.pastQuoted quote t es ⟨[], false, r⟩ =
    x.past t (⟨.unterminatedString, x.location, t⟩ :: es) := by
  simp [pastQuoted, QuotedBody.text, escapeFaults]

theorem pastQuoted_closed (quote : Char) :
    x.pastQuoted quote t es ⟨[], true, r⟩ = x.past (t ++ [quote]) es := by
  simp [pastQuoted, QuotedBody.text, escapeFaults]

theorem insertIdx_length (es fs : List LexicalError) (e : LexicalError) :
    (es ++ fs).insertIdx es.length e = es ++ e :: fs := by
  induction es with
  | nil => rfl
  | cons a es ih => rw [List.cons_append, List.length_cons, List.insertIdx_succ_cons, ih]; rfl

/-- A string that is cut off behind a text is reported in front of the errors in that text. -/
theorem cutOff_past (hx : x.Marked) (h : x.rest = t ++ r) :
    let y := x.past t es
    let cutOff := ⟨.unterminatedString, y.tokenPlace, y.lexeme⟩
    { y with errors := y.errors.insertIdx x.errors.length cutOff } =
      x.past t (⟨.unterminatedString, x.location, t⟩ :: es) := by
  intro y cutOff
  have hcutOff : cutOff = ⟨.unterminatedString, x.location, t⟩ := by
    have hlexeme : y.lexeme = t := lexeme_past hx h
    rw [show cutOff = ⟨.unterminatedString, x.tokenPlace, y.lexeme⟩ from rfl, hx.place, hlexeme]
  have herrors : y.errors.insertIdx x.errors.length cutOff = x.errors ++ cutOff :: es :=
    insertIdx_length x.errors es cutOff
  rw [herrors, hcutOff]
  rfl

/-- Behind the opening quote, and a part of the string, the rest of the string follows. -/
theorem lexStringBody_past (hx : x.Marked) (quote : Char) (content : Text) (h : x.rest = t ++ r) :
    (x.past t es).lexStringBody quote x.errors.length content =
      (content ++ (readQuotedBody quote r).value,
        x.pastQuoted quote t es (readQuotedBody quote r)) := by
  have hr : (x.past t es).rest = r := rest_past h
  fun_induction readQuotedBody quote r generalizing t es content with
  | case1 =>
    rw [lexStringBody, dif_pos (.inl (Cursor.isAtEnd_of_nil hr)), pastQuoted_cutOff]
    exact Prod.ext (List.append_nil content).symm (cutOff_past hx h)
  | case2 r =>
    rw [lexStringBody, dif_pos (.inr (Cursor.current_of_cons hr)), pastQuoted_cutOff]
    exact Prod.ext (List.append_nil content).symm (cutOff_past hx h)
  | case3 r hline =>
    rw [lexStringBody_before_line_end hr hline, if_pos rfl, onCursor_advance hr, past_past,
      pastQuoted_closed, List.append_nil]
    exact Prod.ext (List.append_nil content).symm rfl
  | case4 r found hline hquote =>
    rename_i ih
    have hbehind := h.trans (congrArg (t ++ ·) (readEscape_append r).symm)
    rw [← List.append_assoc] at hbehind
    rw [lexStringBody_before_line_end hr hline, if_neg hquote, if_pos rfl, lexEscape_eq hr,
      location_past, placed_segment_faults, past_past, pastQuoted_after, QuotedBody.value_after,
      ← List.append_assoc]
    exact ih (content ++ found.1.decoded) hbehind (rest_past hbehind)
  | case5 c r hline hquote hslash ih =>
    have hbehind := h.trans (List.append_assoc t [c] r).symm
    rw [lexStringBody_before_line_end hr hline, if_neg hquote, if_neg hslash, onCursor_advance hr,
      past_past, pastQuoted_after, QuotedBody.value_after, ← List.append_assoc]
    exact ih (content ++ [c]) hbehind (rest_past hbehind)

/-- Lexes a string. The cursor stands on its opening quote. -/
def lexString (x : Lexer) : Token × Lexer :=
  let quote := x.cursor.current
  let found := (x.onCursor .advance).lexStringBody quote x.errors.length []
  (found.2.makeToken .stringLiteral (some (.string found.1)), found.2)

theorem lexString_eq (hx : x.Marked) {quote : Char} (h : x.rest = quote :: r) :
    x.lexString = x.taking (readString quote r).1 := by
  have hbody : (x.past [quote] []).lexStringBody quote x.errors.length [] = _ :=
    lexStringBody_past hx quote [] h
  have htext := h.trans (readString_append quote r).symm
  rw [lexString, Cursor.current_of_cons h, onCursor_advance h, hbody]
  refine taking_eq hx htext ?_
  cases hclosed : (readQuotedBody quote r).closed <;>
    simp [pastQuoted, readString, stringLexeme, hclosed, Fault.placed]

/-! ## Numbers -/

/-- The value of a float, given digits, a point and digits. -/
def floatValue? (text : Text) : Option Literal :=
  (Binary64.ofDecimal? (text.takeWhile (· ≠ '.')) (text.dropWhile (· ≠ '.')).tail).map .float

/-- Ends a number at the cursor. A number that has no value is malformed. -/
def finishNumber (kind : TokenKind) (value? : Text → Option Literal) (x : Lexer) : Token × Lexer :=
  let text := x.lexeme
  let value := value? text
  let y := if value.isNone then x.report .malformedNumber x.tokenPlace text else x
  (y.makeToken kind value, y)

/-- Lexes a number. A point that no digit follows is left in place. -/
def lexNumber (x : Lexer) : Token × Lexer :=
  let y := x.onCursor (.eatWhile Char.isDigit)
  if y.cursor.current = '.' ∧ (y.cursor.peek 1).isDigit then
    ((y.onCursor .advance).onCursor (.eatWhile Char.isDigit)).finishNumber .floatLiteral floatValue?
  else
    let found := y.finishNumber .integerLiteral integerValue?
    let z := found.2
    (found.1,
      if z.cursor.current = '.' then z.report .malformedNumber z.location ['.'] else z)

theorem finishNumber_past (hx : x.Marked) (h : x.rest = t ++ r) (kind : TokenKind)
    (value? : Text → Option Literal) : (x.past t []).finishNumber kind value? =
      x.taking ⟨kind, t, value? t, valueFaults t (value? t)⟩ := by
  have hplace : (x.past t []).tokenPlace = x.location := hx.place
  simp only [finishNumber, lexeme_past hx h, hplace, report_past]
  refine taking_eq (l := ⟨kind, t, value? t, valueFaults t (value? t)⟩) hx h ?_
  cases hvalue : value? t <;> simp [valueFaults, Fault.placed]

theorem floatValue?_point {whole : Text} (h : ∀ c ∈ whole, c ≠ '.') (fraction : Text) :
    floatValue? (whole ++ '.' :: fraction) = (Binary64.ofDecimal? whole fraction).map .float := by
  have hall : ∀ c ∈ whole, decide (c ≠ '.') = true := fun c hc => decide_eq_true (h c hc)
  rw [floatValue?, List.takeWhile_append_of_pos hall, List.dropWhile_append_of_pos hall]
  simp

/-- Digits that no point and digit follow are an integer. A point is reported and left. -/
theorem lexNumber_integer (hx : x.Marked) {digits : Text} (h : x.rest = digits ++ r)
    (heaten : x.onCursor (.eatWhile Char.isDigit) = x.past digits [])
    (hno : ∀ d u, r = '.' :: d :: u → d.isDigit = false) :
    x.lexNumber = x.taking (integerLexeme digits r) := by
  have hpoint : ∀ es, (x.past digits es).cursor.current = '.' ↔ r.head? = some '.' := by
    intro es
    rw [Cursor.current_eq_iff (by decide), show (x.past digits es).cursor.rest = r from rest_past h]
  have hint : ¬ ((x.past digits []).cursor.current = '.' ∧
      ((x.past digits []).cursor.peek 1).isDigit = true) := by
    rintro ⟨hcurrent, hdigit⟩
    obtain ⟨u, rfl⟩ := List.head?_eq_some_iff.mp ((hpoint []).mp hcurrent)
    rw [Cursor.peek, show (x.past digits []).cursor.rest = '.' :: u from rest_past h] at hdigit
    cases u with
    | nil => exact absurd hdigit (by decide)
    | cons d u => exact Bool.false_ne_true ((hno d u rfl).symm.trans hdigit)
  simp only [lexNumber, heaten, if_neg hint, finishNumber_past hx h]
  simp only [taking, hpoint, report_past, location_past, integerLexeme, pointFaults]
  split <;> simp [Lexeme.placed, Fault.placed]

/-- Digits, a point and digits are a float. -/
theorem lexNumber_float (hx : x.Marked) {digits more : Text} {d : Char} (hd : d.isDigit = true)
    (h : x.rest = digits ++ '.' :: d :: more) (hdigits : ∀ c ∈ digits, c ≠ '.')
    (heaten : x.onCursor (.eatWhile Char.isDigit) = x.past digits []) :
    x.lexNumber = x.taking (floatLexeme digits (d :: more.takeWhile Char.isDigit)) := by
  have hr : (x.past digits []).rest = '.' :: d :: more := rest_past h
  have hpeek : (x.past digits []).cursor.peek 1 = d := by
    rw [Cursor.peek, show (x.past digits []).cursor.rest = _ from hr]
    rfl
  have hfraction := onCursor_eatWhile (x := (x.past digits []).past ['.'] []) Char.isDigit
  rw [rest_past hr, List.takeWhile_cons_of_pos hd, past_past, past_past, List.append_assoc]
    at hfraction
  have htext : x.rest = (digits ++ '.' :: d :: more.takeWhile Char.isDigit) ++
      more.dropWhile Char.isDigit := by
    rw [h, List.append_assoc, List.cons_append, List.cons_append, List.takeWhile_append_dropWhile]
  rw [lexNumber, heaten, Cursor.current_of_cons hr, hpeek, if_pos ⟨rfl, hd⟩, onCursor_advance hr,
    past_past, hfraction]
  refine (finishNumber_past hx htext .floatLiteral floatValue?).trans ?_
  rw [floatValue?_point hdigits]
  rfl

theorem lexNumber_eq (hx : x.Marked) {c : Char} (hc : c.isDigit = true) (h : x.rest = c :: r) :
    x.lexNumber = x.taking (readNumber c r).1 := by
  have heaten := onCursor_eatWhile (x := x) Char.isDigit
  have hcut : x.rest = (c :: r.takeWhile Char.isDigit) ++ r.dropWhile Char.isDigit := by
    rw [List.cons_append, List.takeWhile_append_dropWhile, h]
  rw [h, List.takeWhile_cons_of_pos hc] at heaten
  fun_cases readNumber c r with
  | case1 digits rest d more hpoint hd =>
    rw [show r.dropWhile Char.isDigit = '.' :: d :: more from hpoint] at hcut
    refine lexNumber_float hx hd hcut (List.forall_mem_cons.mpr ⟨?_, ?_⟩) heaten
    · rintro rfl
      cases hc
    · rintro e he rfl
      cases List.all_eq_true.mp List.all_takeWhile _ he
  | case2 digits rest d more hpoint hd =>
    refine lexNumber_integer hx hcut heaten fun e u hu => ?_
    obtain ⟨-, rfl, -⟩ := List.cons.inj ((hpoint.symm.trans hu))
    exact Bool.eq_false_iff.mpr hd
  | case3 digits rest hno =>
    exact lexNumber_integer hx hcut heaten fun e u hu => absurd hu (hno e u)

/-! ## Words, symbols and stray characters -/

/-- Lexes an identifier or a keyword. -/
def lexWord (x : Lexer) : Token × Lexer :=
  let y := x.onCursor (.eatWhile isWordPart)
  (y.makeToken (wordKind y.lexeme) none, y)

/-- Lexes an operator or a punctuation mark, if there is one. -/
def lexSymbol? (x : Lexer) : Option (Token × Lexer) :=
  match Operator.longestMatch? x.rest with
  | some o =>
    let y := x.onCursor (.advanceBy o.spelling.length)
    some (y.makeToken (.operator o) none, y)
  | none => (Punctuation.ofChar? x.cursor.current).map fun p =>
    let y := x.onCursor .advance
    (y.makeToken (.punctuation p) none, y)

/-- Reports a character that begins no token, and moves over it. -/
def skipStray (x : Lexer) : Lexer :=
  (x.onCursor .advance).report .invalidCharacter x.tokenPlace [x.cursor.current]

theorem lexWord_eq (hx : x.Marked) {c : Char} (hc : isWordPart c = true) (h : x.rest = c :: r) :
    x.lexWord = x.taking (readWord c r).1 := by
  have htext := h.trans (readWord_append c r).symm
  have heaten := onCursor_eatWhile (x := x) isWordPart
  rw [h, List.takeWhile_cons_of_pos hc] at heaten
  have hword : (x.past (c :: r.takeWhile isWordPart) []).lexeme = c :: r.takeWhile isWordPart :=
    lexeme_past hx htext
  rw [lexWord, heaten, hword]
  exact taking_eq hx htext rfl

theorem lexSymbol?_eq (hx : x.Marked) {c : Char} (h : x.rest = c :: r) :
    x.lexSymbol? = (readSymbol? c r).map fun found => x.taking found.1 := by
  rw [lexSymbol?, readSymbol?, h]
  cases hlongest : Operator.longestMatch? (c :: r) with
  | some o =>
    obtain ⟨u, hu⟩ : o.spelling <+: c :: r := by simpa using List.find?_some hlongest
    have htext : x.rest = o.spelling ++ u := h.trans hu.symm
    simp only [onCursor_advanceBy htext, Option.map_some]
    exact congrArg some (taking_eq (l := .plain (.operator o) o.spelling) hx htext rfl)
  | none =>
    simp only [Cursor.current_of_cons h, onCursor_advance h, Option.map_map]
    refine congrArg (Option.map · _) (funext fun p => ?_)
    exact taking_eq (l := .plain (.punctuation p) [c]) hx h rfl

theorem skipStray_eq (hx : x.Marked) {c : Char} (h : x.rest = c :: r) :
    x.skipStray = x.past [c] [⟨.invalidCharacter, x.location, [c]⟩] := by
  rw [skipStray, onCursor_advance h, report_past, Cursor.current_of_cons h, hx.place]
  rfl

end Lexer

end Lexis
