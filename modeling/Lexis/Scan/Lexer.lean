-- Scanning on demand. Each call skips blanks and stray characters up to the
-- next token. The end-of-file token comes last, and again on every call after.
import Lexis.Scan.Routines

namespace Lexis

namespace Lexer

/-! ## One token -/

def skipBlanks (x : Lexer) : Lexer := x.onCursor (.eatWhile isBlank)

/-- Lexes the token that begins at the cursor, if one does. A comment is tried
before an operator. -/
def lexHere? (x : Lexer) : Option (Token × Lexer) :=
  let c := x.cursor.current
  if c = '/' ∧ (x.cursor.peek 1 = '/' ∨ x.cursor.peek 1 = '*') then some x.lexComment
  else if c = '"' ∨ c = '\'' then some x.lexString
  else if c.isDigit then some x.lexNumber
  else if isWordStart c then some x.lexWord
  else x.lexSymbol?

variable {x : Lexer}

/-- The lexer takes the lexeme that is read from the text ahead. -/
theorem lexHere?_eq (hx : x.Marked) {c : Char} {r : Text} (h : x.rest = c :: r) :
    x.lexHere? = (readLexeme? c r).map fun found => x.taking found.1 := by
  have hcurrent : x.cursor.current = c := Cursor.current_of_cons h
  have hpeek : ∀ d, d ≠ Cursor.sentinel → (x.cursor.peek 1 = d ↔ r.head? = some d) :=
    fun d hd => Cursor.peek_one_eq_iff h hd
  simp only [lexHere?, hcurrent, hpeek '/' (by decide), hpeek '*' (by decide)]
  have hcomment : (∀ t, c = '/' → r = '/' :: t → False) → (∀ t, c = '/' → r = '*' :: t → False) →
      ¬ (c = '/' ∧ (r.head? = some '/' ∨ r.head? = some '*')) := by
    rintro hline hblock ⟨hc, hhead | hhead⟩
    · obtain ⟨t, ht⟩ := List.head?_eq_some_iff.mp hhead
      exact hline t hc ht
    · obtain ⟨t, ht⟩ := List.head?_eq_some_iff.mp hhead
      exact hblock t hc ht
  fun_cases readLexeme? c r with
  | case1 t => simp [lexComment_line hx h]
  | case2 t => simp [lexComment_block hx h]
  | case3 => simp [lexString_eq hx h]
  | case4 => simp [lexString_eq hx h]
  | case5 _ _ hline hblock hdouble hsingle hdigit =>
    rw [if_neg (hcomment hline hblock), if_neg (not_or.mpr ⟨hdouble, hsingle⟩), if_pos hdigit,
      lexNumber_eq hx hdigit h]
    rfl
  | case6 _ _ hline hblock hdouble hsingle hdigit hword =>
    rw [if_neg (hcomment hline hblock), if_neg (not_or.mpr ⟨hdouble, hsingle⟩), if_neg hdigit,
      if_pos hword, lexWord_eq hx (isWordPart_of_isWordStart hword) h]
    rfl
  | case7 _ _ hline hblock hdouble hsingle hdigit hword =>
    rw [if_neg (hcomment hline hblock), if_neg (not_or.mpr ⟨hdouble, hsingle⟩), if_neg hdigit,
      if_neg hword]
    exact lexSymbol?_eq hx h

theorem rest_skipBlanks (x : Lexer) : x.skipBlanks.rest = x.rest.dropWhile isBlank := by
  have hcut := List.takeWhile_append_dropWhile (p := isBlank) (l := x.rest)
  rw [skipBlanks, onCursor_eatWhile]
  exact rest_past hcut.symm

theorem length_rest_skipBlanks_le (x : Lexer) :
    x.skipBlanks.markStart.rest.length ≤ x.rest.length := by
  have hblanks : x.skipBlanks.markStart.rest = x.rest.dropWhile isBlank := x.rest_skipBlanks
  rw [hblanks]
  exact (List.dropWhile_suffix isBlank).length_le

theorem length_rest_skipStray_lt (h : ¬ x.cursor.isAtEnd = true) :
    x.skipStray.rest.length < x.rest.length := by
  have htail : x.skipStray.rest = x.rest.tail := x.rest_onCursor_advance
  rw [htail, List.length_tail]
  exact Nat.pred_lt_of_lt (length_rest_pos h)

/-- The lexer after the end-of-file token. -/
def finish (x : Lexer) : Lexer := { x with finished := true }

/-- Hands out the next token. At the end it is the end-of-file token, each time. -/
def nextToken (x : Lexer) : Token × Lexer :=
  let y := x.skipBlanks.markStart
  if _h : y.cursor.isAtEnd then (y.finish.makeToken .endOfFile none, y.finish)
  else
    match y.lexHere? with
    | some found => found
    | none => nextToken y.skipStray
termination_by x.rest.length
decreasing_by
  exact Nat.lt_of_lt_of_le (length_rest_skipStray_lt _h) x.length_rest_skipBlanks_le

/-- Hands out the next token, the end-of-file token only once. -/
def next? (x : Lexer) : Option Token × Lexer :=
  if x.finished then (none, x)
  else (some x.nextToken.1, x.nextToken.2)

/-- A call finishes the lexer, or moves it on. -/
theorem nextToken_progress (x : Lexer) :
    x.nextToken.2.finished = true ∨ x.nextToken.2.rest.length < x.rest.length := by
  fun_induction nextToken x with
  | case1 x y h => exact .inl rfl
  | case2 x y h found hfound =>
    obtain ⟨r, hr⟩ := Cursor.rest_of_not_end h
    rw [lexHere?_eq (marked_markStart _) hr] at hfound
    obtain ⟨taken, htaken, rfl⟩ := Option.map_eq_some_iff.mp hfound
    have htext := readLexeme?_append htaken
    have hlength := congrArg List.length htext
    have hpos := List.length_pos_iff.mpr (readLexeme?_text_ne_nil htaken)
    refine .inr (Nat.lt_of_lt_of_le ?_ x.length_rest_skipBlanks_le)
    rw [taking, rest_past (Eq.trans hr htext.symm), show y.rest = _ from hr, ← hlength,
      List.length_append]
    omega
  | case3 x y h hnone ih =>
    have hstray := Nat.lt_of_lt_of_le (length_rest_skipStray_lt h) x.length_rest_skipBlanks_le
    exact ih.imp_right fun hless => Nat.lt_trans hless hstray

/-- Hands out all the tokens that are left. -/
def drain (x : Lexer) : List Token × Lexer :=
  if _h : x.finished then ([], x)
  else
    let more := drain x.nextToken.2
    (x.nextToken.1 :: more.1, more.2)
termination_by bif x.finished then 0 else x.rest.length + 1
decreasing_by
  rw [Bool.eq_false_iff.mpr _h, cond_false]
  rcases x.nextToken_progress with hfinished | hless
  · rw [hfinished]
    exact Nat.succ_pos _
  · cases x.nextToken.2.finished with
    | true => exact Nat.succ_pos _
    | false => exact Nat.succ_lt_succ hless

end Lexer

end Lexis
