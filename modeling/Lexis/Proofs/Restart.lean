-- The law of the restart: all that a lexer remembers is where it stands. A new lexer over the text
-- that is left goes on as the old one does, token by token and error by error.
import Lexis.Proofs.LexerCalls
import Lexis.Proofs.Origins

namespace Lexis

/-! ## A new lexer in place of an old one -/

/-- The token is the part of a text between its offsets, when the text starts at a position. -/
def Token.SliceOf (t : Token) (origin : Position) (text : Text) : Prop :=
  text.slice? (t.start.offset - origin.offset) (t.stop.offset - origin.offset) = some t.lexeme

/-- The second cursor runs over the part of the source of the first one behind a front, and stands
at the same character of it. Its own offsets are smaller by the front, and its base makes up for
that. -/
structure Cursor.Shifted (front : Text) (c d : Cursor) : Prop where
  source : c.source = front ++ d.source
  offset : c.offset = front.byteSize + d.offset
  base : d.base = c.base + front.byteSize
  line : d.line = c.line
  column : d.column = c.column

namespace Lexer

/-- A new lexer over the text that is left. -/
def restarted (x : Lexer) : Lexer := withOrigin x.location x.rest

/-- After any number of tokens the two lexers stand at one character, with the same text ahead, and
the first has the errors of the second behind its own. The first cuts its tokens out of the whole
source, where they begin further on by the text that was consumed before the second was made. -/
structure InStep (x y : Lexer) (consumed : Text) (errors : List LexicalError) (m : Nat) : Prop where
  token : (x.afterTokens m).nextToken.1 = (y.afterTokens m).nextToken.1
  errors : (x.afterTokens m).errors = errors ++ (y.afterTokens m).errors
  location : (x.afterTokens m).location = (y.afterTokens m).location
  rest : (x.afterTokens m).rest = (y.afterTokens m).rest
  cursor : (x.afterTokens m).cursor.Shifted consumed (y.afterTokens m).cursor
  tokenStart : 0 < m →
    (x.afterTokens m).tokenStart = consumed.byteSize + (y.afterTokens m).tokenStart
  tokenPlace : 0 < m → (x.afterTokens m).tokenPlace = (y.afterTokens m).tokenPlace

/-- What a lexer does after a number of tokens of a source is what a new lexer does over the text
that is left behind what it has consumed. The offsets of a token to come cut its lexeme out of that
text and of the source. -/
structure Restarts (origin : Position) (source : Text) (n : Nat) (consumed : Text) (x : Lexer) :
    Prop where
  place : Recomputed origin source x.location consumed x.rest
  in_step : ∀ m, x.InStep x.restarted consumed x.errors m
  slices : ∀ t ∈ x.restarted.drain.1, t.SliceOf x.location x.rest ∧ t.SliceOf origin source
  tokens_left : n < (withOrigin origin source).drain.1.length →
    (withOrigin origin source).drain.1.drop n = x.restarted.drain.1 ∧
      x.drain.1 = x.restarted.drain.1
  none_left : (withOrigin origin source).drain.1.length ≤ n →
    x.rest = [] ∧ x.drain.1 = [] ∧ x.restarted.drain.1 = [x.nextToken.1]
  errors_left : x.drain.2.errors = x.errors ++ x.restarted.drain.2.errors ∧
    (withOrigin origin source).drain.2.errors = x.errors ++ x.restarted.drain.2.errors

end Lexer

/-! ## Two cursors over one text -/

namespace Cursor.Shifted

variable {front : Text} {c d : Cursor}

theorem location_eq (h : c.Shifted front d) : c.location = d.location := by
  rw [location, location, h.base, h.line, h.column, h.offset, Nat.add_assoc]

theorem past (h : c.Shifted front d) (t : Text) : (c.past t).Shifted front (d.past t) where
  source := h.source
  offset := by
    have hc : (c.past t).offset = c.offset + t.byteSize := rfl
    have hd : (d.past t).offset = d.offset + t.byteSize := rfl
    rw [hc, hd, h.offset, Nat.add_assoc]
  base := h.base
  line := by rw [Cursor.past, Cursor.past, h.location_eq]
  column := by rw [Cursor.past, Cursor.past, h.location_eq]

end Cursor.Shifted

namespace Lexer

/-! ## In step -/

/-- Lexers with one text ahead of them, at one place, pass over the same text in a call. -/
theorem calls_pass_over {x y : Lexer} (hlocation : x.location = y.location)
    (hrest : x.rest = y.rest) : ∃ before, x.Refines (nextFrom x.location x.rest) before ∧
      y.Refines (nextFrom x.location x.rest) before := by
  obtain ⟨before, hx⟩ := x.exists_refines
  obtain ⟨before', hy⟩ := y.exists_refines
  rw [← hlocation, ← hrest] at hy
  have hsame : before = before' := List.append_cancel_right (hx.cut.symm.trans (hrest.trans hy.cut))
  exact ⟨before, hx, hsame ▸ hy⟩

/-- The two lexers stand at one character, the first one with a text and errors behind it that the
second does not have. -/
structure Alongside (consumed : Text) (errors : List LexicalError) (x y : Lexer) : Prop where
  rest : x.rest = y.rest
  cursor : x.cursor.Shifted consumed y.cursor
  errors : x.errors = errors ++ y.errors

/-- One call on each of the lexers gives one token, cut out of the two sources at two offsets, and
they stand at one character again. -/
theorem Alongside.nextToken {consumed : Text} {errors : List LexicalError} {x y : Lexer}
    (h : Alongside consumed errors x y) : x.nextToken.1 = y.nextToken.1 ∧
      Alongside consumed errors x.nextToken.2 y.nextToken.2 ∧
      x.nextToken.2.tokenStart = consumed.byteSize + y.nextToken.2.tokenStart ∧
      x.nextToken.2.tokenPlace = y.nextToken.2.tokenPlace := by
  obtain ⟨before, hx, hy⟩ := calls_pass_over h.cursor.location_eq h.rest
  have hrest : x.nextToken.2.rest = y.nextToken.2.rest := by
    rw [rest_nextToken, rest_nextToken, ← h.rest]
    exact congrArg (fun p => (nextFrom p x.rest).rest) h.cursor.location_eq
  have hcursor : x.nextToken.2.cursor.Shifted consumed y.nextToken.2.cursor := by
    rw [hx.call, hy.call]
    exact h.cursor.past _
  have herrors : x.nextToken.2.errors = errors ++ y.nextToken.2.errors := by
    rw [hx.call, hy.call, h.errors, List.append_assoc]
  refine ⟨?_, ⟨hrest, hcursor, herrors⟩, ?_, ?_⟩
  · rw [hx.call, hy.call]
  · rw [hx.call, hy.call, h.cursor.offset, Nat.add_assoc]
  · rw [hx.call, hy.call]

theorem Alongside.afterTokens {consumed : Text} {errors : List LexicalError} {x y : Lexer}
    (h : Alongside consumed errors x y) (m : Nat) :
    Alongside consumed errors (x.afterTokens m) (y.afterTokens m) := by
  induction m with
  | zero => exact h
  | succ m ih => exact ih.nextToken.2.1

theorem Alongside.inStep {consumed : Text} {errors : List LexicalError} {x y : Lexer}
    (h : Alongside consumed errors x y) (m : Nat) : x.InStep y consumed errors m where
  token := (h.afterTokens m).nextToken.1
  errors := (h.afterTokens m).errors
  location := (h.afterTokens m).cursor.location_eq
  rest := (h.afterTokens m).rest
  cursor := (h.afterTokens m).cursor
  tokenStart hm := by
    obtain ⟨n, rfl⟩ := Nat.exists_eq_succ_of_ne_zero (Nat.ne_of_gt hm)
    exact (h.afterTokens n).nextToken.2.2.1
  tokenPlace hm := by
    obtain ⟨n, rfl⟩ := Nat.exists_eq_succ_of_ne_zero (Nat.ne_of_gt hm)
    exact (h.afterTokens n).nextToken.2.2.2

/-! ## Where a lexer stands -/

/-- A lexer over a source stands where the text that it has read leads to. -/
theorem afterTokens_place (origin : Position) (source : Text) (n : Nat) : ∃ consumed,
    source = consumed ++ ((withOrigin origin source).afterTokens n).rest ∧
      ((withOrigin origin source).afterTokens n).cursor =
        (Cursor.withOrigin origin source).past consumed := by
  induction n with
  | zero => exact ⟨[], (rest_withOrigin origin source).symm, rfl⟩
  | succ n ih =>
    obtain ⟨consumed, hsource, hcursor⟩ := ih
    obtain ⟨before, href⟩ := ((withOrigin origin source).afterTokens n).exists_refines
    have hcut := href.cut
    rw [← List.append_assoc, ← rest_nextToken] at hcut
    rw [hcut, ← List.append_assoc] at hsource
    refine ⟨_, hsource, ?_⟩
    rw [afterTokens, href.call, hcursor, Cursor.past_past]

/-- A new lexer over the text that is left runs alongside the old one. -/
theorem alongside_restarted {origin : Position} {source consumed : Text} {x : Lexer}
    (hsource : source = consumed ++ x.rest)
    (hcursor : x.cursor = (Cursor.withOrigin origin source).past consumed) :
    Alongside consumed x.errors x x.restarted where
  rest := (rest_withOrigin x.location x.rest).symm
  cursor :=
    { source := by
        rw [hcursor]
        exact hsource
      offset := by
        rw [hcursor]
        exact Nat.add_comm 0 consumed.byteSize
      base := by
        have hoffset : x.cursor.offset = consumed.byteSize := by
          rw [hcursor]
          exact Nat.zero_add consumed.byteSize
        rw [← hoffset]
        rfl
      line := rfl
      column := rfl }
  errors := (List.append_nil x.errors).symm

theorem sliceOf_of_cut {origin : Position} {text before after : Text} {t : Token}
    (htext : text = before ++ (t.lexeme ++ after)) (hstart : t.start = origin.advancedOver before)
    (hstop : t.stop = t.start.advancedOver t.lexeme) : t.SliceOf origin text := by
  have hsize : t.stop.offset - origin.offset = before.byteSize + t.lexeme.byteSize := by
    rw [hstop, hstart, ← Position.advancedOver_append, Position.local_offset, Text.byteSize_append]
  unfold Token.SliceOf
  rw [hsize, hstart, Position.local_offset, htext]
  exact Text.slice?_append before t.lexeme after

/-- A token of a scan of the text behind a front is cut out of that text and of the whole. -/
theorem sliceOf_scanFrom {origin : Position} {consumed text : Text} {t : Token}
    (ht : t ∈ (scanFrom (origin.advancedOver consumed) text).tokens) :
    t.SliceOf (origin.advancedOver consumed) text ∧ t.SliceOf origin (consumed ++ text) := by
  obtain ⟨before, after, htext, hstart, hstop⟩ := cut_of_token ht
  refine ⟨sliceOf_of_cut htext hstart hstop, ?_⟩
  have hwhole : consumed ++ text = (consumed ++ before) ++ (t.lexeme ++ after) := by
    rw [htext, List.append_assoc]
  rw [← Position.advancedOver_append] at hstart
  exact sliceOf_of_cut hwhole hstart hstop

/-! ## What is left -/

section

variable (origin : Position) (source : Text)

/-- A lexer that has handed out all tokens stays at the end. -/
theorem afterTokens_of_le {n : Nat} (hn : (scanFrom origin source).tokens.length ≤ n) :
    ((withOrigin origin source).afterTokens n).Behind (scanFrom origin source)
      (origin.advancedOver source) := by
  induction hn with
  | refl => exact afterTokens_all origin source
  | step _ ih =>
    rw [afterTokens, ih.atEnd.nextToken_eq]
    exact ih

theorem location_of_place {origin : Position} {source consumed : Text} {x : Lexer}
    (hcursor : x.cursor = (Cursor.withOrigin origin source).past consumed) :
    x.location = origin.advancedOver consumed := by
  rw [location, hcursor, Cursor.location_past]
  rfl

theorem restarts_afterTokens (n : Nat) : ∃ consumed,
    ((withOrigin origin source).afterTokens n).Restarts origin source n consumed := by
  obtain ⟨consumed, hsource, hcursor⟩ := afterTokens_place origin source n
  have hlocation := location_of_place hcursor
  have hplace := recomputed_of_cut origin hsource
  rw [← hlocation] at hplace
  have hslices : ∀ t ∈ ((withOrigin origin source).afterTokens n).restarted.drain.1,
      t.SliceOf ((withOrigin origin source).afterTokens n).location
        ((withOrigin origin source).afterTokens n).rest ∧ t.SliceOf origin source := by
    intro t ht
    rw [restarted, tokens_drain_withOrigin, hlocation] at ht
    have hslice := sliceOf_scanFrom ht
    rwa [← hlocation, ← hsource] at hslice
  have hwhole := tokens_drain_withOrigin origin source
  have hfound := errors_drain_withOrigin origin source
  have hagain : ((withOrigin origin source).afterTokens n).restarted.Drained _ :=
    drained_withOrigin _ _
  have hagainErrors := hagain.errors
  rw [show ((withOrigin origin source).afterTokens n).restarted.errors = [] from rfl,
    List.nil_append] at hagainErrors
  rcases Nat.lt_or_ge n (scanFrom origin source).tokens.length with hn | hn
  · rcases afterTokens_stands origin source n (Nat.le_of_lt hn) with ⟨-, hbefore⟩ | ⟨heq, -⟩
    · refine ⟨consumed, hplace, (alongside_restarted hsource hcursor).inStep, hslices, ?_, ?_, ?_⟩
      · intro _
        rw [hwhole, hagain.tokens, hbefore.drain_eq.1]
        exact ⟨hbefore.tokens.symm, hbefore.tokens.symm⟩
      · intro hle
        rw [hwhole] at hle
        exact absurd hn (Nat.not_lt.mpr hle)
      · rw [hfound, hagainErrors, hbefore.drain_eq.2]
        exact ⟨hbefore.errors.symm, hbefore.errors.symm⟩
    · exact absurd hn (Nat.not_lt.mpr (Nat.le_of_eq heq.symm))
  · have hend := afterTokens_of_le origin source hn
    rw [hend.atEnd.rest, hend.atEnd.location, scanFrom_nil] at hagain hagainErrors
    refine ⟨consumed, hplace, (alongside_restarted hsource hcursor).inStep, hslices, ?_, ?_, ?_⟩
    · intro hlt
      rw [hwhole] at hlt
      exact absurd hlt (Nat.not_lt.mpr hn)
    · intro _
      rw [hend.atEnd.rest, hend.atEnd.drain_eq, hend.atEnd.nextToken_eq, hagain.tokens]
      exact ⟨rfl, rfl, rfl⟩
    · rw [hfound, hend.atEnd.drain_eq, hagainErrors, List.append_nil]
      exact ⟨rfl, hend.errors.symm⟩

/-- The text that is left after a token is the text behind it. -/
theorem restarted_after {front back : List Token} {t : Token}
    (htokens : (scanFrom origin source).tokens = front ++ t :: back) : ∃ before rest,
      source = before ++ (t.lexeme ++ rest) ∧ t.start = origin.advancedOver before ∧
        ((withOrigin origin source).afterTokens (front.length + 1)).restarted =
          withOrigin t.stop rest := by
  have hlength := congrArg List.length htokens
  rw [List.length_append, List.length_cons] at hlength
  have hlocation := location_afterTokens origin source (front.length + 1)
    (show _ ≤ (scanFrom origin source).tokens.length by omega)
  have hplace : (recording origin source).place (front.length + 1) = t.stop := by
    rw [Recording.place, show (recording origin source).tokens = _ from htokens]
    simp
  rw [hplace] at hlocation
  obtain ⟨before, rest, hsource, hstart, hstop⟩ :=
    cut_of_token (show t ∈ (scanFrom origin source).tokens by rw [htokens]; simp)
  obtain ⟨consumed, hconsumed, hstands⟩ := afterTokens_place origin source (front.length + 1)
  have hplaces := location_of_place hstands
  rw [hlocation, hstop, hstart, ← Position.advancedOver_append] at hplaces
  have hoffset := congrArg Position.offset hplaces
  rw [Position.offset_advancedOver, Position.offset_advancedOver, Nat.add_left_cancel_iff]
    at hoffset
  have hcut := hsource.symm.trans hconsumed
  rw [← List.append_assoc] at hcut
  have hrest := (Text.append_inj_of_byteSize hcut hoffset).2
  refine ⟨before, rest, hsource, hstart, ?_⟩
  rw [restarted, hlocation, ← hrest]

end

end Lexer

/-- Scanning can be restarted anywhere. After any number of tokens a new lexer over the text that
is left hands out the tokens that are left and finds the errors that are left, and so does a new
lexer over the text behind any token of the scan. -/
theorem scanning_restarts_anywhere (origin : Position) (source : Text) :
    (∀ n, ∃ consumed,
      ((Lexer.withOrigin origin source).afterTokens n).Restarts origin source n consumed) ∧
    ∀ front t back, (Lexer.withOrigin origin source).drain.1 = front ++ t :: back →
      t.isEndOfFile = false → ∃ before rest, source = before ++ (t.lexeme ++ rest) ∧
        t.start = origin.advancedOver before ∧ (Lexer.withOrigin t.stop rest).drain.1 = back ∧
        (Lexer.withOrigin origin source).drain.2.errors =
          ((Lexer.withOrigin origin source).afterTokens (front.length + 1)).errors ++
            (Lexer.withOrigin t.stop rest).drain.2.errors := by
  refine ⟨fun n => Lexer.restarts_afterTokens origin source n, ?_⟩
  intro front t back htokens hlast
  obtain ⟨consumed, hrestarts⟩ := Lexer.restarts_afterTokens origin source (front.length + 1)
  have hscan : (scanFrom origin source).tokens = front ++ t :: back := by
    rw [← htokens, Lexer.tokens_drain_withOrigin]
  obtain ⟨before, rest, hsource, hstart, hagain⟩ := Lexer.restarted_after origin source hscan
  have hback : back ≠ [] := by
    rintro rfl
    have hend := congrArg List.getLast? hscan
    rw [scanFrom_eq, List.getLast?_concat, List.getLast?_concat, Option.some.injEq] at hend
    rw [← hend] at hlast
    cases hlast
  have hmore := List.length_pos_iff.mpr hback
  have hleft := (hrestarts.tokens_left (by simp [htokens]; omega)).1
  have herrors := hrestarts.errors_left.2
  rw [hagain] at hleft herrors
  refine ⟨before, rest, hsource, hstart, ?_, herrors⟩
  rw [← hleft, htokens]
  simp

theorem a_scan_restarts_behind_a_point :
    let origin : Position := ⟨2, 3, 7⟩
    let number : Token := ⟨.integerLiteral, ['1'], ⟨2, 3, 7⟩, ⟨2, 4, 8⟩, some (.integer 1)⟩
    let point : Token := ⟨.punctuation .dot, ['.'], ⟨2, 4, 8⟩, ⟨2, 5, 9⟩, none⟩
    let back : List Token := [⟨.comment, "/*é".toList, ⟨2, 6, 10⟩, ⟨2, 9, 14⟩, none⟩,
      Token.endOfFile ⟨2, 9, 14⟩]
    (Lexer.withOrigin origin "1. /*é".toList).drain.1 = [number] ++ point :: back ∧
      point.isEndOfFile = false ∧ ∃ before rest,
        "1. /*é".toList = before ++ (point.lexeme ++ rest) ∧
        point.start = origin.advancedOver before ∧
        (Lexer.withOrigin point.stop rest).drain.1 = back ∧
        (Lexer.withOrigin origin "1. /*é".toList).drain.2.errors =
          ((Lexer.withOrigin origin "1. /*é".toList).afterTokens 2).errors ++
            (Lexer.withOrigin point.stop rest).drain.2.errors := by
  intro origin number point back
  have htokens : (Lexer.withOrigin origin "1. /*é".toList).drain.1 = [number] ++ point :: back := by
    rw [Lexer.tokens_drain_withOrigin]
    decide +kernel
  exact ⟨htokens, rfl, (scanning_restarts_anywhere origin _).2 [number] point back htokens rfl⟩

end Lexis
