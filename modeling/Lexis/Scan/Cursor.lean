-- A cursor moves through a source one character at a time and knows its
-- place there as a byte offset and as a position.
import Lexis.Text.Position

namespace Lexis

/-- The source, the byte offset in it that the cursor has come to, the offset
of the source in the whole buffer, and the line and the column of the cursor. -/
structure Cursor where
  source : Text
  offset : Nat
  base : Nat
  line : Nat
  column : Nat
deriving DecidableEq, Repr

namespace Cursor

/-- The character that stands for the end of the source. -/
def sentinel : Char := '\x00'

/-- A cursor in front of a source whose first character stands at a position. -/
def withOrigin (origin : Position) (source : Text) : Cursor :=
  ⟨source, 0, origin.offset, origin.line, origin.column⟩

/-- The position of the next character in the whole buffer. -/
def location (c : Cursor) : Position := ⟨c.line, c.column, c.base + c.offset⟩

/-- The part of the source that is still ahead. -/
def rest (c : Cursor) : Text := ((c.source.splitAt? c.offset).map Prod.snd).getD []

/-! ## Looking -/

def isAtEnd (c : Cursor) : Bool := c.rest.isEmpty

/-- The character a number of places ahead, or the sentinel past the end. -/
def peek (c : Cursor) (n : Nat) : Char := (c.rest[n]?).getD sentinel

def current (c : Cursor) : Char := c.peek 0

theorem isAtEnd_of_nil {c : Cursor} (h : c.rest = []) : c.isAtEnd = true := by
  rw [isAtEnd, h]
  rfl

theorem isAtEnd_of_cons {c : Cursor} {x : Char} {r : Text} (h : c.rest = x :: r) :
    c.isAtEnd = false := by
  rw [isAtEnd, h]
  rfl

theorem current_of_cons {c : Cursor} {x : Char} {r : Text} (h : c.rest = x :: r) :
    c.current = x := by
  rw [current, peek, h]
  rfl

/-- The source from a byte offset up to the cursor. There is none when the
offset is past the cursor or inside a character. -/
def sliceFrom? (c : Cursor) (start : Nat) : Option Text := c.source.slice? start c.offset

/-- A character ahead that is not the sentinel is a character of the source. -/
theorem current_eq_iff {c : Cursor} {x : Char} (hx : x ≠ sentinel) :
    c.current = x ↔ c.rest.head? = some x := by
  cases hrest : c.rest with
  | nil => simp [current, peek, hrest, hx.symm]
  | cons y r => simp [current, peek, hrest]

theorem peek_one_eq_iff {c : Cursor} {x y : Char} {r : Text} (h : c.rest = x :: r)
    (hy : y ≠ sentinel) : c.peek 1 = y ↔ r.head? = some y := by
  cases r with
  | nil => simp [peek, h, hy.symm]
  | cons z r => simp [peek, h]

/-- In front of the end there is a next character. -/
theorem rest_of_not_end {c : Cursor} (h : ¬ c.isAtEnd = true) : ∃ r, c.rest = c.current :: r := by
  obtain ⟨x, r, hrest⟩ := List.exists_cons_of_ne_nil fun hnil => h (isAtEnd_of_nil hnil)
  rw [current_of_cons hrest]
  exact ⟨r, hrest⟩

/-! ## Behind a text -/

theorem rest_of_cut {c : Cursor} {before after : Text} (h : c.source = before ++ after)
    (hsize : before.byteSize = c.offset) : c.rest = after := by
  rw [rest, h, ← hsize, Text.splitAt?_append]
  rfl

/-- What is ahead stands behind a cut of the source, or there is nothing ahead. -/
theorem cut_of_rest {c : Cursor} (h : c.rest ≠ []) :
    ∃ before, c.source = before ++ c.rest ∧ before.byteSize = c.offset := by
  cases hcut : c.source.splitAt? c.offset with
  | none => simp [rest, hcut] at h
  | some parts =>
    obtain ⟨before, after⟩ := parts
    obtain ⟨hsource, hsize⟩ := Text.splitAt?_eq_some_iff.mp hcut
    rw [rest_of_cut hsource hsize]
    exact ⟨before, hsource, hsize⟩

/-- The cursor behind a text that is ahead. -/
def past (t : Text) (c : Cursor) : Cursor where
  source := c.source
  offset := c.offset + t.byteSize
  base := c.base
  line := (c.location.advancedOver t).line
  column := (c.location.advancedOver t).column

@[simp] theorem past_nil (c : Cursor) : c.past [] = c := rfl

@[simp] theorem location_past (t : Text) (c : Cursor) :
    (c.past t).location = c.location.advancedOver t := by
  have hoffset := c.location.offset_advancedOver t
  rw [location, Nat.add_assoc] at hoffset
  rw [location, past, ← hoffset]
  rfl

theorem past_past (s t : Text) (c : Cursor) : (c.past s).past t = c.past (s ++ t) := by
  rw [past, location_past, ← Position.advancedOver_append]
  simp only [past, Text.byteSize_append, Nat.add_assoc]

theorem rest_past {c : Cursor} {t r : Text} (h : c.rest = t ++ r) : (c.past t).rest = r := by
  by_cases hrest : c.rest = []
  · obtain ⟨rfl, rfl⟩ := List.append_eq_nil_iff.mp (h.symm.trans hrest)
    exact hrest
  · obtain ⟨before, hsource, hsize⟩ := cut_of_rest hrest
    rw [h, ← List.append_assoc] at hsource
    refine rest_of_cut hsource ?_
    rw [Text.byteSize_append, hsize]
    rfl

/-- A slice from where the cursor stood is the text that it has moved over. -/
theorem sliceFrom?_past {c : Cursor} {t r : Text} (h : c.rest = t ++ r) :
    ((c.past t).sliceFrom? c.offset).getD [] = t := by
  by_cases hrest : c.rest = []
  · obtain ⟨rfl, rfl⟩ := List.append_eq_nil_iff.mp (h.symm.trans hrest)
    exact Text.slice?_self c.offset c.source
  · obtain ⟨before, hsource, hsize⟩ := cut_of_rest hrest
    rw [h] at hsource
    rw [sliceFrom?, past, hsource, ← hsize]
    simp only [Text.slice?_append, Option.getD_some]

/-! ## Moving -/

/-- Moves over one character. At the end the cursor stays. -/
def advance (c : Cursor) : Cursor :=
  match c.rest with
  | [] => c
  | x :: _ =>
    let moved := { c with offset := c.offset + x.utf8Size }
    if x = '\n' then { moved with line := c.line + 1, column := 1 }
    else { moved with column := c.column + 1 }

theorem advance_of_nil {c : Cursor} (h : c.rest = []) : c.advance = c := by
  rw [advance, h]

theorem advance_of_cons {c : Cursor} {x : Char} {r : Text} (h : c.rest = x :: r) :
    c.advance = c.past [x] := by
  by_cases hx : x = '\n'
  · simp [advance, h, past, Position.advance, location, hx]
  · simp [advance, h, past, Position.advance, location, hx]

@[simp] theorem rest_advance (c : Cursor) : c.advance.rest = c.rest.tail := by
  cases hrest : c.rest with
  | nil => rw [advance_of_nil hrest, hrest]; rfl
  | cons x r => rw [advance_of_cons hrest]; exact rest_past hrest

/-- Moves over a number of characters, or to the end. -/
def advanceBy : Nat → Cursor → Cursor
  | 0, c => c
  | n + 1, c => if c.isAtEnd then c else advanceBy n c.advance

@[simp] theorem rest_advanceBy (n : Nat) (c : Cursor) : (c.advanceBy n).rest = c.rest.drop n := by
  induction n generalizing c with
  | zero => rfl
  | succ n ih =>
    rw [advanceBy]
    cases hrest : c.rest with
    | nil => rw [isAtEnd_of_nil hrest, if_pos rfl, hrest]; rfl
    | cons x r =>
      rw [isAtEnd_of_cons hrest, if_neg Bool.false_ne_true, ih, rest_advance, hrest]
      rfl

theorem advanceBy_length {c : Cursor} {t r : Text} (h : c.rest = t ++ r) :
    c.advanceBy t.length = c.past t := by
  induction t generalizing c with
  | nil => rfl
  | cons x t ih =>
    have hrest : c.advance.rest = t ++ r := by rw [rest_advance, h]; rfl
    rw [List.length_cons, advanceBy, isAtEnd_of_cons h, if_neg Bool.false_ne_true, ih hrest,
      advance_of_cons h, past_past]
    rfl

/-- Moves over characters of a class, up to the first other one. -/
def eatWhile (p : Char → Bool) (c : Cursor) : Cursor :=
  match _h : c.rest with
  | [] => c
  | x :: _ => if p x then eatWhile p c.advance else c
termination_by c.rest.length
decreasing_by
  rw [rest_advance, _h]
  exact Nat.lt_succ_self _

theorem eatWhile_eq (p : Char → Bool) (c : Cursor) :
    c.eatWhile p = c.past (c.rest.takeWhile p) := by
  fun_induction eatWhile p c with
  | case1 c hrest => rw [hrest]; rfl
  | case2 c x r hrest hx ih =>
    rw [ih, rest_advance, hrest, List.tail_cons, advance_of_cons hrest, past_past,
      List.takeWhile_cons_of_pos hx]
    rfl
  | case3 c x r hrest hx => rw [hrest, List.takeWhile_cons_of_neg hx]; rfl

/-- Moves over a character if it is the next one, and says whether it was. -/
def matchChar (x : Char) (c : Cursor) : Bool × Cursor :=
  if c.rest.head? = some x then (true, c.advance) else (false, c)

theorem matchChar_of_head {c : Cursor} {x : Char} {r : Text} (h : c.rest = x :: r) :
    c.matchChar x = (true, c.past [x]) := by
  rw [matchChar, h, List.head?_cons, if_pos rfl, advance_of_cons h]

theorem matchChar_of_ne {c : Cursor} {x : Char} (h : c.rest.head? ≠ some x) :
    c.matchChar x = (false, c) := if_neg h

end Cursor

end Lexis
