-- Places in a source text. A position is a line, a column and a byte
-- offset that move together, one character at a time; a span is the range
-- between two positions.
import Lexis.Text.Basic

namespace Lexis

/-- A place in a text. Lines and columns count from one and columns count
characters; the offset counts bytes from zero. -/
structure Position where
  line : Nat
  column : Nat
  offset : Nat
deriving DecidableEq, Repr

namespace Position

/-- The place before the first character. -/
def start : Position := ⟨1, 1, 0⟩

/-! ## Moving -/

/-- The place after one more character. A line feed opens the next line. -/
def advance (p : Position) (c : Char) : Position :=
  if c = '\n' then ⟨p.line + 1, 1, p.offset + c.utf8Size⟩
  else ⟨p.line, p.column + 1, p.offset + c.utf8Size⟩

/-- The place after a text. -/
def advancedOver (p : Position) (t : Text) : Position := t.foldl advance p

@[simp] theorem advancedOver_nil (p : Position) : p.advancedOver [] = p := rfl

@[simp] theorem advancedOver_cons (p : Position) (c : Char) (t : Text) :
    p.advancedOver (c :: t) = (p.advance c).advancedOver t := rfl

theorem advancedOver_append (p : Position) (s t : Text) :
    p.advancedOver (s ++ t) = (p.advancedOver s).advancedOver t := List.foldl_append

theorem offset_advancedOver (p : Position) (t : Text) :
    (p.advancedOver t).offset = p.offset + t.byteSize := by
  induction t generalizing p with
  | nil => simp
  | cons c t ih =>
    rw [advancedOver_cons, ih, Text.byteSize_cons]
    unfold advance
    split <;> simp only <;> omega

/-! ## Order and display -/

/-- Positions are ordered by line, then column, then offset. -/
instance : Ord Position where
  compare a b :=
    (compare a.line b.line).then ((compare a.column b.column).then (compare a.offset b.offset))

/-- A position as `line:column`. -/
def display (p : Position) : Text := Text.ofNat p.line ++ ':' :: Text.ofNat p.column

end Position

/-- The range from one position up to another. -/
structure Span where
  start : Position
  stop : Position
deriving DecidableEq, Repr

namespace Span

/-- The empty range at a position. -/
def point (p : Position) : Span := ⟨p, p⟩

/-- The range that a text takes when it stands at a position. -/
def covering (p : Position) (t : Text) : Span := ⟨p, p.advancedOver t⟩

/-- The number of bytes in the range. -/
def byteLength (s : Span) : Nat := s.stop.offset - s.start.offset

/-- A range is empty when it holds no byte. -/
def isEmpty (s : Span) : Bool := s.start.offset == s.stop.offset

/-- A range as `start-stop`. -/
def display (s : Span) : Text := s.start.display ++ '-' :: s.stop.display

end Span

end Lexis
