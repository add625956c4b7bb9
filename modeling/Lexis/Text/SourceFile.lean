-- A named source text with its table of line starts. Lines are looked up
-- by number and come without their line ending.
import Lexis.Text.Basic

namespace Lexis

/-- A source text and the name it is shown under. -/
structure SourceFile where
  name : Text
  content : Text
deriving DecidableEq, Repr

/-- The failure to find a line: the number asked for and the number of lines. -/
structure InvalidLine where
  line : Nat
  lineCount : Nat
deriving DecidableEq, Repr

namespace InvalidLine

def message (e : InvalidLine) : Text :=
  "Invalid line number: ".toList ++ Text.ofNat e.line ++ " (file has ".toList ++
    Text.ofNat e.lineCount ++ " lines)".toList

end InvalidLine

namespace SourceFile

/-! ## The line table -/

/-- The offset after each line feed of a text that starts at an offset. -/
def startsAfterBreaks (offset : Nat) : Text → List Nat
  | [] => []
  | c :: t =>
    let next := offset + c.utf8Size
    if c = '\n' then next :: startsAfterBreaks next t else startsAfterBreaks next t

/-- The byte offset at which each line starts. -/
def lineStarts (f : SourceFile) : List Nat := 0 :: startsAfterBreaks 0 f.content

def lineCount (f : SourceFile) : Nat := f.lineStarts.length

/-- The offset at which the line with an index from zero ends: just before
the line feed, or at the end of the text. -/
def lineStop (f : SourceFile) (index : Nat) : Nat :=
  match f.lineStarts[index + 1]? with
  | some next => next - 1
  | none => f.content.byteSize

/-- The line with a number from one, without its line ending. -/
def line (f : SourceFile) (number : Nat) : Except InvalidLine Text :=
  let missing := .error ⟨number, f.lineCount⟩
  match number with
  | 0 => missing
  | index + 1 =>
    match f.lineStarts[index]? with
    | none => missing
    | some start =>
      match f.content.slice? start (f.lineStop index) with
      | none => missing
      | some text => .ok text.dropReturn

end SourceFile

end Lexis
