-- A quoted source line with carets under part of it.
import Lexis.Text.Basic

namespace Lexis

/-- A source line, its number, and the columns from which and up to which it is
underlined. Columns count from one. -/
structure Snippet where
  line : Text
  number : Nat
  startColumn : Nat
  stopColumn : Nat
deriving DecidableEq, Repr

namespace Snippet

/-- The text in front of the bar is right-aligned in at least three columns. -/
def gutterWidth (s : Snippet) : Nat := max 3 (Text.ofNat s.number).length

def gutter (s : Snippet) (label : Text) : Text :=
  Text.padLeft s.gutterWidth ' ' label ++ [' ', '|', ' ']

/-- What stands under a character before the carets. A tab stays a tab, so the
carets line up. -/
def paddingChar (c : Char) : Char := if c = '\t' then '\t' else ' '

/-- What stands before the first caret; past the line, blanks. -/
def padding (s : Snippet) : Text :=
  let count := s.startColumn - 1
  (s.line.take count).map paddingChar ++ Text.filled (count - s.line.length) ' '

/-- The carets. There is always one. -/
def carets (s : Snippet) : Text := Text.filled (max 1 (s.stopColumn - s.startColumn)) '^'

/-- The quoted line and the line of carets. -/
def lines (s : Snippet) : List Text :=
  [s.gutter (Text.ofNat s.number) ++ s.line, s.gutter [] ++ s.padding ++ s.carets]

def render (s : Snippet) : Text := Text.join ['\n'] s.lines

end Snippet

end Lexis
