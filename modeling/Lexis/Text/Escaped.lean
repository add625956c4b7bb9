-- Text written with escapes, so that every character shows: the usual
-- letters after a backslash, and the number of a character that does not
-- print. An extender is escaped where it would join something in front.
import Lexis.Text.Basic
import Lexis.Unicode.Extender
import Lexis.Unicode.Unprintable

namespace Lexis

/-- What is escaped beyond controls, unprintable characters and double quotes:
single quotes or not, and extenders anywhere or only as the first character. -/
structure EscapeStyle where
  singleQuote : Bool
  extendersAnywhere : Bool
deriving DecidableEq, Repr

namespace EscapeStyle

/-- The style of source text inside a message. -/
def message : EscapeStyle := ⟨true, false⟩

/-- The style of a string between double quotes. -/
def quotedString : EscapeStyle := ⟨false, true⟩

end EscapeStyle

namespace Text

/-- A character by its number, as `\u` and hexadecimal digits in braces. -/
def numberEscape (c : Char) : Text := '\\' :: 'u' :: '\x7b' :: hexOfNat c.toNat ++ ['\x7d']

/-- One character, given whether it is the first of its text. -/
def escapeChar (style : EscapeStyle) (first : Bool) (c : Char) : Text :=
  match c with
  | '\x00' => ['\\', '0']
  | '\t' => ['\\', 't']
  | '\n' => ['\\', 'n']
  | '\r' => ['\\', 'r']
  | '\\' => ['\\', '\\']
  | '"' => ['\\', '"']
  | '\'' => if style.singleQuote then ['\\', '\''] else ['\'']
  | c =>
    if (first || style.extendersAnywhere) && Unicode.isExtender c then numberEscape c
    else if Unicode.isUnprintable c then numberEscape c
    else [c]

def escape (style : EscapeStyle) : Text → Text
  | [] => []
  | c :: t => escapeChar style true c ++ t.flatMap (escapeChar style false)

/-- A text between double quotes. -/
def quoted (t : Text) : Text := '"' :: escape .quotedString t ++ ['"']

end Text

end Lexis
