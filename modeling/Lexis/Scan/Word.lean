-- Words: identifiers and keywords. A word is the longest run of letters,
-- numeric characters and underscores that starts with no numeric character.
import Lexis.Scan.Lexeme
import Lexis.Unicode.Alphabetic
import Lexis.Unicode.Numeric

namespace Lexis

def isWordStart (c : Char) : Bool := c == '_' || Unicode.isAlphabetic c

def isWordPart (c : Char) : Bool := c == '_' || Unicode.isAlphabetic c || Unicode.isNumeric c

/-- What may start a word may go on with it. -/
theorem isWordPart_of_isWordStart {c : Char} (h : isWordStart c = true) : isWordPart c = true := by
  simp only [isWordStart, Bool.or_eq_true] at h
  rcases h with h | h <;> simp [isWordPart, h]

/-- A word is a keyword when it is spelled like one. -/
def wordKind (word : Text) : TokenKind :=
  match Keyword.ofWord? word with
  | some k => .keyword k
  | none => .identifier

/-- Reads the word that begins with a character. -/
def readWord (c : Char) (r : Text) : Lexeme × Text :=
  let word := c :: r.takeWhile isWordPart
  (.plain (wordKind word) word, r.dropWhile isWordPart)

theorem readWord_append (c : Char) (r : Text) :
    (readWord c r).1.text ++ (readWord c r).2 = c :: r := by
  simp [readWord, Lexeme.plain]

end Lexis
