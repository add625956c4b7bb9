-- What a scanner finds: a lexeme with its faults. A lexeme knows nothing of
-- where it stands; a position turns it into a token and its faults into
-- lexical errors.
import Lexis.Token.Basic

namespace Lexis

/-! ## Faults and errors -/

inductive FaultKind where
  | unterminatedString
  | unterminatedComment
  | invalidCharacter
  | malformedNumber
  | invalidEscape
deriving DecidableEq, Repr

namespace FaultKind

def name : FaultKind → Text
  | unterminatedString => "UnterminatedString".toList
  | unterminatedComment => "UnterminatedComment".toList
  | invalidCharacter => "InvalidCharacter".toList
  | malformedNumber => "MalformedNumber".toList
  | invalidEscape => "InvalidEscape".toList

def message : FaultKind → Text
  | unterminatedString => "unterminated string literal".toList
  | unterminatedComment => "unterminated block comment".toList
  | invalidCharacter => "invalid character".toList
  | malformedNumber => "malformed number literal".toList
  | invalidEscape => "invalid escape sequence".toList

end FaultKind

/-- An error of a source text: its kind, where it is, and the offending text. -/
structure LexicalError where
  kind : FaultKind
  position : Position
  text : Text
deriving DecidableEq, Repr

namespace LexicalError

def span (e : LexicalError) : Span := Span.covering e.position e.text

def display (e : LexicalError) : Text :=
  e.kind.message ++ " at ".toList ++ e.position.display ++ ": `".toList ++ e.text ++ ['`']

end LexicalError

/-- An error counted from the start of its lexeme: the text before it, and the
offending text. -/
structure Fault where
  kind : FaultKind
  before : Text
  text : Text
deriving DecidableEq, Repr

/-- The error that a fault is when its lexeme starts at a position. -/
def Fault.placed (start : Position) (f : Fault) : LexicalError :=
  ⟨f.kind, start.advancedOver f.before, f.text⟩

/-! ## Lexemes -/

/-- A token without its place. The faults come in the order of their offsets. -/
structure Lexeme where
  kind : TokenKind
  text : Text
  value : Option Literal
  faults : List Fault
deriving DecidableEq, Repr

/-- A lexeme with neither value nor fault. -/
def Lexeme.plain (kind : TokenKind) (text : Text) : Lexeme := ⟨kind, text, none, []⟩

/-- The token that a lexeme is when it starts at a position. -/
def Lexeme.placed (start : Position) (l : Lexeme) : Token :=
  ⟨l.kind, l.text, start, start.advancedOver l.text, l.value⟩

end Lexis
