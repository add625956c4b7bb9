-- Tokens: a kind, the exact text, where it stands, and the value of a
-- literal.
import Lexis.Number.Shortest
import Lexis.Text.Position
import Lexis.Token.Keyword
import Lexis.Token.Symbol

namespace Lexis

/-! ## Kinds -/

inductive TokenKind where
  | identifier
  | keyword (k : Keyword)
  | integerLiteral
  | floatLiteral
  | stringLiteral
  | operator (o : Operator)
  | punctuation (p : Punctuation)
  | comment
  | endOfFile
deriving DecidableEq, Repr

namespace TokenKind

/-- The name of the kind, which is the same for all keywords and so on. -/
def name : TokenKind → Text
  | identifier => "Identifier".toList
  | keyword _ => "Keyword".toList
  | integerLiteral => "IntegerLiteral".toList
  | floatLiteral => "FloatLiteral".toList
  | stringLiteral => "StringLiteral".toList
  | operator _ => "Operator".toList
  | punctuation _ => "Punctuation".toList
  | comment => "Comment".toList
  | endOfFile => "EndOfFile".toList

/-- The name, with the spelling in brackets where the kind fixes one. -/
def display (k : TokenKind) : Text :=
  let spelled (spelling : Text) := k.name ++ '(' :: spelling ++ [')']
  match k with
  | keyword w => spelled w.spelling
  | operator o => spelled o.spelling
  | punctuation p => spelled [p.char]
  | _ => k.name

end TokenKind

/-! ## Literal values -/

inductive Literal where
  | integer (n : UInt64)
  | float (x : Binary64)
  | string (t : Text)
deriving DecidableEq, Repr

def Literal.display : Literal → Text
  | integer n => Text.ofNat n.toNat
  | float x => x.display
  | string t => t

/-! ## Tokens -/

structure Token where
  kind : TokenKind
  lexeme : Text
  start : Position
  stop : Position
  value : Option Literal
deriving DecidableEq, Repr

namespace Token

/-- The token that ends every source. It takes no text. -/
def endOfFile (p : Position) : Token := ⟨.endOfFile, [], p, p, none⟩

def span (t : Token) : Span := ⟨t.start, t.stop⟩

/-- Comments are trivia: the grammar does not see them. -/
def isTrivia (t : Token) : Bool := t.kind == .comment

def isEndOfFile (t : Token) : Bool := t.kind == .endOfFile

def display (t : Token) : Text :=
  if t.isEndOfFile then t.kind.name else t.kind.name ++ '(' :: t.lexeme ++ [')']

end Token

end Lexis
