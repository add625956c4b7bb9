-- Rows for showing tokens and lexical errors to a reader.
import Lexis.Scan.Tokens

namespace Lexis

structure TokenRow where
  line : Nat
  lexeme : Text
  kind : Text
  attr : Text
deriving DecidableEq, Repr

structure ErrorRow where
  line : Nat
  column : Nat
  kind : Text
  text : Text
  message : Text
deriving DecidableEq, Repr

/-- The attribute of a token is its value, or `None`. -/
def TokenRow.ofToken (t : Token) : TokenRow :=
  ⟨t.start.line, t.lexeme, t.kind.name, (t.value.map Literal.display).getD "None".toList⟩

def ErrorRow.ofError (e : LexicalError) : ErrorRow :=
  ⟨e.position.line, e.position.column, e.kind.name, e.text, e.kind.message⟩

/-- The end-of-file token has no row, and comments only where they are wanted. -/
def hasRow (comments : Bool) (t : Token) : Bool :=
  !t.isEndOfFile && (comments || !t.isTrivia)

def tokenRows (comments : Bool) (tokens : List Token) : List TokenRow :=
  (tokens.filter (hasRow comments)).map TokenRow.ofToken

def errorRows (errors : List LexicalError) : List ErrorRow := errors.map ErrorRow.ofError

end Lexis
