-- The tokens and the lexical errors of a source. They are its pieces laid
-- out from an origin: a lexeme becomes a token and its faults, a stray
-- character becomes an error, and a blank only moves the position.
import Lexis.Scan.Piece
import Lexis.Text.Decoding

namespace Lexis

/-- What scanning a source gives. The tokens end with the end-of-file token. -/
structure ScanResult where
  tokens : List Token
  errors : List LexicalError
deriving DecidableEq, Repr

namespace ScanResult

def hasErrors (s : ScanResult) : Bool := !s.errors.isEmpty

/-- The tokens that the grammar sees. -/
def significant (s : ScanResult) : List Token := s.tokens.filter fun t => !t.isTrivia

/-- The result with more in front. -/
def after (tokens : List Token) (errors : List LexicalError) (s : ScanResult) : ScanResult :=
  ⟨tokens ++ s.tokens, errors ++ s.errors⟩

end ScanResult

/-! ## Laying out pieces -/

/-- The error of a character that begins no lexeme. -/
def strayError (p : Position) (c : Char) : LexicalError := ⟨.invalidCharacter, p, [c]⟩

/-- The tokens that a piece at a position adds. -/
def Piece.tokens (p : Position) : Piece → List Token
  | lexeme l => [l.placed p]
  | _ => []

/-- The errors that a piece at a position adds. -/
def Piece.errors (p : Position) : Piece → List LexicalError
  | blank _ => []
  | stray c => [strayError p c]
  | lexeme l => l.faults.map (Fault.placed p)

/-- The result of pieces that start at a position. -/
def layOut (p : Position) : List Piece → ScanResult
  | [] => ⟨[Token.endOfFile p], []⟩
  | piece :: rest =>
    (layOut (p.advancedOver piece.text) rest).after (piece.tokens p) (piece.errors p)

/-! ## Scanning -/

/-- Scans a text that starts at a position. -/
def scanFrom (origin : Position) (t : Text) : ScanResult := layOut origin (pieces t)

/-- Scans chunks one by one, each from where the one before it ends. -/
def scanChunks (origin : Position) : List Text → List ScanResult
  | [] => []
  | chunk :: rest => scanFrom origin chunk :: scanChunks (origin.advancedOver chunk) rest

/-- Scans a whole source. -/
def tokenize (t : Text) : ScanResult := scanFrom .start t

/-- Scans a source given as bytes, if they can be decoded. -/
def tokenizeBytes (bytes : List UInt8) : Except DecodingError ScanResult :=
  (decodeSource bytes).map tokenize

end Lexis
