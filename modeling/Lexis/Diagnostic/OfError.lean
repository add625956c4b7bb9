-- The diagnostic of a lexical error. Its message quotes the offending text
-- with escapes, and its code, notes and helps come with the kind of error.
import Lexis.Diagnostic.Basic
import Lexis.Scan.Lexeme
import Lexis.Text.Escaped

namespace Lexis

namespace FaultKind

def code : FaultKind → Code
  | invalidCharacter => ⟨['E'], 1001⟩
  | unterminatedString => ⟨['E'], 1002⟩
  | malformedNumber => ⟨['E'], 1003⟩
  | unterminatedComment => ⟨['E'], 1004⟩
  | invalidEscape => ⟨['E'], 1005⟩

def notes : FaultKind → List Text
  | unterminatedString => ["string literals cannot span lines".toList]
  | unterminatedComment => ["block comments nest, so every `/*` needs its own `*/`".toList]
  | _ => []

def helps : FaultKind → List Text
  | unterminatedString => ["close the string with a matching quote on the same line".toList]
  | unterminatedComment => ["close the block comment with `*/`".toList]
  | invalidCharacter => ["remove the character or put it inside a string".toList]
  | malformedNumber => ["write digits after the decimal point, e.g. `3.0`".toList]
  | invalidEscape =>
    ["valid escapes are \\n \\t \\r \\0 \\\\ \\\" \\' and \\u\x7b...\x7d".toList]

end FaultKind

/-- The kind of error, and the offending text between backquotes. -/
def LexicalError.summary (e : LexicalError) : Text :=
  e.kind.message ++ " `".toList ++ Text.escape .message e.text ++ ['`']

def LexicalError.toDiagnostic (e : LexicalError) : Diagnostic :=
  ⟨.error, e.summary, e.span, some e.kind.code, e.kind.notes, e.kind.helps⟩

end Lexis
