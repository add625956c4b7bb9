-- Diagnostics: a message of some level about a span of a source, with an
-- optional code and any number of notes and helps.
import Lexis.Text.Position

namespace Lexis

/-! ## Levels and codes -/

/-- The levels, the gravest first. -/
inductive Level where
  | error
  | warning
  | note
  | help
deriving DecidableEq, Repr, Ord

def Level.display : Level → Text
  | error => "error".toList
  | warning => "warning".toList
  | note => "note".toList
  | help => "help".toList

/-- A code such as `E1001`: the series it belongs to and a number. -/
structure Code where
  series : Text
  number : Nat
deriving DecidableEq, Repr

/-- The series, then the number in at least four digits. -/
def Code.display (c : Code) : Text := c.series ++ Text.padLeft 4 '0' (Text.ofNat c.number)

/-! ## Diagnostics -/

structure Diagnostic where
  level : Level
  message : Text
  span : Span
  code : Option Code
  notes : List Text
  helps : List Text
deriving DecidableEq, Repr

namespace Diagnostic

/-- A bare message about the start of a source. -/
def ofMessage (level : Level) (message : Text) : Diagnostic :=
  ⟨level, message, Span.point .start, none, [], []⟩

def error (message : Text) (span : Span) : Diagnostic := { ofMessage .error message with span }

def withSpan (span : Span) (d : Diagnostic) : Diagnostic := { d with span }

def withCode (code : Code) (d : Diagnostic) : Diagnostic := { d with code := some code }

/-- Adds a note after the notes there are. -/
def addNote (note : Text) (d : Diagnostic) : Diagnostic := { d with notes := d.notes ++ [note] }

/-- Adds a help after the helps there are. -/
def addHelp (help : Text) (d : Diagnostic) : Diagnostic := { d with helps := d.helps ++ [help] }

end Diagnostic

end Lexis
