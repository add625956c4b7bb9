-- Diagnostics as text. With a source file the place and the offending line
-- are shown too.
import Lexis.Diagnostic.Basic
import Lexis.Diagnostic.Snippet
import Lexis.Text.SourceFile

namespace Lexis.Diagnostic

/-- The level, the code if there is one, and the message. -/
def header (d : Diagnostic) : Text :=
  let label := match d.code with
    | some code => d.level.display ++ '[' :: code.display ++ [']']
    | none => d.level.display
  label ++ ": ".toList ++ d.message

/-- The name of the file and the position in it. -/
def locator (d : Diagnostic) (file : SourceFile) : Text :=
  "  --> ".toList ++ file.name ++ ':' :: d.span.start.display

/-- The first line of the span, if the file has it. A span that goes on to
another line is underlined to the end of the first. -/
def snippet? (d : Diagnostic) (file : SourceFile) : Option Snippet :=
  match file.line d.span.start.line with
  | .error _ => none
  | .ok line =>
    let stop := if d.span.stop.line = d.span.start.line then d.span.stop.column
      else line.length + 1
    some ⟨line, d.span.start.line, d.span.start.column, stop⟩

/-- The locator and the snippet. -/
def excerpt (d : Diagnostic) (file : SourceFile) : List Text :=
  d.locator file :: match d.snippet? file with
    | some s => s.lines
    | none => []

/-- A note or help under the message. -/
def remark (level : Level) (text : Text) : Text :=
  "   = ".toList ++ level.display ++ ": ".toList ++ text

/-- The lines of a diagnostic, notes before helps. -/
def lines (d : Diagnostic) (file : Option SourceFile) : List Text :=
  d.header :: (file.map d.excerpt).getD [] ++
    d.notes.map (remark .note) ++ d.helps.map (remark .help)

def render (d : Diagnostic) (file : Option SourceFile) : Text := Text.join ['\n'] (d.lines file)

end Lexis.Diagnostic
