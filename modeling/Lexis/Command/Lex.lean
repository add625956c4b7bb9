-- Showing the tokens and lexical errors of source files. Lexical errors are
-- shown and do not make the command fail.
import Lexis.Command.Analysis
import Lexis.Config
import Lexis.Report.Json
import Lexis.Report.Table

namespace Lexis

structure LexRequest where
  files : List Path
  display : DisplayConfig
deriving DecidableEq, Repr

namespace LexRequest

/-- The rows of the errors of a file, if they are to be shown. -/
def errorRowsOf (request : LexRequest) (a : Analysis) : List ErrorRow :=
  if request.display.showErrors then errorRows a.scan.errors else []

def tokenRowsOf (request : LexRequest) (a : Analysis) : List TokenRow :=
  tokenRows request.display.showComments a.scan.tokens

/-- The line in front of a table when there are several files. -/
def heading (request : LexRequest) (a : Analysis) : Text :=
  if 1 < request.files.length then "==> ".toList ++ a.path ++ " <==\n".toList else []

/-- What is shown for one file. -/
def render (request : LexRequest) (a : Analysis) : Text :=
  let tokens := request.tokenRowsOf a
  let errors := request.errorRowsOf a
  match request.display.format with
  | .json => fileReportJson a.path tokens errors
  | .table =>
    request.heading a ++ renderTable tokens ++
      if errors.isEmpty then [] else "\n\n".toList ++ renderErrorPanel errors

def records (a : Analysis) : List LogRecord :=
  let file := ("file".toList, a.path)
  let tokens := ("tokens".toList, Text.ofNat a.scan.tokens.length)
  let errors := ("errors".toList, Text.ofNat a.scan.errors.length)
  ⟨.info, "Code analyzed successfully!".toList, [file, tokens, errors]⟩ ::
    if a.scan.hasErrors then [⟨.warn, "lexical errors found".toList, [file, errors]⟩] else []

def events (request : LexRequest) (a : Analysis) : List Event :=
  .output (request.render a ++ ['\n']) :: (records a).map .log

end LexRequest

def lex (t : FileTree) (request : LexRequest) : Outcome Unit :=
  let (analyses, result) := analyzeAll t request.files
  let start := startRecord "lex".toList "files".toList (Text.ofNat request.files.length)
  ⟨t, .log start :: analyses.flatMap request.events, result⟩

end Lexis
