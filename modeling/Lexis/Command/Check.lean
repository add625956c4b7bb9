-- Reporting the lexical errors of source files as diagnostics, so that
-- other programs can depend on there being none.
import Lexis.Command.Analysis
import Lexis.Diagnostic.Handler
import Lexis.Diagnostic.OfError

namespace Lexis

namespace Analysis

def handler (a : Analysis) : Handler :=
  Handler.empty.emitAll (a.scan.errors.map LexicalError.toDiagnostic)

def errorCount (a : Analysis) : Nat := a.handler.errorCount

/-- The diagnostics of a file with an empty line after them, if it has errors,
and a log line. -/
def checkEvents (a : Analysis) : List Event :=
  let record : LogRecord :=
    ⟨.info, "check finished".toList,
      [("file".toList, a.path), ("errors".toList, Text.ofNat a.errorCount)]⟩
  (if a.handler.hasErrors then [.diagnostics (a.handler.renderAll (some a.source) ++ "\n\n".toList)]
    else []) ++ [.log record]

end Analysis

/-- Checks files and counts their lexical errors. -/
def check (t : FileTree) (files : List Path) : Outcome Nat :=
  let (analyses, result) := analyzeAll t files
  let start := startRecord "check".toList "files".toList (Text.ofNat files.length)
  ⟨t, .log start :: analyses.flatMap Analysis.checkEvents,
    result.map fun _ => analyses.foldr (fun a total => a.errorCount + total) 0⟩

/-- Checks files and fails if there is any lexical error. -/
def checkStrictly (t : FileTree) (files : List Path) : Outcome Unit :=
  let outcome := check t files
  ⟨outcome.tree, outcome.events,
    match outcome.result with
    | .error e => .error e
    | .ok count => if count = 0 then .ok () else .error (.lexicalErrors count)⟩

end Lexis
