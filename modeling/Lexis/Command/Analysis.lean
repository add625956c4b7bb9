-- A source file that has been read and scanned.
import Lexis.Command.Outcome
import Lexis.Scan.Tokens
import Lexis.Text.SourceFile

namespace Lexis

structure Analysis where
  path : Path
  source : SourceFile
  scan : ScanResult
deriving DecidableEq, Repr

/-- Reads and scans the regular file at a path. -/
def analyze (t : FileTree) (p : Path) : Except Failure Analysis :=
  match t.lookup? p with
  | some (.file bytes) =>
    match decodeSource bytes with
    | .ok text => .ok ⟨p, ⟨p, text⟩, tokenize text⟩
    | .error cause => .error (.decoding p cause)
  | _ => .error (.fileOperation ("Input path is not a file: ".toList ++ p))

/-- Analyzes files in order, up to the first that fails. -/
def analyzeAll (t : FileTree) : List Path → List Analysis × Except Failure Unit
  | [] => ([], .ok ())
  | p :: paths =>
    match analyze t p with
    | .error e => ([], .error e)
    | .ok a =>
      let (rest, result) := analyzeAll t paths
      (a :: rest, result)

/-- The log line that a command starts with. -/
def startRecord (command : Text) (key value : Text) : LogRecord :=
  ⟨.debug, "starting".toList, [("command".toList, Text.quoted command), (key, value)]⟩

end Lexis
