-- What running a command comes to: what it says on the way, the files it
-- leaves, and its result.
import Lexis.Command.Failure
import Lexis.Command.Log

namespace Lexis

/-- Something a command says. -/
inductive Event where
  /-- text for the standard output -/
  | output (t : Text)
  /-- text for the standard error stream -/
  | diagnostics (t : Text)
  | log (r : LogRecord)
deriving DecidableEq, Repr

namespace Event

def onOutput : Event → Text
  | output t => t
  | _ => []

def onDiagnostics : Event → Text
  | diagnostics t => t
  | _ => []

end Event

/-- The text that events put on the standard output. -/
def outputText (events : List Event) : Text := events.flatMap Event.onOutput

/-- The text that events put on the error stream, log lines aside. -/
def diagnosticsText (events : List Event) : Text := events.flatMap Event.onDiagnostics

structure Outcome (α : Type) where
  tree : FileTree
  events : List Event
  result : Except Failure α

end Lexis
