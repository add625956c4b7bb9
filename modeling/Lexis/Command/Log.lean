-- Log lines: when, how grave, what happened, and named values.
import Lexis.Text.Basic

namespace Lexis

inductive LogLevel where
  | debug
  | info
  | warn
deriving DecidableEq, Repr

namespace LogLevel

def name : LogLevel → Text
  | debug => "DEBUG".toList
  | info => "INFO".toList
  | warn => "WARN".toList

/-- The number of the color of a level on a terminal. -/
def color : LogLevel → Text
  | debug => "34".toList
  | info => "32".toList
  | warn => "33".toList

end LogLevel

/-- One log line. The values are written out already. -/
structure LogRecord where
  level : LogLevel
  message : Text
  fields : List (Text × Text)
deriving DecidableEq, Repr

namespace LogRecord

/-- A text in a terminal style, or as it is. -/
def styled (colored : Bool) (style t : Text) : Text :=
  if colored then '\x1b' :: '[' :: style ++ 'm' :: t ++ "\x1b[0m".toList else t

def renderField (colored : Bool) (field : Text × Text) : Text :=
  ' ' :: styled colored ['3'] field.1 ++ styled colored ['2'] ['='] ++ field.2

/-- The line of a record, with its level flush right. -/
def render (colored : Bool) (timestamp : Text) (r : LogRecord) : Text :=
  styled colored ['2'] timestamp ++ ' ' ::
    styled colored r.level.color (Text.padLeft 5 ' ' r.level.name) ++ ' ' ::
    r.message ++ r.fields.flatMap (renderField colored) ++ ['\n']

/-- Debugging lines are for verbose runs. -/
def isShown (verbose : Bool) (r : LogRecord) : Bool := verbose || r.level != .debug

end LogRecord

end Lexis
