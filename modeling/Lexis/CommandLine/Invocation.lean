-- What a command line asks for, together with the environment. Options
-- after the subcommand win over those in front of it, and those over the
-- environment.
import Lexis.Command.Init
import Lexis.Command.Lex
import Lexis.CommandLine.Arguments
import Lexis.ConfigFile

namespace Lexis

/-- What is to be done. -/
inductive Request where
  | lex (files : List Path) (format? : Option OutputFormat) (noComments noErrors : Bool)
  | check (files : List Path)
  | init (request : InitRequest)
deriving DecidableEq, Repr

structure Invocation where
  verbose : Bool
  config? : Option Path
  noColor : Bool
  request : Request
deriving DecidableEq, Repr

/-! ## The environment -/

namespace Environment

/-- A value for an option without value is one of two words. -/
def isFlagValue (value : Text) : Bool := value == "true".toList || value == "false".toList

/-- Whether the values are right that stand in for options a place does not
give. -/
def fits (env : Environment) (g : Given) : Bool :=
  (g.has .verbose || env.verbose?.all isFlagValue) &&
    (g.has .config || env.config?.all (OptionKind.config.accepts ·)) &&
    (g.has .noColor || env.noColor?.all isFlagValue)

end Environment

/-! ## The whole command line -/

def requestOf (s : Subcommand) (g : Given) : Request :=
  match s with
  | .lex =>
    .lex g.files ((g.value? .format).bind OutputFormat.ofWord?) (g.has .noComments) (g.has .noErrors)
  | .check => .check g.files
  | .init => .init ⟨g.value? .path, g.has .force⟩

def readInvocation (env : Environment) (args : List Text) : Reading Invocation := do
  let (front, s, rest) ← readFront .empty args
  let back ← readBack s .empty rest
  let front ← front.settle
  if s.takesFiles && back.files.isEmpty then throw .usage
  if !(env.fits back && env.fits front) then throw .usage
  let flag (k : OptionKind) (fallback : Option Text) : Bool :=
    back.has k || front.has k || fallback == some "true".toList
  let config? := (back.value? .config).or ((front.value? .config).or env.config?)
  return ⟨flag .verbose env.verbose?, config?, flag .noColor env.noColor?, requestOf s back⟩

end Lexis
