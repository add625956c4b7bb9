-- The whole program as a function: from arguments, environment and files to
-- the texts of both streams, the exit code and the files afterwards.
import Lexis.Command.Check
import Lexis.CommandLine.Invocation

namespace Lexis

/-- What a run of the program comes to. -/
structure Execution where
  tree : FileTree
  output : Text
  diagnostics : Text
  exitCode : Nat

namespace Program

def version : Text := "0.1.0".toList

def versionText (place : Place) : Text :=
  "impt".toList ++ ((place.map fun s => '-' :: s.word).getD []) ++ ' ' :: version ++ ['\n']

def helpText : Text :=
  ("Usage: impt [-v] [-c PATH] [--no-color] COMMAND\n\n" ++
    "  lex FILE... [-F table|json] [--no-comments] [--no-errors]\n" ++
    "  check FILE...\n" ++
    "  init [-p PATH] [-f]\n").toList

/-- The last line of a run that fails. That of a bad configuration text is cut
short. -/
def failureLine (e : Failure) : Text :=
  "Error: ".toList ++ e.details ++ if e = .toml then [] else ['\n']

/-! ## Settings -/

def displayDetails (d : DisplayConfig) : Text :=
  let format := match d.format with
    | .table => "Table".toList
    | .json => "Json".toList
  Details.record "DisplayConfig".toList
    [("format".toList, format), ("show_comments".toList, Config.boolWord d.showComments),
      ("show_errors".toList, Config.boolWord d.showErrors)]

def configDetails (c : Config) : Text :=
  Details.record "Config".toList
    [("verbose".toList, Config.boolWord c.verbose), ("display".toList, displayDetails c.display)]

/-- The log line about the settings that a run works with. -/
def configRecord (path : Option Path) (c : Config) : LogRecord :=
  ⟨.debug, "configuration resolved".toList,
    [("path".toList, Details.option (path.map Text.quoted)), ("config".toList, configDetails c)]⟩

/-- Options of the command line on top of configured settings. -/
def mergeDisplay (d : DisplayConfig) (format? : Option OutputFormat) (noComments noErrors : Bool) :
    DisplayConfig :=
  ⟨format?.getD d.format, d.showComments && !noComments, d.showErrors && !noErrors⟩

/-! ## Running -/

def perform (t : FileTree) (c : Config) : Request → Outcome Unit
  | .lex files format? noComments noErrors =>
    lex t ⟨files, mergeDisplay c.display format? noComments noErrors⟩
  | .check files => checkStrictly t files
  | .init request =>
    let outcome := init t request
    ⟨outcome.tree, outcome.events, outcome.result.map fun _ => ()⟩

/-- What an event puts on the error stream. -/
def errorStream (verbose colored : Bool) (timestamp : Text) : Event → Text
  | .output _ => []
  | .diagnostics t => t
  | .log r => if r.isShown verbose then r.render colored timestamp else []

def execute (t : FileTree) (timestamp : Text) (c : Config) (i : Invocation) : Execution :=
  let outcome := perform t c i.request
  let events := .log (configRecord i.config? c) :: outcome.events
  let said := events.flatMap (errorStream (i.verbose || c.verbose) (!i.noColor) timestamp)
  match outcome.result with
  | .ok () => ⟨outcome.tree, outputText events, said, 0⟩
  | .error e => ⟨outcome.tree, outputText events, said ++ failureLine e, 1⟩

def run (env : Environment) (t : FileTree) (timestamp : Text) (args : List Text) : Execution :=
  match readInvocation env args with
  | .error .usage => ⟨t, [], [], 2⟩
  | .error (.version place) => ⟨t, versionText place, [], 0⟩
  | .error .help => ⟨t, helpText, [], 0⟩
  | .ok i =>
    match Config.find t env i.config? with
    | .error e => ⟨t, [], failureLine e, 1⟩
    | .ok c => execute t timestamp c i

end Program

end Lexis
