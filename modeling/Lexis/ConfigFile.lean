-- Finding and loading the configuration file. A path that is asked for has
-- to be there; the usual places are optional, and the first of them counts.
import Lexis.Command.Failure
import Lexis.Command.Init
import Lexis.Config

namespace Lexis

/-- What a run takes from its surroundings. -/
structure Environment where
  home? : Option Path
  /-- the directory for the settings of all programs -/
  settings? : Option Path
  /-- values for options that the command line does not give -/
  verbose? : Option Text
  config? : Option Text
  noColor? : Option Text
deriving DecidableEq, Repr

namespace Environment

/-- The directory for settings, which is in the home directory unless an
absolute one is named. -/
def settingsDirectory? (env : Environment) : Option Path :=
  match env.settings? with
  | some p => if Path.isAbsolute p then some p else env.home?.map (Path.join · ".config".toList)
  | none => env.home?.map (Path.join · ".config".toList)

/-- The places where a configuration file may stand, nearest first. -/
def configPaths (env : Environment) : List Path :=
  let inHome := env.home?.map fun p => (Path.join p ".config".toList).join "impt".toList
  let inSettings := env.settingsDirectory?.map (Path.join · "impt".toList)
  [configFileName] ++ inHome.toList.map (Path.join · configFileName) ++
    inSettings.toList.map (Path.join · configFileName)

end Environment

namespace Config

/-- The settings of the file at a path. -/
def load (t : FileTree) (p : Path) : Except Failure Config :=
  if !t.pathExists p then
    .error (.configuration ("Configuration file not found: ".toList ++ p))
  else
    match t.readText p with
    | .error e => .error (.files e)
    | .ok text =>
      match parse? text with
      | some c => .ok c
      | none => .error .toml

/-- The settings of the path that is asked for, else of the first usual place
where there is something, else the standard ones. -/
def find (t : FileTree) (env : Environment) : Option Path → Except Failure Config
  | some p => load t p
  | none =>
    match env.configPaths.find? t.pathExists with
    | some p => load t p
    | none => .ok .standard

end Config

end Lexis
