-- Writing a configuration file with the standard settings.
import Lexis.Command.Analysis
import Lexis.Config

namespace Lexis

/-- The name of a configuration file. -/
def configFileName : Text := "impt.toml".toList

structure InitRequest where
  /-- the directory for the file, or else the working directory -/
  path? : Option Path
  force : Bool
deriving DecidableEq, Repr

namespace InitRequest

def target (t : FileTree) (request : InitRequest) : Path := request.path?.getD t.currentPath

/-- Writes settings to a path, making the directories above it. -/
def save (t : FileTree) (c : Config) (p : Path) : FileTree × Except Failure Unit :=
  match t.createDirectories (p.parent?.getD []) with
  | (made, .error e) => (made, .error (.files e))
  | (made, .ok ()) =>
    match made.writeFile p (Utf8.encode c.render) with
    | .ok written => (written, .ok ())
    | .error e => (made, .error (.files e))

/-- Puts the file into a directory that is there. -/
def fill (t : FileTree) (force : Bool) (target : Path) : FileTree × Except Failure Path :=
  let p := target.join configFileName
  if t.pathExists p && !force then
    (t, .error (.fileOperation
      ("Configuration file already exists (use --force to overwrite): ".toList ++ p)))
  else
    match save t .standard p with
    | (written, .ok ()) => (written, .ok p)
    | (written, .error e) => (written, .error e)

/-- Makes the directory if there is nothing at its path, and fills it. -/
def perform (t : FileTree) (force : Bool) (target : Path) : FileTree × Except Failure Path :=
  if !t.pathExists target then
    match t.createDirectories target with
    | (made, .error e) => (made, .error (.files e))
    | (made, .ok ()) => fill made force target
  else if !t.isDirectory target then
    (t, .error (.fileOperation ("Target path is not a directory: ".toList ++ target)))
  else fill t force target

end InitRequest

/-- Writes a standard configuration and gives its path. -/
def init (t : FileTree) (request : InitRequest) : Outcome Path :=
  let target := request.target t
  let start := startRecord "init".toList "path".toList target
  let (after, result) := InitRequest.perform t request.force target
  let finish : List Event :=
    match result with
    | .ok p => [.log ⟨.info, "configuration written".toList, [("path".toList, p)]⟩]
    | .error _ => []
  ⟨after, .log start :: finish, result⟩

end Lexis
