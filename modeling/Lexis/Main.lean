-- The program on real files. The part of the file system that a run can
-- look at is read first; then the run is worked out, and what it changed
-- is written.
import Lexis.Program
import Std.Time.Format

namespace Lexis.Main

/-! ## Reading files -/

def realPath (r : Route) : String := String.ofList (Path.ofSteps true r)

/-- What stands at a real path. Anything that cannot be read counts as missing. -/
def readEntry (r : Route) : IO (Option Entry) := do
  try
    let bytes ← IO.FS.readBinFile (realPath r)
    return some (.file bytes.toList)
  catch e =>
    match e with
    | .inappropriateType .. => return some .directory
    | _ => return none

/-- Reads the nodes on the way along the parts of a path into a tree. -/
def readAlong (t : FileTree) (route : Route) : List Text → IO FileTree
  | [] => return t
  | part :: parts => do
    if part = [] ∨ part = ['.'] then readAlong t route parts
    else if part = ['.', '.'] then readAlong t route.dropLast parts
    else
      let next := route ++ [part]
      match t.entry? next with
      | some _ => readAlong t next parts
      | none =>
        match ← readEntry next with
        | some (.file bytes) => readAlong (t.put next (.file bytes)) next parts
        | some .directory => readAlong (t.put next (.directory [])) next parts
        | none => return t

def readPath (t : FileTree) (p : Path) : IO FileTree := do
  if '\x00' ∈ p then return t
  readAlong t (t.origin p) p.parts

/-- The paths that a run may look at. -/
def pathsOf (t : FileTree) (env : Environment) (i : Invocation) : List Path :=
  let named := match i.request with
    | .lex files _ _ _ => files
    | .check files => files
    | .init request => [(request.target t).join configFileName]
  i.config?.toList ++ env.configPaths ++ named

/-- The part of the file system that a command line is about. -/
def readTree (env : Environment) (args : List Text) : IO FileTree := do
  let place : Path := (toString (← IO.currentDir)).toList
  let t ← readPath ⟨.directory [], place.steps⟩ place
  match readInvocation env args with
  | .ok i => (pathsOf t env i).foldlM readPath t
  | .error _ => return t

/-! ## Writing files -/

def writeEntry : Route × Entry → IO Unit
  | (r, .directory) => IO.FS.createDir (realPath r)
  | (r, .file bytes) => IO.FS.writeBinFile (realPath r) ⟨bytes.toArray⟩

/-! ## The program -/

def getEnvironment : IO Environment := do
  let get (name : String) : IO (Option Text) := do
    return (← IO.getEnv name).map String.toList
  return ⟨← get "HOME", ← get "XDG_CONFIG_HOME", ← get "IMPT_VERBOSE", ← get "IMPT_CONFIG",
    ← get "IMPT_NO_COLOR"⟩

/-- The time in UTC, to the microsecond. -/
def getTimestamp : IO Text := do
  let now := Std.Time.DateTime.ofTimestamp (← Std.Time.Timestamp.now) Std.Time.TimeZone.ZoneRules.UTC
  let digits (width : Nat) (n : Int) : Text := Text.padLeft width '0' (Text.ofNat n.toNat)
  let date := Text.join ['-'] [digits 4 now.year.toInt, digits 2 now.month.val, digits 2 now.day.val]
  let time := Text.join [':'] [digits 2 now.hour.val, digits 2 now.minute.val, digits 2 now.second.val]
  return date ++ 'T' :: time ++ '.' :: digits 6 (now.nanosecond.val / 1000) ++ ['Z']

end Lexis.Main

open Lexis in
def main (args : List String) : IO UInt32 := do
  let args := args.map String.toList
  let env ← Main.getEnvironment
  let t ← Main.readTree env args
  let e := Program.run env t (← Main.getTimestamp) args
  (e.tree.changesSince t).forM Main.writeEntry
  (← IO.getStdout).putStr (String.ofList e.output)
  (← IO.getStderr).putStr (String.ofList e.diagnostics)
  return e.exitCode.toUInt32
