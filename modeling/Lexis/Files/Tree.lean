-- Files and directories, and what programs do with them: follow a path,
-- read, write, and make directories. Each operation fails with its cause
-- and then changes nothing.
import Lexis.Files.Path
import Lexis.Text.Utf8

namespace Lexis

/-! ## The tree -/

inductive Node where
  | file (bytes : List UInt8)
  | directory (entries : List (Text × Node))

/-- The names from the root down to a node. -/
abbrev Route := List Text

/-- What stands at a route, without what is below it. -/
inductive Entry where
  | file (bytes : List UInt8)
  | directory
deriving DecidableEq, Repr

namespace Node

def entry : Node → Entry
  | file bytes => .file bytes
  | directory _ => .directory

def child? (name : Text) : Node → Option Node
  | file _ => none
  | directory entries => entries.lookup name

def find? : Route → Node → Option Node
  | [], node => some node
  | name :: route, node => (node.child? name).bind (find? route)

/-- Puts a node under a name, in place of the one there is. -/
def putEntry (name : Text) (new : Node) : List (Text × Node) → List (Text × Node)
  | [] => [(name, new)]
  | e :: entries => if e.1 = name then (name, new) :: entries else e :: putEntry name new entries

theorem lookup_putEntry (name key : Text) (new : Node) (entries : List (Text × Node)) :
    (putEntry name new entries).lookup key =
      if key = name then some new else entries.lookup key := by
  induction entries with
  | nil =>
    by_cases h : key = name
    · simp [putEntry, h]
    · simp [putEntry, List.lookup_cons, h, beq_eq_false_iff_ne.2 h]
  | cons e entries ih =>
    obtain ⟨k, v⟩ := e
    by_cases h : k = name
    · subst h
      by_cases h' : key = k
      · simp [putEntry, h']
      · simp [putEntry, List.lookup_cons, h', beq_eq_false_iff_ne.2 h']
    · by_cases h' : key = k
      · subst h'
        simp [putEntry, h]
      · simp [putEntry, List.lookup_cons, h, ih, beq_eq_false_iff_ne.2 h']

/-- Puts a node at a route. Missing directories on the way are made; below a file
nothing changes. -/
def put (new : Node) : Route → Node → Node
  | [], _ => new
  | _ :: _, file bytes => file bytes
  | name :: route, directory entries =>
    directory (putEntry name (put new route ((entries.lookup name).getD (directory []))) entries)

mutual

/-- Everything from a node down, parents before children. -/
def listing (route : Route) : Node → List (Route × Entry)
  | file bytes => [(route, .file bytes)]
  | directory entries => (route, .directory) :: listingOf route entries

def listingOf (route : Route) : List (Text × Node) → List (Route × Entry)
  | [] => []
  | (name, node) :: entries => listing (route ++ [name]) node ++ listingOf route entries

end

end Node

/-- A tree of files and the directory where relative paths start. -/
structure FileTree where
  root : Node
  workingDirectory : Route

/-- Why an operation on files fails. -/
inductive FileError where
  | notFound
  | alreadyExists
  | notDirectory
  | isDirectory
  | nameTooLong
  | nulInPath
  | notText
deriving DecidableEq, Repr

namespace FileTree

/-! ## Looking -/

def entry? (t : FileTree) (r : Route) : Option Entry := (t.root.find? r).map Node.entry

/-- The working directory as a path. -/
def currentPath (t : FileTree) : Path := Path.ofSteps true t.workingDirectory

/-- The names that a directory can hold. -/
def checkName (name : Text) : Except FileError Unit :=
  if Path.maxNameSize < name.byteSize then .error .nameTooLong else .ok ()

/-- Goes from a directory along the parts of a path. Every part but the last has
to lead to a directory. -/
def walk (t : FileTree) : Route → List Text → Except FileError Route
  | route, [] => .ok route
  | route, part :: parts =>
    match t.entry? route with
    | none => .error .notFound
    | some (.file _) => .error .notDirectory
    | some .directory =>
      if part = [] ∨ part = ['.'] then t.walk route parts
      else if part = ['.', '.'] then t.walk route.dropLast parts
      else
        match checkName part with
        | .error e => .error e
        | .ok () =>
          if (t.entry? (route ++ [part])).isSome then t.walk (route ++ [part]) parts
          else .error .notFound

/-- Where the parts of a path start. -/
def origin (t : FileTree) (p : Path) : Route := if p.isAbsolute then [] else t.workingDirectory

/-- The paths that can name anything. -/
def checkPath (p : Path) : Except FileError Unit :=
  if '\x00' ∈ p then .error .nulInPath
  else if p = [] then .error .notFound
  else if Path.maxSize < Text.byteSize p then .error .nameTooLong
  else .ok ()

/-- The route of the node that a path names. -/
def resolve (t : FileTree) (p : Path) : Except FileError Route := do
  checkPath p
  t.walk (t.origin p) p.parts

/-- What a path names, if anything. -/
def lookup? (t : FileTree) (p : Path) : Option Entry :=
  (t.resolve p).toOption.bind t.entry?

def pathExists (t : FileTree) (p : Path) : Bool := (t.lookup? p).isSome

def isDirectory (t : FileTree) (p : Path) : Bool := t.lookup? p == some .directory

/-! ## Reading -/

def readFile (t : FileTree) (p : Path) : Except FileError (List UInt8) := do
  let route ← t.resolve p
  match t.entry? route with
  | some (.file bytes) => return bytes
  | some .directory => throw .isDirectory
  | none => throw .notFound

def readText (t : FileTree) (p : Path) : Except FileError Text := do
  match Utf8.decode (← t.readFile p) with
  | .ok text => return text
  | .error _ => throw .notText

/-! ## Changing -/

def put (t : FileTree) (r : Route) (new : Node) : FileTree :=
  { t with root := Node.put new r t.root }

/-- The directory that holds the last part of a path, and that part. -/
def locate (t : FileTree) (p : Path) : Except FileError (Route × Text) := do
  checkPath p
  let route ← t.walk (t.origin p) p.parts.dropLast
  match t.entry? route with
  | some .directory => return (route, p.parts.getLastD [])
  | some (.file _) => throw .notDirectory
  | none => throw .notFound

/-- Last parts that name no new node. -/
def isFixedPart (part : Text) : Bool := part == [] || part == ['.'] || part == ['.', '.']

def createDirectory (t : FileTree) (p : Path) : Except FileError FileTree := do
  checkPath p
  let (route, name) ← t.locate (if p.dropLastSlashes.isEmpty then p else p.dropLastSlashes)
  if isFixedPart name then throw .alreadyExists
  checkName name
  if (t.entry? (route ++ [name])).isSome then throw .alreadyExists
  return t.put (route ++ [name]) (.directory [])

def writeFile (t : FileTree) (p : Path) (bytes : List UInt8) : Except FileError FileTree := do
  let (route, name) ← t.locate p
  if isFixedPart name then throw .isDirectory
  checkName name
  if t.entry? (route ++ [name]) = some .directory then throw .isDirectory
  return t.put (route ++ [name]) (.file bytes)

/-- Makes the first directory of a list after the ones behind it, as far as they
are missing. Directories made before a failure stay. -/
def createEach (t : FileTree) : List Path → FileTree × Except FileError Unit
  | [] => (t, .ok ())
  | p :: above =>
    match t.createDirectory p with
    | .ok made => (made, .ok ())
    | .error .notFound =>
      match t.createEach above with
      | (made, .error e) => (made, .error e)
      | (made, .ok ()) =>
        match made.createDirectory p with
        | .ok all => (all, .ok ())
        | .error e => (made, if made.isDirectory p then .ok () else .error e)
    | .error e => (t, if t.isDirectory p then .ok () else .error e)

/-- Makes a directory and the missing ones above it. -/
def createDirectories (t : FileTree) (p : Path) : FileTree × Except FileError Unit :=
  if p.isEmpty then (t, .ok ()) else t.createEach (p :: p.ancestors)

/-! ## Comparing -/

def listing (t : FileTree) : List (Route × Entry) := t.root.listing []

/-- What stands in a tree and was not the same in an earlier one. -/
def changesSince (t before : FileTree) : List (Route × Entry) :=
  t.listing.filter fun (route, entry) => before.entry? route ≠ some entry

end FileTree

end Lexis
