-- Reading arguments from left to right. The first one that is wrong, or
-- that asks for the version or for help, decides; a value that stands
-- apart from its option is looked at with the argument after it.
import Lexis.CommandLine.Options
import Lexis.Files.Path

namespace Lexis

/-- Why arguments come to no request. -/
inductive Stop where
  | usage
  | version (place : Place)
  | help
deriving DecidableEq, Repr

abbrev Reading := Except Stop

/-! ## What one place gives -/

/-- The options and files of a place so far. An option whose value stands apart
waits, first for the value, then for the next argument. -/
structure Given where
  options : List (OptionKind × Text)
  files : List Path
  waiting : Option (OptionKind × Option Text)
deriving DecidableEq, Repr

namespace Given

def empty : Given := ⟨[], [], none⟩

def value? (g : Given) (k : OptionKind) : Option Text := g.options.lookup k

def has (g : Given) (k : OptionKind) : Bool := (g.value? k).isSome

/-- Adds an option, which may stand once in a place. -/
def add (g : Given) (k : OptionKind) (value : Text) : Reading Given :=
  if g.has k || !k.accepts value then .error .usage
  else .ok { g with options := g.options ++ [(k, value)] }

/-- Adds the option that waits. -/
def settle (g : Given) : Reading Given :=
  match g.waiting with
  | none => .ok g
  | some (k, some value) => add { g with waiting := none } k value
  | some (_, none) => .error .usage

def addFile (g : Given) (p : Path) : Reading Given :=
  if p.isEmpty then .error .usage else .ok { g with files := g.files ++ [p] }

end Given

/-! ## One argument -/

/-- A dash alone is no option. -/
def isOptionArgument (arg : Text) : Bool := arg.head? == some '-' && arg != ['-']

namespace Given

def awaitsValue (g : Given) : Bool :=
  match g.waiting with
  | some (_, none) => true
  | _ => false

/-- Takes an argument as the value that is awaited. -/
def takeValue (g : Given) (arg : Text) : Reading Given :=
  match g.waiting with
  | some (k, none) =>
    if isOptionArgument arg then .error .usage else .ok { g with waiting := some (k, some arg) }
  | _ => .ok g

/-- Adds an option that takes no value. -/
def addFlag (place : Place) (g : Given) (k : OptionKind) : Reading Given := do
  let g ← g.settle
  match k with
  | .version => throw (.version place)
  | .help => throw .help
  | _ => g.add k []

/-- Adds an option with the value attached to it, or lets it wait for one. -/
def addValued (g : Given) (k : OptionKind) (attached : Option Text) : Reading Given := do
  let g ← g.settle
  match attached with
  | some value => g.add k value
  | none => return { g with waiting := some (k, none) }

/-- Reads a long option after its dashes. -/
def readLong (place : Place) (g : Given) (body : Text) : Reading Given :=
  let name := body.takeWhile (· != '=')
  let attached := if name.length < body.length then some (body.drop (name.length + 1)) else none
  match OptionKind.ofLong? place name with
  | none => .error .usage
  | some k =>
    if k.takesValue then g.addValued k attached
    else if attached.isSome then .error .usage
    else g.addFlag place k

/-- Reads short options after their dash. What follows the letter of an option
with a value is that value, after an equals sign if there is one. -/
def readShort (place : Place) (g : Given) : List Char → Reading Given
  | [] => .ok g
  | letter :: rest =>
    match OptionKind.ofShort? place letter with
    | none => .error .usage
    | some k =>
      if k.takesValue then
        match rest with
        | [] => g.addValued k none
        | '=' :: value => g.addValued k (some value)
        | value => g.addValued k (some value)
      else do
        let g ← g.addFlag place k
        readShort place g rest

def readOption (place : Place) (g : Given) (arg : Text) : Reading Given :=
  match arg with
  | '-' :: '-' :: body => g.readLong place body
  | '-' :: body => g.readShort place body
  | _ => .error .usage

end Given

/-! ## All arguments -/

/-- Two dashes alone end the options. -/
def endOfOptions : Text := ['-', '-']

/-- Help can also be asked for with a word, and with a subcommand after it. -/
def readHelp : List Text → Stop
  | [] => .help
  | [word] => if (Subcommand.ofWord? word).isSome || word == "help".toList then .help else .usage
  | _ => .usage

/-- Reads up to the subcommand, and gives it with the arguments after it. -/
def readFront (g : Given) : List Text → Reading (Given × Subcommand × List Text)
  | [] => .error .usage
  | arg :: rest =>
    if g.awaitsValue then do
      let g ← g.takeValue arg
      readFront g rest
    else if arg = endOfOptions then .error .usage
    else if isOptionArgument arg then do
      let g ← g.readOption none arg
      readFront g rest
    else
      match Subcommand.ofWord? arg with
      | some s => .ok (g, s, rest)
      | none => .error (if arg = "help".toList then readHelp rest else .usage)

/-- Adds an argument that is no option. -/
def Given.addOperand (s : Subcommand) (g : Given) (arg : Text) : Reading Given := do
  let g ← g.settle
  if s.takesFiles then g.addFile arg else throw .usage

/-- Reads the arguments after a subcommand. -/
def readBack (s : Subcommand) (g : Given) : List Text → Reading Given
  | [] => g.settle
  | arg :: rest =>
    if g.awaitsValue then do
      let g ← g.takeValue arg
      readBack s g rest
    else if arg = endOfOptions then do
      let g ← rest.foldlM (Given.addOperand s) g
      g.settle
    else if isOptionArgument arg then do
      let g ← g.readOption (some s) arg
      readBack s g rest
    else do
      let g ← g.addOperand s arg
      readBack s g rest

end Lexis
