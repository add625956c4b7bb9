-- What a TOML document holds: items under keys, in tables that remember how
-- they came about. A table can be opened by its own header, by the header
-- of a table inside it, or by a dotted key, and that decides what may be
-- added to it later.
import Lexis.Text.Basic

namespace Lexis.Toml

/-! ## Items -/

/-- How a table came about. -/
inductive Origin where
  /-- by its own header, or as an inline table or the whole document -/
  | header
  /-- as a step of the path in a header -/
  | path
  /-- as a step of a dotted key -/
  | dotted
deriving DecidableEq, Repr

inductive Item where
  | text (t : Text)
  | boolean (b : Bool)
  | number
  | date
  | array (items : List Item)
  /-- a table written as a value, which is complete -/
  | inline (entries : List (Text × Item))
  | table (origin : Origin) (entries : List (Text × Item))
  /-- the tables of a repeated header, of which there is at least one -/
  | tables (tables : List (List (Text × Item)))
deriving Repr

/-- The items of a table under their keys. -/
abbrev Entries := List (Text × Item)

/-! ## Looking up and adding -/

namespace Entries

def find? (key : Text) (entries : Entries) : Option Item := List.lookup key entries

/-- Puts an item under a key, in place of the one there is. -/
def put (key : Text) (item : Item) (entries : Entries) : Entries :=
  if entries.any (·.1 == key) then entries.map fun e => if e.1 == key then (key, item) else e
  else entries ++ [(key, item)]

/-- Changes the table at the end of a path. Missing tables on the way are
opened. A value on the way stops the walk, and so does a table with a header
when the path is a dotted key. Of repeated tables the last one is meant. -/
def update (viaKey : Bool) (change : Origin → Entries → Option Entries) :
    List Text → Origin → Entries → Option Entries
  | [], origin, entries => change origin entries
  | key :: path, _, entries =>
    match entries.find? key with
    | none => do
      let opened := if viaKey then Origin.dotted else Origin.path
      let child ← update viaKey change path opened []
      return entries.put key (.table opened child)
    | some (.table origin child) =>
      if viaKey ∧ origin = .header then none
      else do
        let child ← update viaKey change path origin child
        return entries.put key (.table origin child)
    | some (.tables tables) => do
      let last ← tables.getLast?
      let last ← update viaKey change path .header last
      return entries.put key (.tables (tables.dropLast ++ [last]))
    | some _ => none

/-- Adds an item under a dotted key. Its last table must be open for dotted
keys, and the key must be new in it. -/
def insert? (path : List Text) (key : Text) (item : Item) (entries : Entries) : Option Entries :=
  entries.update true
    (fun origin es =>
      if (origin = .dotted ↔ path = []) ∨ (es.find? key).isSome then none
      else some (es ++ [(key, item)]))
    path .header

/-- The item at the end of the path of a header, if the path can be walked. -/
def walk? : List Text → Text → Entries → Option (Option Item)
  | [], key, entries => some (entries.find? key)
  | step :: path, key, entries =>
    match entries.find? step with
    | none => some none
    | some (.table _ child) => walk? path key child
    | some (.tables tables) => do
      let last ← tables.getLast?
      walk? path key last
    | some _ => none

end Entries

end Lexis.Toml
