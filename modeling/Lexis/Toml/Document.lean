-- Reading a whole TOML document into its table.
import Lexis.Toml.Item
import Lexis.Toml.Reader

namespace Lexis.Toml

namespace Reader

/-! ## Values -/

def scalar : Reader Item := do
  match ← peek? with
  | some '"' | some '\'' => return .text (← string)
  | some 't' => word "true".toList; return .boolean true
  | some 'f' => word "false".toList; return .boolean false
  | some 'i' | some 'n' => specialFloat; return .number
  | _ =>
    (do dateTime; return .date) <|> (do float <|> specialFloat; return .number) <|>
      (do integer; return .number)

/-- The items of an array after its bracket. A comma may follow the last. -/
def arrayItems (value : Reader Item) : Nat → Reader (List Item)
  | 0 => failure
  | n + 1 => do
    gaps
    if (← peek?) = some ']' then
      char ']'
      return []
    let item ← value
    gaps
    if (← peek?) = some ',' then
      char ','
      return item :: (← arrayItems value n)
    char ']'
    return [item]

/-- The entries of an inline table after its brace. No comma follows the last. -/
def inlineEntries (value : Reader Item) : Nat → Entries → Reader Entries
  | 0, _ => failure
  | n + 1, entries => do
    let (path, last) ← key
    char '='
    blanks
    let item ← value
    blanks
    let entries ← entries.insert? path last item
    if (← peek?) = some ',' then
      char ','
      inlineEntries value n entries
    else
      char '\x7d'
      return entries

/-- A value. Arrays and inline tables may stand inside one another as deep as the
number says. -/
def value : Nat → Reader Item
  | 0 => scalar
  | depth + 1 => do
    let size := (← get).length
    match ← peek? with
    | some '[' =>
      char '['
      return .array (← arrayItems (value depth) size)
    | some '\x7b' =>
      char '\x7b'
      blanks
      if (← peek?) = some '\x7d' then
        char '\x7d'
        return .inline []
      return .inline (← inlineEntries (value depth) size [])
    | _ => scalar

end Reader

/-! ## Statements -/

inductive Statement where
  | entry (path : List Text) (key : Text) (item : Item)
  | header (path : List Text) (key : Text)
  | repeatedHeader (path : List Text) (key : Text)
deriving Repr

namespace Reader

def statement : Reader Statement := do
  match ← peek? with
  | some '[' =>
    char '['
    if (← peek?) = some '[' then
      char '['
      let (path, last) ← key
      word [']', ']']
      restOfLine
      return .repeatedHeader path last
    let (path, last) ← key
    char ']'
    restOfLine
    return .header path last
  | _ =>
    let (path, last) ← key
    char '='
    blanks
    let item ← value (nestingLimit - 1)
    restOfLine
    return .entry path last item

def statements : Nat → Reader (List Statement)
  | 0 => failure
  | n + 1 => do
    gaps
    if (← get).isEmpty then return []
    let s ← statement
    return s :: (← statements n)

end Reader

/-! ## Building the table -/

/-- The table that entries go into. -/
inductive Target where
  | document
  | table (path : List Text) (key : Text)
  | repeated (path : List Text) (key : Text)
deriving Repr

/-- A document being built: the tables that are finished, the target, and the
entries of the target so far. -/
structure Builder where
  document : Entries
  target : Target
  entries : Entries

namespace Builder

def empty : Builder := ⟨[], .document, []⟩

/-- Puts the entries of the target into the document. -/
def finish? (b : Builder) : Option Entries :=
  match b.target with
  | .document => some b.entries
  | .table path key =>
    b.document.update false (fun _ es => some (es.put key (.table .header b.entries))) path .header
  | .repeated path key =>
    b.document.update false
      (fun _ es =>
        match es.find? key with
        | none => some (es.put key (.tables [b.entries]))
        | some (.tables ts) => some (es.put key (.tables (ts ++ [b.entries])))
        | some _ => none)
      path .header

/-- Turns to a new target. A table gets a header once; a table that stands only
in the paths of other headers may still get its own. -/
def turnTo? (target : Target) (b : Builder) : Option Builder := do
  let document ← b.finish?
  match target with
  | .document => none
  | .table path key =>
    match ← document.walk? path key with
    | none => some ⟨document, target, []⟩
    | some (.table .path entries) => some ⟨document, target, entries⟩
    | some _ => none
  | .repeated path key =>
    match ← document.walk? path key with
    | none => some ⟨document, target, []⟩
    | some (.tables _) => some ⟨document, target, []⟩
    | some _ => none

def add? (b : Builder) : Statement → Option Builder
  | .entry path key item => do
    return { b with entries := ← b.entries.insert? path key item }
  | .header path key => b.turnTo? (.table path key)
  | .repeatedHeader path key => b.turnTo? (.repeated path key)

end Builder

/-- The table of a document. A byte-order mark may stand in front. -/
def parse? (document : Text) : Option Entries := do
  let body := if document.head? = some '\ufeff' then document.drop 1 else document
  let (statements, _) ← (Reader.statements (body.length + 1)).run body
  let b ← statements.foldlM Builder.add? Builder.empty
  b.finish?

end Lexis.Toml
