-- Settings of the program, and how they are read from and written to a
-- configuration file. What a file does not mention keeps its default.
import Lexis.Toml.Document

namespace Lexis

/-! ## Settings -/

inductive OutputFormat where
  | table
  | json
deriving DecidableEq, Repr

def OutputFormat.word : OutputFormat → Text
  | table => "table".toList
  | json => "json".toList

/-- The format with a name, which is in lower case. -/
def OutputFormat.ofWord? (word : Text) : Option OutputFormat :=
  [OutputFormat.table, OutputFormat.json].find? fun f => f.word == word

theorem OutputFormat.ofWord?_word (f : OutputFormat) : OutputFormat.ofWord? f.word = some f := by
  cases f <;> rfl

/-- How results are shown. -/
structure DisplayConfig where
  format : OutputFormat
  showComments : Bool
  showErrors : Bool
deriving DecidableEq, Repr

structure Config where
  verbose : Bool
  display : DisplayConfig
deriving DecidableEq, Repr

def DisplayConfig.standard : DisplayConfig := ⟨.table, true, true⟩

/-- The settings without any configuration file. -/
def Config.standard : Config := ⟨false, .standard⟩

/-! ## Reading -/

namespace Toml.Item

def bool? : Item → Option Bool
  | boolean b => some b
  | _ => none

/-- A choice without content of its own: its name as a text, or a table with an
empty table or array under the name. -/
def choice? : Item → Option Text
  | text t => some t
  | inline [(name, inline [])] => some name
  | inline [(name, array [])] => some name
  | table _ [(name, table _ [])] => some name
  | table _ [(name, inline [])] => some name
  | table _ [(name, array [])] => some name
  | _ => none

def format? (item : Item) : Option OutputFormat := do
  OutputFormat.ofWord? (← item.choice?)

end Toml.Item

/-- The setting of an item, or the default where there is none. -/
def settingOr {α : Type} (fallback : α) (read : Toml.Item → Option α) :
    Option Toml.Item → Option α
  | none => some fallback
  | some item => read item

namespace DisplayConfig

/-- Display settings from the items of each. -/
def ofItems? (format showComments showErrors : Option Toml.Item) : Option DisplayConfig := do
  let format ← settingOr standard.format Toml.Item.format? format
  let showComments ← settingOr standard.showComments Toml.Item.bool? showComments
  let showErrors ← settingOr standard.showErrors Toml.Item.bool? showErrors
  return ⟨format, showComments, showErrors⟩

def ofEntries? (entries : Toml.Entries) : Option DisplayConfig :=
  ofItems? (entries.find? "format".toList) (entries.find? "show_comments".toList)
    (entries.find? "show_errors".toList)

/-- Display settings are a table, or a list of the settings in order. A date
reads as a table that mentions none of them. -/
def ofItem? : Toml.Item → Option DisplayConfig
  | .inline entries => ofEntries? entries
  | .table _ entries => ofEntries? entries
  | .date => some standard
  | .array items => ofItems? items[0]? items[1]? items[2]?
  | .tables tables =>
    let items := tables.map fun entries => Toml.Item.table .header entries
    ofItems? items[0]? items[1]? items[2]?
  | _ => none

end DisplayConfig

namespace Config

def ofEntries? (entries : Toml.Entries) : Option Config := do
  let verbose ← settingOr standard.verbose Toml.Item.bool? (entries.find? "verbose".toList)
  let display ← settingOr .standard DisplayConfig.ofItem? (entries.find? "display".toList)
  return ⟨verbose, display⟩

/-- The settings of a configuration text. There are none when the text is no
TOML document or a setting has the wrong type. -/
def parse? (t : Text) : Option Config := do
  ofEntries? (← Toml.parse? t)

/-! ## Writing -/

def boolWord (b : Bool) : Text := if b then "true".toList else "false".toList

/-- The configuration text of settings. -/
def render (c : Config) : Text :=
  "verbose = ".toList ++ boolWord c.verbose ++ "\n\n[display]\nformat = \"".toList ++
    c.display.format.word ++ "\"\nshow_comments = ".toList ++ boolWord c.display.showComments ++
    "\nshow_errors = ".toList ++ boolWord c.display.showErrors ++ ['\n']

/-- What is written reads back. -/
theorem parse?_render (c : Config) : parse? c.render = some c := by
  obtain ⟨v, f, s, e⟩ := c
  cases v <;> cases f <;> cases s <;> cases e <;> decide +kernel

end Config

end Lexis
