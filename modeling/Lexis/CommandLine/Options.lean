-- The options of the program: how they are spelled, where they may stand,
-- and which values they take.
import Lexis.Config

namespace Lexis

inductive Subcommand where
  | lex
  | check
  | init
deriving DecidableEq, Repr

namespace Subcommand

def word : Subcommand → Text
  | lex => "lex".toList
  | check => "check".toList
  | init => "init".toList

def ofWord? (word : Text) : Option Subcommand :=
  [lex, check, init].find? fun s => s.word == word

theorem ofWord?_word (s : Subcommand) : ofWord? s.word = some s := by
  cases s <;> rfl

/-- Whether a subcommand works on source files. It needs at least one then. -/
def takesFiles : Subcommand → Bool
  | lex | check => true
  | init => false

end Subcommand

/-- Where an option stands: in front of the subcommand, or after it. -/
abbrev Place := Option Subcommand

inductive OptionKind where
  | verbose
  | config
  | noColor
  | help
  | version
  | format
  | noComments
  | noErrors
  | path
  | force
deriving DecidableEq, Repr

namespace OptionKind

/-- The name after two dashes. -/
def long : OptionKind → Text
  | verbose => "verbose".toList
  | config => "config".toList
  | noColor => "no-color".toList
  | help => "help".toList
  | version => "version".toList
  | format => "format".toList
  | noComments => "no-comments".toList
  | noErrors => "no-errors".toList
  | path => "path".toList
  | force => "force".toList

/-- The letter after one dash. -/
def short? : OptionKind → Option Char
  | verbose => some 'v'
  | config => some 'c'
  | help => some 'h'
  | version => some 'V'
  | format => some 'F'
  | path => some 'p'
  | force => some 'f'
  | noColor | noComments | noErrors => none

def takesValue : OptionKind → Bool
  | config | format | path => true
  | _ => false

/-- Paths are not empty, and a format is one of its words. -/
def accepts : OptionKind → Text → Bool
  | config, value | path, value => !value.isEmpty
  | format, value => (OutputFormat.ofWord? value).isSome
  | _, _ => true

/-- The options of a place. Some may stand in both. -/
def allAt (place : Place) : List OptionKind :=
  [verbose, config, noColor, help, version] ++
    match place with
    | some .lex => [format, noComments, noErrors]
    | some .init => [path, force]
    | _ => []

def ofLong? (place : Place) (name : Text) : Option OptionKind :=
  (allAt place).find? fun k => k.long == name

def ofShort? (place : Place) (letter : Char) : Option OptionKind :=
  (allAt place).find? fun k => k.short? == some letter

end OptionKind

end Lexis
