-- Operators and punctuation marks. Where several operators fit, the longest
-- spelling wins.
import Lexis.Text.Basic

namespace Lexis

/-! ## Operators -/

inductive Operator where
  | equal | notEqual | lessEqual | greaterEqual | logicalAnd | logicalOr
  | addAssign | subAssign | mulAssign | divAssign | remAssign
  | arrow | power
  | add | sub | mul | div | rem
  | assign | less | greater | logicalNot
deriving DecidableEq, Repr

namespace Operator

/-- All operators, longer spellings before shorter ones. -/
def all : List Operator :=
  [equal, notEqual, lessEqual, greaterEqual, logicalAnd, logicalOr, addAssign, subAssign, mulAssign,
    divAssign, remAssign, arrow, power, add, sub, mul, div, rem, assign, less, greater, logicalNot]

def spelling : Operator → Text
  | equal => ['=', '=']
  | notEqual => ['!', '=']
  | lessEqual => ['<', '=']
  | greaterEqual => ['>', '=']
  | logicalAnd => ['&', '&']
  | logicalOr => ['|', '|']
  | addAssign => ['+', '=']
  | subAssign => ['-', '=']
  | mulAssign => ['*', '=']
  | divAssign => ['/', '=']
  | remAssign => ['%', '=']
  | arrow => ['-', '>']
  | power => ['*', '*']
  | add => ['+']
  | sub => ['-']
  | mul => ['*']
  | div => ['/']
  | rem => ['%']
  | assign => ['=']
  | less => ['<']
  | greater => ['>']
  | logicalNot => ['!']

theorem mem_all (o : Operator) : o ∈ all := by cases o <;> decide

/-- Every operator that comes later in the list is no longer. -/
theorem all_longest_first :
    all.Pairwise fun a b => b.spelling.length ≤ a.spelling.length := by decide

/-- The longest operator that a text begins with. -/
def longestMatch? (t : Text) : Option Operator := all.find? fun o => o.spelling.isPrefixOf t

theorem spelling_ne_nil (o : Operator) : o.spelling ≠ [] := by cases o <;> decide

end Operator

/-! ## Punctuation -/

inductive Punctuation where
  | parenOpen | parenClose | braceOpen | braceClose | bracketOpen | bracketClose
  | comma | semicolon | colon | dot
deriving DecidableEq, Repr

namespace Punctuation

def all : List Punctuation :=
  [parenOpen, parenClose, braceOpen, braceClose, bracketOpen, bracketClose, comma, semicolon, colon,
    dot]

def char : Punctuation → Char
  | parenOpen => '('
  | parenClose => ')'
  | braceOpen => '{'
  | braceClose => '}'
  | bracketOpen => '['
  | bracketClose => ']'
  | comma => ','
  | semicolon => ';'
  | colon => ':'
  | dot => '.'

/-- The mark that a character is, if it is one. -/
def ofChar? (c : Char) : Option Punctuation := all.find? fun p => p.char == c

theorem char_of_ofChar? {c : Char} {p : Punctuation} (h : ofChar? c = some p) : p.char = c := by
  simpa using List.find?_some h

theorem ofChar?_char (p : Punctuation) : ofChar? p.char = some p := by cases p <;> decide

end Punctuation

end Lexis
