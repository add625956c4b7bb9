-- The reserved words of the language. A word is a keyword exactly when it is
-- spelled like one.
import Lexis.Text.Basic

namespace Lexis

inductive Keyword where
  | letKw | constKw | fnKw | returnKw
  | ifKw | elseKw | elifKw | whileKw | forKw | inKw
  | breakKw | continueKw
  | trueKw | falseKw | nullKw
  | structKw | importKw
deriving DecidableEq, Repr

namespace Keyword

def all : List Keyword :=
  [letKw, constKw, fnKw, returnKw, ifKw, elseKw, elifKw, whileKw, forKw, inKw, breakKw, continueKw,
    trueKw, falseKw, nullKw, structKw, importKw]

def spelling : Keyword → Text
  | letKw => "let".toList
  | constKw => "const".toList
  | fnKw => "fn".toList
  | returnKw => "return".toList
  | ifKw => "if".toList
  | elseKw => "else".toList
  | elifKw => "elif".toList
  | whileKw => "while".toList
  | forKw => "for".toList
  | inKw => "in".toList
  | breakKw => "break".toList
  | continueKw => "continue".toList
  | trueKw => "true".toList
  | falseKw => "false".toList
  | nullKw => "null".toList
  | structKw => "struct".toList
  | importKw => "import".toList

theorem mem_all (k : Keyword) : k ∈ all := by cases k <;> decide

/-- The keyword that a word spells, if it spells one. -/
def ofWord? (word : Text) : Option Keyword := all.find? fun k => k.spelling == word

theorem spelling_of_ofWord? {word : Text} {k : Keyword} (h : ofWord? word = some k) :
    k.spelling = word := by
  simpa using List.find?_some h

theorem ofWord?_spelling (k : Keyword) : ofWord? k.spelling = some k := by
  cases k <;> decide

end Keyword

end Lexis
