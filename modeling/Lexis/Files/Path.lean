-- Paths as they are written. A path with a slash in front starts at the
-- root, any other at the working directory.
import Lexis.Text.Basic

namespace Lexis

abbrev Path := Text

namespace Path

/-! ## Limits -/

/-- The most bytes that one name in a directory can have. -/
def maxNameSize : Nat := 255

/-- The most bytes that a path can have. -/
def maxSize : Nat := 4095

/-! ## Parts -/

def isAbsolute (p : Path) : Bool := p.head? == some '/'

/-- The parts between slashes, which may be empty. There is one more of them
than slashes. -/
def parts : Path → List Text
  | [] => [[]]
  | c :: p => if c = '/' then [] :: parts p else (parts p).modifyHead (c :: ·)

theorem parts_ne_nil (p : Path) : parts p ≠ [] := by
  cases p with
  | nil => simp [parts]
  | cons c p => rw [parts]; split <;> simp [parts_ne_nil p]

theorem join_parts (p : Path) : Text.join ['/'] (parts p) = p := by
  induction p with
  | nil => rfl
  | cons c p ih =>
    obtain ⟨first, rest, hp⟩ := List.exists_cons_of_ne_nil (parts_ne_nil p)
    rw [hp] at ih
    rw [parts, hp]
    split
    · subst c
      simpa [Text.join, List.intercalate] using ih
    · cases rest <;> simpa [Text.join, List.intercalate] using ih

def dropLastSlashes (p : Path) : Path := (p.reverse.dropWhile (· == '/')).reverse

/-- The parts that count: none that is empty, and a single dot only in front of
a path that starts at the working directory. -/
def steps (p : Path) : List Text :=
  match parts p with
  | [] => []
  | first :: rest =>
    (if first.isEmpty then [] else [first]) ++ rest.filter fun part => !(part.isEmpty || part == ['.'])

def ofSteps (absolute : Bool) (names : List Text) : Path :=
  (if absolute then ['/'] else []) ++ Text.join ['/'] names

/-! ## Parents and children -/

/-- The paths above a path, nearest first, without the root and without the
working directory. -/
def ancestors (p : Path) : List Path :=
  let names := p.steps
  (List.range' 1 (names.length - 1)).reverse.map fun n => ofSteps p.isAbsolute (names.take n)

/-- The path above a path. The root and the empty path have none. -/
def parent? (p : Path) : Option Path :=
  if p.steps.isEmpty then none else some (ofSteps p.isAbsolute p.steps.dropLast)

/-- A name inside the directory of a path. -/
def join (p : Path) (name : Text) : Path :=
  if p.isEmpty then name
  else if p.getLast? == some '/' then p ++ name
  else p ++ '/' :: name

end Path

end Lexis
