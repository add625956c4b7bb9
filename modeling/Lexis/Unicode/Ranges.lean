-- Sets of characters given as ranges of code points.

namespace Lexis.Unicode

/-- The first and the last code point of a range. -/
abbrev CodeRange := Nat × Nat

/-- Some range of the list holds the character. -/
def inRanges (c : Char) (ranges : List CodeRange) : Bool :=
  ranges.any fun (low, high) => low ≤ c.toNat && c.toNat ≤ high

end Lexis.Unicode
