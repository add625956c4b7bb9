-- The shortest decimal text of a binary64 number: the fewest digits that
-- still round to it, and of those the nearest. All tests are exact integer
-- comparisons on a common denominator.
import Lexis.Number.Binary64

namespace Lexis.Binary64

/-! ## The decimals that round to a number -/

/-- The reals that round to a positive number, as numerators over one
denominator. The ends belong to it exactly when the significand is even. -/
structure Neighbourhood where
  low : Nat
  value : Nat
  high : Nat
  den : Nat
  closed : Bool
deriving Repr

/-- Half of the gap to each neighbour. The gap below is half as wide where the
exponent drops. Everything is counted in quarters of the unit. -/
def neighbourhood (x : Binary64) : Neighbourhood :=
  let scale := Nat.pow 2 (x.exponent - 2).toNat
  let quarters := 4 * x.significand
  let below := if x.significand = Nat.pow 2 52 ∧ x.exponent ≠ -1074 then 1 else 2
  ⟨(quarters - below) * scale, quarters * scale, (quarters + 2) * scale,
    Nat.pow 2 (2 - x.exponent).toNat, x.significand % 2 = 0⟩

/-- A decimal `digits * 10 ^ power`. -/
structure Decimal where
  digits : Nat
  power : Int
deriving DecidableEq, Repr

/-- A decimal and the numerator of a fraction, brought to one scale. -/
def Decimal.onScale (d : Decimal) (den num : Nat) : Nat × Nat :=
  (d.digits * Nat.pow 10 d.power.toNat * den, num * Nat.pow 10 (-d.power).toNat)

namespace Neighbourhood

def holds (n : Neighbourhood) (d : Decimal) : Bool :=
  let (here, low) := d.onScale n.den n.low
  let (_, high) := d.onScale n.den n.high
  if n.closed then low ≤ here && here ≤ high else low < here && here < high

/-- The number of digits before the decimal point; for a value below one,
less the zeros that follow the point. -/
def magnitude (n : Neighbourhood) : Int :=
  let digits := Nat.toDigits 10 (n.value * Nat.pow 10 400 / n.den)
  (digits.length : Int) - 400

/-- The greatest decimal with a power that is not above the value. -/
def floorAt (n : Neighbourhood) (power : Int) : Decimal :=
  ⟨n.value * Nat.pow 10 (-power).toNat / (n.den * Nat.pow 10 power.toNat), power⟩

/-- The decimal nearest to the value among those with a number of digits, if
it rounds to the value. Two that are equally near give the greater. -/
def nearestWith? (n : Neighbourhood) (count : Nat) : Option Decimal :=
  let lower := n.floorAt (n.magnitude - count)
  let upper := { lower with digits := lower.digits + 1 }
  match n.holds lower, n.holds upper with
  | false, false => none
  | true, false => some lower
  | false, true => some upper
  | true, true =>
    let (below, value) := lower.onScale n.den n.value
    let (above, _) := upper.onScale n.den n.value
    if value - below < above - value then some lower else some upper

end Neighbourhood

/-- The decimal with the fewest digits that rounds to a positive number.
Seventeen digits always suffice. -/
def shortest (x : Binary64) : Decimal :=
  let n := x.neighbourhood
  match (List.range' 1 16).findSome? n.nearestWith? with
  | some d => d
  | none => (n.nearestWith? 17).getD (n.floorAt (n.magnitude - 17))

/-! ## Layout -/

/-- Digits as `d.ddde±x`, without a point after a single digit. -/
def scientific (digits : Text) (exponent : Int) : Text :=
  let point := if digits.length ≤ 1 then [] else '.' :: digits.drop 1
  let sign := if exponent < 0 then ['-'] else []
  digits.take 1 ++ point ++ 'e' :: sign ++ Text.ofNat exponent.natAbs

/-- Digits with the point after a number of them, and a zero where one side
would be empty. -/
def positional (digits : Text) (point : Int) : Text :=
  if point ≤ 0 then '0' :: '.' :: Text.filled (-point).toNat '0' ++ digits
  else
    let whole := point.toNat
    if digits.length ≤ whole then
      digits ++ Text.filled (whole - digits.length) '0' ++ ['.', '0']
    else digits.take whole ++ '.' :: digits.drop whole

/-- A number as text: positional from 0.0001 up to below 10^16, scientific
beyond. -/
def display (x : Binary64) : Text :=
  if x.significand = 0 then ['0', '.', '0']
  else
    let d := x.shortest
    let all := Text.ofNat d.digits
    let digits := (all.reverse.dropWhile (· = '0')).reverse
    let point := (all.length : Int) + d.power
    if -4 < point ∧ point ≤ 16 then positional digits point
    else scientific digits (point - 1)

end Lexis.Binary64
