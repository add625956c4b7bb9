-- Finite non-negative binary floating-point numbers with 53 significant
-- bits, as exact integers: a significand times a power of two. A fraction is
-- rounded to the nearest of them, and a tie goes to the even significand.
import Lexis.Text.Basic

namespace Lexis

/-- A non-negative binary64 number, `significand * 2 ^ exponent`. Each number
has one form: the significand fills its 53 bits unless the exponent is least. -/
structure Binary64 where
  significand : Nat
  exponent : Int
  significand_lt : significand < Nat.pow 2 53
  exponent_ge : -1074 ≤ exponent
  exponent_le : exponent ≤ 971
  full_or_least : Nat.pow 2 52 ≤ significand ∨ exponent = -1074
deriving DecidableEq, Repr

namespace Binary64

def zero : Binary64 := ⟨0, -1074, by decide, by decide, by decide, .inr rfl⟩

/-- The number with a significand and an exponent, when they are in form. -/
def ofParts? (significand : Nat) (exponent : Int) : Option Binary64 :=
  if h : significand < Nat.pow 2 53 ∧ -1074 ≤ exponent ∧ exponent ≤ 971 ∧
      (Nat.pow 2 52 ≤ significand ∨ exponent = -1074) then
    some ⟨significand, exponent, h.1, h.2.1, h.2.2.1, h.2.2.2⟩
  else none

/-! ## Rounding a fraction -/

/-- The whole number nearest to a fraction, the even one on a tie. -/
def roundHalfEven (num den : Nat) : Nat :=
  let quotient := num / den
  let twice := 2 * (num % den)
  if twice < den then quotient
  else if den < twice then quotient + 1
  else if quotient % 2 = 0 then quotient
  else quotient + 1

/-- A fraction measured in units of `2 ^ exponent`. -/
def inUnits (exponent : Int) (num den : Nat) : Nat × Nat :=
  (num * Nat.pow 2 (-exponent).toNat, den * Nat.pow 2 exponent.toNat)

/-- The exponent whose units measure a positive fraction in 53 bits, or the
least exponent where that is higher. -/
def unitExponent (num den : Nat) : Int :=
  let low := (Nat.log2 num : Int) - Nat.log2 den - 53
  let (n, d) := inUnits low num den
  max (-1074) (if n / d < Nat.pow 2 53 then low else low + 1)

/-- The number nearest to `num / den`. There is none when the fraction rounds
past the greatest number. -/
def ofRatio? (num den : Nat) : Option Binary64 :=
  if num = 0 then some zero
  else
    let exponent := unitExponent num den
    let (n, d) := inUnits exponent num den
    let significand := roundHalfEven n d
    if significand = Nat.pow 2 53 then ofParts? (Nat.pow 2 52) (exponent + 1)
    else ofParts? significand exponent

/-- The number nearest to the decimal `whole.fraction`. -/
def ofDecimal? (whole fraction : Text) : Option Binary64 :=
  ofRatio? (Text.decimalValue (whole ++ fraction)) (Nat.pow 10 fraction.length)

end Binary64

end Lexis
