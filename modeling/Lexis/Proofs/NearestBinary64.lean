-- The law of rounding: a fraction is rounded to the nearest binary64 number, and to the even
-- significand on a tie. Past the greatest number there is none from halfway to the next one on.
import Lexis.Number.Binary64
import Mathlib.Algebra.Order.Field.Power
import Mathlib.Algebra.Order.Ring.Rat
import Mathlib.Tactic.FieldSimp
import Mathlib.Tactic.Linarith
import Mathlib.Tactic.NormNum
import Mathlib.Tactic.Positivity
import Mathlib.Tactic.Ring

namespace Lexis.Binary64

/-! ## The nearest number -/

/-- The number as a fraction. -/
def toRat (x : Binary64) : ℚ := x.significand * 2 ^ x.exponent

/-- The fraction is a finite number of the format. -/
def Representable (q : ℚ) : Prop :=
  ∃ m e : ℤ, |m| < 2 ^ 53 ∧ -1074 ≤ e ∧ e ≤ 971 ∧ q = m * 2 ^ e

/-- No number of the format is nearer to the fraction. Where another one is as near, the
significand is even. -/
structure IsNearest (x : Binary64) (r : ℚ) : Prop where
  representable : Representable x.toRat
  nearest : ∀ q, Representable q → |x.toRat - r| ≤ |q - r|
  even_on_tie : ∀ q, Representable q → q ≠ x.toRat → |q - r| = |x.toRat - r| →
    Even x.significand

theorem toRat_zero : zero.toRat = 0 := by simp [toRat, zero]

theorem representable_toRat (x : Binary64) : Representable x.toRat := by
  have hlt : (x.significand : ℤ) < 2 ^ 53 := by exact_mod_cast x.significand_lt
  refine ⟨x.significand, x.exponent, ?_, x.exponent_ge, x.exponent_le, ?_⟩
  · rwa [abs_of_nonneg (Int.natCast_nonneg _)]
  · rw [toRat, Int.cast_natCast]

/-! ## Whole numbers -/

/-- The whole number is nearest to the fraction, and even if the next one is as near. -/
structure NearestEven (s : ℕ) (t : ℚ) : Prop where
  near : |(s : ℚ) - t| ≤ 1 / 2
  even : |(s : ℚ) - t| = 1 / 2 → Even s

/-- A fraction is its quotient and a part below one. Twice the remainder compares with the
denominator as the part compares with a half. -/
theorem exists_part (n : ℕ) {d : ℕ} (hd : 0 < d) : ∃ part : ℚ, (n : ℚ) / d = (n / d : ℕ) + part ∧
    0 ≤ part ∧ part < 1 ∧ (part < 1 / 2 ↔ 2 * (n % d) < d) ∧ (1 / 2 < part ↔ d < 2 * (n % d)) := by
  have hpos : (0 : ℚ) < d := by exact_mod_cast hd
  have hdivmod : (d : ℚ) * (n / d : ℕ) + (n % d : ℕ) = n := by exact_mod_cast Nat.div_add_mod n d
  refine ⟨(n % d : ℕ) / d, ?_, by positivity, ?_, ?_, ?_⟩
  · rw [← hdivmod]
    field_simp
  · rw [div_lt_one hpos]
    exact_mod_cast Nat.mod_lt n hd
  · rw [div_lt_iff₀ hpos, one_div_mul_eq_div, lt_div_iff₀ two_pos, mul_comm]
    exact_mod_cast Iff.rfl
  · rw [lt_div_iff₀ hpos, one_div_mul_eq_div, div_lt_iff₀ two_pos, mul_comm _ (2 : ℚ)]
    exact_mod_cast Iff.rfl

theorem nearestEven_roundHalfEven (n : ℕ) {d : ℕ} (hd : 0 < d) :
    NearestEven (roundHalfEven n d) (n / d) := by
  obtain ⟨part, hsplit, hnonneg, hlt, hlow, hhigh⟩ := exists_part n hd
  have hbelow : |((n / d : ℕ) : ℚ) - (n / d : ℚ)| = part := by
    rw [hsplit, sub_add_cancel_left, abs_neg, abs_of_nonneg hnonneg]
  have habove : |((n / d + 1 : ℕ) : ℚ) - (n / d : ℚ)| = 1 - part := by
    rw [hsplit, Nat.cast_succ, add_sub_add_left_eq_sub, abs_of_pos (sub_pos.mpr hlt)]
  unfold roundHalfEven
  simp only
  split_ifs with hless hmore heven
  · have hpart := hlow.mpr hless
    exact ⟨by rw [hbelow]; linarith, fun htie => by rw [hbelow] at htie; linarith⟩
  · have hpart := hhigh.mpr hmore
    exact ⟨by rw [habove]; linarith, fun htie => by rw [habove] at htie; linarith⟩
  · have hpart := mt hhigh.mp hmore
    exact ⟨by rw [hbelow]; linarith, fun _ => Nat.even_iff.mpr heven⟩
  · have hpart := mt hlow.mp hless
    refine ⟨by rw [habove]; linarith, fun _ => ?_⟩
    rw [Nat.even_add_one, Nat.even_iff]
    exact heven

namespace NearestEven

variable {s : ℕ} {t : ℚ}

/-- Other whole numbers are at least one away from it. -/
theorem one_le_dist {k : ℤ} (hk : (k : ℚ) ≠ s) : (1 : ℚ) ≤ |(k : ℚ) - t| + |(s : ℚ) - t| := by
  have hne : k - s ≠ 0 := by
    intro heq
    apply hk
    have hks : k = s := by omega
    rw [hks, Int.cast_natCast]
  have hone : (1 : ℚ) ≤ |(k : ℚ) - s| := by exact_mod_cast Int.one_le_abs hne
  have htriangle := abs_sub_le (k : ℚ) t s
  rw [abs_sub_comm t] at htriangle
  linarith

theorem le (h : NearestEven s t) (k : ℤ) : |(s : ℚ) - t| ≤ |(k : ℚ) - t| := by
  by_cases hk : (k : ℚ) = s
  · rw [hk]
  · have := one_le_dist (t := t) hk
    have := h.near
    linarith

theorem even_of_tie (h : NearestEven s t) {k : ℤ} (hk : (k : ℚ) ≠ s)
    (htie : |(k : ℚ) - t| = |(s : ℚ) - t|) : Even s := by
  have hone := one_le_dist (t := t) hk
  have hnear := h.near
  exact h.even (by linarith)

theorem le_of_le (h : NearestEven s t) {k : ℕ} (hk : (k : ℚ) ≤ t) : k ≤ s := by
  have hnear := abs_le.mp h.near
  have hlt : (k : ℚ) < s + 1 := by linarith
  exact Nat.lt_succ_iff.mp (by exact_mod_cast hlt)

theorem le_of_lt (h : NearestEven s t) {k : ℕ} (hk : t < k) : s ≤ k := by
  have hnear := abs_le.mp h.near
  have hlt : (s : ℚ) < k + 1 := by linarith
  exact Nat.lt_succ_iff.mp (by exact_mod_cast hlt)

/-- An even number is reached from halfway below it on. -/
theorem eq_iff_of_even (h : NearestEven s t) {k : ℕ} (hk : Even k) (hpos : 0 < k) (hlt : t < k) :
    s = k ↔ (k : ℚ) - 1 / 2 ≤ t := by
  have hnear := abs_le.mp h.near
  constructor
  · rintro rfl
    linarith
  · intro hge
    by_contra hne
    have hless : s + 1 ≤ k := Nat.lt_of_le_of_ne (h.le_of_lt hlt) hne
    have hless' : (s : ℚ) + 1 ≤ k := by exact_mod_cast hless
    have hdist : |(s : ℚ) - t| = 1 / 2 := by
      rw [abs_sub_comm, abs_of_nonneg (by linarith)]
      linarith
    have hs : (s : ℚ) + 1 = k := by
      rw [abs_sub_comm, abs_of_nonneg (by linarith)] at hdist
      linarith
    have hk' : s + 1 = k := by exact_mod_cast hs
    rw [← hk', Nat.even_add_one] at hk
    exact hk (h.even hdist)

end NearestEven

/-! ## Units -/

theorem two_zpow_eq (e : ℤ) : (2 : ℚ) ^ e = 2 ^ e.toNat / 2 ^ (-e).toNat := by
  rw [← zpow_natCast, ← zpow_natCast, ← zpow_sub₀ two_ne_zero]
  congr 1
  omega

theorem two_pow_mul_zpow (n : ℕ) (e : ℤ) : (2 : ℚ) ^ n * 2 ^ e = 2 ^ (e + n) := by
  rw [← zpow_natCast, ← zpow_add₀ two_ne_zero, add_comm]

theorem inUnits_den_pos (e : ℤ) (num : ℕ) {den : ℕ} (h : 0 < den) : 0 < (inUnits e num den).2 :=
  Nat.mul_pos h (Nat.pow_pos two_pos)

theorem ratio_inUnits (e : ℤ) (num : ℕ) {den : ℕ} (h : 0 < den) :
    ((inUnits e num den).1 : ℚ) / (inUnits e num den).2 = num / den / 2 ^ e := by
  have hden : (den : ℚ) ≠ 0 := by exact_mod_cast h.ne'
  simp only [inUnits, Nat.pow_eq, Nat.cast_mul, Nat.cast_pow, Nat.cast_ofNat]
  rw [two_zpow_eq]
  field_simp

/-- The unit measures a positive fraction in 53 bits, or is the least one. -/
structure IsUnit (e : ℤ) (r : ℚ) : Prop where
  least_le : -1074 ≤ e
  lt : r / 2 ^ e < 2 ^ 53
  full_or_least : 2 ^ 52 ≤ r / 2 ^ e ∨ e = -1074

/-- A fraction is known up to a factor of four from the lengths of its parts. -/
theorem ratio_bounds {num den : ℕ} (hnum : 0 < num) (hden : 0 < den) :
    (2 : ℚ) ^ ((num.log2 : ℤ) - den.log2 - 1) ≤ num / den ∧
      (num : ℚ) / den < 2 ^ ((num.log2 : ℤ) - den.log2 + 1) := by
  have hpos : (0 : ℚ) < den := by exact_mod_cast hden
  have hnumLow : (2 : ℚ) ^ num.log2 ≤ num := by exact_mod_cast Nat.log2_self_le hnum.ne'
  have hnumHigh : (num : ℚ) < 2 ^ (num.log2 + 1) := by exact_mod_cast Nat.lt_log2_self
  have hdenLow : (2 : ℚ) ^ den.log2 ≤ den := by exact_mod_cast Nat.log2_self_le hden.ne'
  have hdenHigh : (den : ℚ) < 2 ^ (den.log2 + 1) := by exact_mod_cast Nat.lt_log2_self
  have hlow : (2 : ℚ) ^ ((num.log2 : ℤ) - den.log2 - 1) * 2 ^ (den.log2 + 1) = 2 ^ num.log2 := by
    rw [mul_comm, two_pow_mul_zpow, ← zpow_natCast]
    congr 1
    omega
  have hhigh : (2 : ℚ) ^ ((num.log2 : ℤ) - den.log2 + 1) * 2 ^ den.log2 = 2 ^ (num.log2 + 1) := by
    rw [mul_comm, two_pow_mul_zpow, ← zpow_natCast]
    congr 1
    omega
  constructor
  · rw [le_div_iff₀ hpos]
    calc (2 : ℚ) ^ ((num.log2 : ℤ) - den.log2 - 1) * den
        ≤ 2 ^ ((num.log2 : ℤ) - den.log2 - 1) * 2 ^ (den.log2 + 1) := by gcongr
      _ ≤ num := by rwa [hlow]
  · rw [div_lt_iff₀ hpos]
    calc (num : ℚ) < 2 ^ ((num.log2 : ℤ) - den.log2 + 1) * 2 ^ den.log2 := by rwa [hhigh]
      _ ≤ 2 ^ ((num.log2 : ℤ) - den.log2 + 1) * den := by gcongr

/-- A fraction that takes 53 bits or 54 in a unit takes 53 bits in it or in the next one. -/
theorem full_in_unit {r : ℚ} (low : ℤ) (hlow : 2 ^ 52 ≤ r / 2 ^ low) (hhigh : r / 2 ^ low < 2 ^ 54) :
    let e := if r / 2 ^ low < 2 ^ 53 then low else low + 1
    2 ^ 52 ≤ r / 2 ^ e ∧ r / 2 ^ e < 2 ^ 53 := by
  intro e
  by_cases h : r / 2 ^ low < 2 ^ 53
  · rw [show e = low from if_pos h]
    exact ⟨hlow, h⟩
  · have hhalf : r / 2 ^ (low + 1) = r / 2 ^ low / 2 := by
      rw [zpow_add_one₀ two_ne_zero, div_div]
    rw [show e = low + 1 from if_neg h, hhalf]
    constructor <;> linarith

/-- A quotient is below a whole number if the fraction is. -/
theorem inUnits_lt_iff (e : ℤ) (num : ℕ) {den : ℕ} (h : 0 < den) (k : ℕ) :
    (inUnits e num den).1 / (inUnits e num den).2 < k ↔ (num : ℚ) / den / 2 ^ e < k := by
  have hpos := inUnits_den_pos e num h
  have hpos' : (0 : ℚ) < (inUnits e num den).2 := by exact_mod_cast hpos
  rw [← ratio_inUnits e num h, Nat.div_lt_iff_lt_mul hpos, div_lt_iff₀ hpos']
  exact_mod_cast Iff.rfl

theorem isUnit_unitExponent {num den : ℕ} (hnum : 0 < num) (hden : 0 < den) :
    IsUnit (unitExponent num den) (num / den) := by
  obtain ⟨hlow, hhigh⟩ := ratio_bounds hnum hden
  generalize hr : (num : ℚ) / den = r at hlow hhigh
  obtain ⟨low, hlowEq⟩ : ∃ low : ℤ, low = (num.log2 : ℤ) - den.log2 - 53 := ⟨_, rfl⟩
  have hpos : (0 : ℚ) < 2 ^ low := by positivity
  have hfull := full_in_unit (r := r) low ?_ ?_
  · have htest := inUnits_lt_iff low num hden (Nat.pow 2 53)
    rw [hr, show ((Nat.pow 2 53 : ℕ) : ℚ) = 2 ^ 53 from Nat.cast_pow 2 53] at htest
    have hexponent : unitExponent num den =
        max (-1074) (if r / 2 ^ low < 2 ^ 53 then low else low + 1) := by
      rw [unitExponent, ← hlowEq]
      simp only [htest]
    rw [hexponent]
    generalize (if r / 2 ^ low < 2 ^ 53 then low else low + 1) = e at hfull
    obtain ⟨hge, hlt⟩ := hfull
    rcases le_total (-1074) e with he | he
    · rw [max_eq_right he]
      exact ⟨he, hlt, .inl hge⟩
    · rw [max_eq_left he]
      refine ⟨le_refl _, lt_of_le_of_lt ?_ hlt, .inr rfl⟩
      have hr0 : 0 ≤ r := by rw [← hr]; positivity
      gcongr
      exact one_le_two
  · rw [le_div_iff₀ hpos, two_pow_mul_zpow, hlowEq]
    refine le_of_eq_of_le ?_ hlow
    congr 1
    omega
  · rw [div_lt_iff₀ hpos, two_pow_mul_zpow, hlowEq]
    refine lt_of_lt_of_eq hhigh ?_
    congr 1
    omega

/-! ## Rounding in a unit -/

theorem dist_in_unit (k r : ℚ) (e : ℤ) :
    |k * 2 ^ e - r| = |k - r / 2 ^ e| * 2 ^ e := by
  have hpos : (0 : ℚ) < 2 ^ e := by positivity
  rw [← abs_of_pos hpos, ← abs_mul, abs_of_pos hpos, sub_mul, div_mul_cancel₀ _ hpos.ne']

/-- A number of the format is a whole number of the unit, or lies below all numbers that fill the
unit, by half of it at least. -/
theorem representable_cases {q : ℚ} (hq : Representable q) (e : ℤ) :
    (∃ k : ℤ, q = k * 2 ^ e) ∨ -1074 < e ∧ q ≤ (2 ^ 52 - 1 / 2) * 2 ^ e := by
  obtain ⟨m, f, hm, hf, -, rfl⟩ := hq
  rcases le_or_gt e f with hef | hfe
  · left
    refine ⟨m * 2 ^ (f - e).toNat, ?_⟩
    push_cast
    rw [mul_assoc, two_pow_mul_zpow]
    congr 2
    omega
  · right
    refine ⟨lt_of_le_of_lt hf hfe, ?_⟩
    have hm' : (m : ℚ) ≤ 2 ^ 53 - 1 := by
      have : m ≤ 2 ^ 53 - 1 := Int.le_sub_one_of_lt (lt_of_le_of_lt (le_abs_self m) hm)
      exact_mod_cast this
    have hunit : (2 : ℚ) ^ f ≤ 2 ^ (e - 1) := zpow_le_zpow_right₀ one_le_two (by omega)
    calc (m : ℚ) * 2 ^ f ≤ (2 ^ 53 - 1) * 2 ^ f := by gcongr
      _ ≤ (2 ^ 53 - 1) * 2 ^ (e - 1) := by gcongr
      _ = (2 ^ 52 - 1 / 2) * 2 ^ e := by
          rw [zpow_sub_one₀ two_ne_zero]
          ring

/-- A number of the format that is the nearest whole number of a unit is nearest of all. -/
theorem isNearest_of_unit {x : Binary64} {r : ℚ} {e : ℤ} {s : ℕ} (hunit : IsUnit e r)
    (hs : NearestEven s (r / 2 ^ e)) (hx : x.toRat = s * 2 ^ e)
    (heven : Even s → Even x.significand) : x.IsNearest r := by
  have hpos : (0 : ℚ) < 2 ^ e := by positivity
  -- a number that fills no unit as large is farther away than the least one that does
  have hfar : ∀ q, -1074 < e → q ≤ (2 ^ 52 - 1 / 2) * 2 ^ e → |x.toRat - r| < |q - r| := by
    intro q he hq
    have hfull : 2 ^ 52 ≤ r / 2 ^ e := hunit.full_or_least.resolve_right he.ne'
    have hleast := hs.le (2 ^ 52)
    rw [Int.cast_pow, Int.cast_ofNat, abs_sub_comm (2 ^ 52),
      abs_of_nonneg (sub_nonneg.mpr hfull)] at hleast
    have hq' : q / 2 ^ e ≤ 2 ^ 52 - 1 / 2 := (div_le_iff₀ hpos).mpr hq
    have hqe : q = q / 2 ^ e * 2 ^ e := (div_mul_cancel₀ _ hpos.ne').symm
    have hdist : |q / 2 ^ e - r / 2 ^ e| = r / 2 ^ e - q / 2 ^ e := by
      rw [abs_sub_comm, abs_of_nonneg (by linarith)]
    rw [hx, hqe, dist_in_unit, dist_in_unit, hdist]
    refine mul_lt_mul_of_pos_right ?_ hpos
    linarith
  refine ⟨representable_toRat x, fun q hq => ?_, fun q hq hne htie => ?_⟩
  · rcases representable_cases hq e with ⟨k, rfl⟩ | ⟨he, hle⟩
    · rw [hx, dist_in_unit, dist_in_unit]
      exact mul_le_mul_of_nonneg_right (hs.le k) hpos.le
    · exact (hfar q he hle).le
  · rcases representable_cases hq e with ⟨k, rfl⟩ | ⟨he, hle⟩
    · rw [hx, dist_in_unit, dist_in_unit] at htie
      refine heven (hs.even_of_tie (k := k) ?_ (mul_right_cancel₀ hpos.ne' htie))
      rintro hk
      exact hne (by rw [hx, hk])
    · exact absurd htie (hfar q he hle).ne'

/-! ## Rounding a fraction -/

/-- What becomes of a fraction: it is past the greatest number, or is rounded to a number. -/
structure Rounds (r : ℚ) (result : Option Binary64) : Prop where
  none_iff : result = none ↔ 2 ^ 1024 - 2 ^ 970 ≤ r
  isNearest : ∀ x ∈ result, x.IsNearest r

/-- The limit is half a unit past the greatest number, and an odd number of half units. -/
theorem limit_eq : (2 : ℚ) ^ 1024 - 2 ^ 970 = (2 ^ 54 - 1) * 2 ^ (970 : ℤ) := by
  rw [sub_one_mul, two_pow_mul_zpow]
  rfl

theorem Rounds.of_ge {r : ℚ} (h : 2 ^ 1024 - 2 ^ 970 ≤ r) : Rounds r none :=
  ⟨iff_of_true rfl h, fun _ hx => nomatch hx⟩

theorem Rounds.of_isNearest {r : ℚ} {x : Binary64} (h : r < 2 ^ 1024 - 2 ^ 970)
    (hx : x.IsNearest r) : Rounds r (some x) :=
  ⟨iff_of_false (by simp) (not_le.mpr h), fun _ hy => Option.some.inj hy ▸ hx⟩

theorem ofParts?_of_gt {s : ℕ} {e : ℤ} (h : 971 < e) : ofParts? s e = none :=
  dif_neg fun hform => absurd hform.2.2.1 (not_le.mpr h)

theorem exists_ofParts? {s : ℕ} {e : ℤ} (hlt : s < 2 ^ 53) (hge : -1074 ≤ e) (hle : e ≤ 971)
    (hfull : 2 ^ 52 ≤ s ∨ e = -1074) :
    ∃ x, ofParts? s e = some x ∧ x.significand = s ∧ x.exponent = e :=
  ⟨_, dif_pos ⟨hlt, hge, hle, hfull⟩, rfl, rfl⟩

section

variable {r : ℚ} {e : ℤ} {s : ℕ}

theorem IsUnit.le_of_nearestEven (hunit : IsUnit e r) (hs : NearestEven s (r / 2 ^ e)) :
    s ≤ 2 ^ 53 :=
  hs.le_of_lt (by exact_mod_cast hunit.lt)

theorem IsUnit.full_of_nearestEven (hunit : IsUnit e r) (hs : NearestEven s (r / 2 ^ e)) :
    2 ^ 52 ≤ s ∨ e = -1074 :=
  hunit.full_or_least.imp_left fun hfull => hs.le_of_le (by exact_mod_cast hfull)

/-- A fraction is past the greatest number by its unit, or by the number of units it rounds to. -/
theorem IsUnit.lt_limit_iff (hunit : IsUnit e r) (hs : NearestEven s (r / 2 ^ e)) :
    r < 2 ^ 1024 - 2 ^ 970 ↔ e < 971 ∨ e = 971 ∧ s ≠ 2 ^ 53 := by
  have hpos : (0 : ℚ) < 2 ^ e := by positivity
  rw [limit_eq]
  rcases lt_trichotomy e 971 with he | rfl | he
  · have hscale : (2 : ℚ) ^ e ≤ 2 ^ (970 : ℤ) := zpow_le_zpow_right₀ one_le_two (by omega)
    have hlt : r < (2 ^ 54 - 1) * 2 ^ (970 : ℤ) :=
      calc r < 2 ^ 53 * 2 ^ e := (div_lt_iff₀ hpos).mp hunit.lt
        _ ≤ (2 ^ 54 - 1) * 2 ^ (970 : ℤ) := mul_le_mul (by norm_num) hscale hpos.le (by norm_num)
    exact iff_of_true hlt (.inl he)
  · have htop := hs.eq_iff_of_even (k := 2 ^ 53) (by decide) (by decide)
      (by rw [Nat.cast_pow]; exact hunit.lt)
    have hhalf : (((2 ^ 53 : ℕ) : ℚ) - 1 / 2) * 2 ^ (971 : ℤ) = (2 ^ 54 - 1) * 2 ^ (970 : ℤ) := by
      rw [show (971 : ℤ) = 970 + 1 from rfl, zpow_add_one₀ two_ne_zero, Nat.cast_pow]
      generalize (2 : ℚ) ^ (970 : ℤ) = unit
      norm_num
      ring
    rw [le_div_iff₀ hpos, hhalf] at htop
    rw [← not_le, ← htop]
    simp
  · have hfull : 2 ^ 52 ≤ r / 2 ^ e := hunit.full_or_least.resolve_right (by omega)
    have hscale : (2 : ℚ) ^ (970 : ℤ) * 2 ^ 2 ≤ 2 ^ e := by
      rw [mul_comm, two_pow_mul_zpow]
      exact zpow_le_zpow_right₀ one_le_two (by push_cast; omega)
    have hge : (2 ^ 54 - 1) * 2 ^ (970 : ℤ) ≤ r :=
      calc (2 ^ 54 - 1) * 2 ^ (970 : ℤ) ≤ (2 : ℚ) ^ 52 * (2 ^ (970 : ℤ) * 2 ^ 2) := by
            have hunitPos : (0 : ℚ) < 2 ^ (970 : ℤ) := by positivity
            generalize (2 : ℚ) ^ (970 : ℤ) = unit at hunitPos
            linarith
        _ ≤ 2 ^ 52 * 2 ^ e := by gcongr
        _ ≤ r := (le_div_iff₀ hpos).mp hfull
    exact iff_of_false (not_lt.mpr hge) (by omega)

/-- Rounding to whole units leaves a number of the format, unless it fills the unit past the last
bit. Then half as many units of twice the size are the number. -/
theorem rounds_of_unit (hunit : IsUnit e r) (hs : NearestEven s (r / 2 ^ e)) :
    Rounds r (if s = 2 ^ 53 then ofParts? (2 ^ 52) (e + 1) else ofParts? s e) := by
  have hlimit := hunit.lt_limit_iff hs
  have hle := hunit.le_of_nearestEven hs
  have hleast := hunit.least_le
  by_cases hlt : r < 2 ^ 1024 - 2 ^ 970
  · have he := hlimit.mp hlt
    split_ifs with htop
    · obtain ⟨x, hx, hsignificand, hexponent⟩ := exists_ofParts? (s := 2 ^ 52) (e := e + 1)
        (by decide) (by omega) (by omega) (.inl (Nat.le_refl _))
      rw [hx]
      refine .of_isNearest hlt (isNearest_of_unit hunit hs ?_ fun _ => ?_)
      · rw [toRat, hsignificand, hexponent, htop, zpow_add_one₀ two_ne_zero]
        push_cast
        ring
      · rw [hsignificand]
        decide
    · obtain ⟨x, hx, hsignificand, hexponent⟩ := exists_ofParts? (s := s) (e := e)
        (lt_of_le_of_ne hle htop) hleast (by omega) (hunit.full_of_nearestEven hs)
      rw [hx]
      refine .of_isNearest hlt (isNearest_of_unit hunit hs ?_ fun heven => ?_)
      · rw [toRat, hsignificand, hexponent]
      · rwa [hsignificand]
  · have he := mt hlimit.mpr hlt
    have hnone : (if s = 2 ^ 53 then ofParts? (2 ^ 52) (e + 1) else ofParts? s e) = none := by
      split_ifs with htop <;> exact ofParts?_of_gt (by omega)
    rw [hnone]
    exact .of_ge (not_lt.mp hlt)

end

theorem zero_isNearest : IsNearest zero 0 := by
  refine ⟨representable_toRat zero, fun q _ => ?_, fun _ _ _ _ => Even.zero⟩
  rw [toRat_zero, sub_zero, abs_zero]
  exact abs_nonneg _

theorem rounds_ofRatio? (num : ℕ) {den : ℕ} (hden : 0 < den) :
    Rounds (num / den) (ofRatio? num den) := by
  rcases Nat.eq_zero_or_pos num with rfl | hnum
  · have hlimit : (0 : ℚ) < 2 ^ 1024 - 2 ^ 970 := by
      rw [limit_eq]
      exact mul_pos (by norm_num) (by positivity)
    rw [ofRatio?, if_pos rfl, Nat.cast_zero, zero_div]
    exact .of_isNearest hlimit zero_isNearest
  · have hs := nearestEven_roundHalfEven (inUnits (unitExponent num den) num den).1
      (inUnits_den_pos (unitExponent num den) num hden)
    rw [ratio_inUnits _ num hden] at hs
    rw [ofRatio?, if_neg hnum.ne']
    exact rounds_of_unit (isUnit_unitExponent hnum hden) hs

/-! ## Numbers near zero -/

theorem representable_two_zpow {e : ℤ} (hlow : -1074 ≤ e) (hhigh : e ≤ 971) :
    Representable (2 ^ e) :=
  ⟨1, e, by norm_num, hlow, hhigh, by simp⟩

/-- Twice the least number that fills its bits is at most any number with a larger exponent. -/
theorem two_zpow_le_toRat {x : Binary64} (h : x.exponent ≠ -1074) : 2 ^ (-1021 : ℤ) ≤ x.toRat := by
  have hfull : (2 : ℚ) ^ 52 ≤ x.significand := by exact_mod_cast x.full_or_least.resolve_right h
  have hge := x.exponent_ge
  calc (2 : ℚ) ^ (-1021 : ℤ) = 2 ^ 52 * 2 ^ (-1073 : ℤ) := by rw [two_pow_mul_zpow]; rfl
    _ ≤ 2 ^ 52 * 2 ^ x.exponent := by
        gcongr
        · exact one_le_two
        · omega
    _ ≤ x.toRat := by
        rw [toRat]
        gcongr

/-- A number is zero, or the least one after zero, which is odd, or twice as large at least. -/
theorem zero_or_least_or_ge (x : Binary64) : x = zero ∨
    (x.toRat = 2 ^ (-1074 : ℤ) ∧ ¬ Even x.significand) ∨ 2 ^ (-1073 : ℤ) ≤ x.toRat := by
  by_cases he : x.exponent = -1074
  · have hrat : x.toRat = x.significand * 2 ^ (-1074 : ℤ) := by rw [toRat, he]
    rcases hs : x.significand with _ | _ | n
    · left
      cases x
      simp only at he hs
      subst he hs
      rfl
    · right; left
      exact ⟨by rw [hrat, hs]; simp, by decide⟩
    · right; right
      rw [hrat, hs, show (-1073 : ℤ) = -1074 + (1 : ℕ) from rfl, ← two_pow_mul_zpow]
      gcongr
      have hn : (0 : ℚ) ≤ n := Nat.cast_nonneg n
      push_cast
      linarith
  · right; right
    exact (zpow_le_zpow_right₀ one_le_two (by omega)).trans (two_zpow_le_toRat he)

namespace IsNearest

variable {x : Binary64} {r : ℚ}

/-- A fraction below the numbers that fill their bits is rounded in units of the least exponent. -/
theorem exponent_of_lt (h : x.IsNearest r) (hr : r < 2 ^ (-1022 : ℤ)) : x.exponent = -1074 := by
  by_contra hne
  have hle := two_zpow_le_toRat hne
  have hdouble : (2 : ℚ) ^ (-1021 : ℤ) = 2 ^ (-1022 : ℤ) * 2 := zpow_add_one₀ two_ne_zero (-1022)
  have hpos : (0 : ℚ) < 2 ^ (-1022 : ℤ) := by positivity
  have hnear := h.nearest _ (representable_two_zpow (e := -1022) (by omega) (by omega))
  rw [abs_of_nonneg (by linarith), abs_of_nonneg (by linarith)] at hnear
  linarith

/-- A fraction is rounded to zero up to half the least number, and from there on it is not. -/
theorem eq_zero_iff (h : x.IsNearest r) (hr : 0 ≤ r) : x = zero ↔ r ≤ 2 ^ (-1075 : ℤ) := by
  have hdouble : (2 : ℚ) ^ (-1074 : ℤ) = 2 ^ (-1075 : ℤ) * 2 := zpow_add_one₀ two_ne_zero (-1075)
  have hdouble' : (2 : ℚ) ^ (-1073 : ℤ) = 2 ^ (-1074 : ℤ) * 2 := zpow_add_one₀ two_ne_zero (-1074)
  have hpos : (0 : ℚ) < 2 ^ (-1075 : ℤ) := by positivity
  have hzero : Representable 0 := toRat_zero ▸ representable_toRat zero
  have hdist : |0 - r| = r := by rw [zero_sub, abs_neg, abs_of_nonneg hr]
  constructor
  · rintro rfl
    have hnear := h.nearest _ (representable_two_zpow (e := -1074) le_rfl (by omega))
    rw [toRat_zero, hdist, le_abs] at hnear
    rcases hnear with hnear | hnear <;> linarith
  · intro hle
    have hnear := h.nearest 0 hzero
    rw [hdist] at hnear
    rcases zero_or_least_or_ge x with hx | ⟨hx, hodd⟩ | hx
    · exact hx
    · -- the least number is as far away as zero at best, and then zero is the even one
      have hleast : |x.toRat - r| = 2 ^ (-1075 : ℤ) * 2 - r := by
        rw [hx, hdouble, abs_of_nonneg (by linarith)]
      rw [hleast] at hnear
      have htie : |0 - r| = |x.toRat - r| := by
        rw [hdist, hleast]
        linarith
      have hne : (0 : ℚ) ≠ x.toRat := by
        rw [hx]
        exact (by positivity : (0 : ℚ) < 2 ^ (-1074 : ℤ)).ne
      exact absurd (h.even_on_tie 0 hzero hne htie) hodd
    · have := le_abs_self (x.toRat - r)
      linarith

end IsNearest

end Lexis.Binary64
