import Mathlib.Algebra.Order.Field.Power
import Mathlib.Data.Rat.Cast.Order
import Mathlib.Tactic.FieldSimp
import Mathlib.Tactic.Linarith
import Mathlib.Tactic.NormNum
import Mathlib.Tactic.Positivity
import Mathlib.Tactic.Ring
import StoreBench.Proofs.Number.Order

/-!
# `StoreBench.Proofs.Number.Rounding`: how far rounding goes

A fraction of ordinary size is rounded to a finite number, and that number is off by
a `2 ^ 53`th of the fraction at most (`nearest_close`). The fraction is scaled so that
its whole part fills fifty-three bits (`scaleExponent_spec`), rounded to a whole
number, which is off by a half at most (`roundHalfEven_close`), and the bits that are
packed are read as that number again (`magnitude_of_bits`).
-/

set_option autoImplicit false

namespace StoreBench.Double

/-- The magnitude of a finite number, exactly, as a fraction. Bounds on rounding are
about this. -/
def magnitude (x : Double) : ℚ := x.fraction.1 / x.fraction.2

/-- The magnitude is the significand, scaled by its exponent. -/
theorem magnitude_eq (x : Double) : x.magnitude = x.significand * 2 ^ x.exponent := by
  rw [magnitude, fraction]
  cases x.exponent with
  | ofNat e => simp
  | negSucc e => simp [zpow_negSucc, div_eq_mul_inv]

/-- The fraction of a number has a denominator that is not zero. -/
theorem fraction_pos (x : Double) : 0 < x.fraction.2 := by
  rw [fraction]
  cases x.exponent with
  | ofNat e => exact Nat.one_pos
  | negSucc e => exact Nat.two_pow_pos _

/-- Both zeros have the magnitude zero. -/
theorem fraction_of_isZero {x : Double} (h : x.isZero = true) : x.fraction.1 = 0 := by
  rw [isZero, Bool.and_eq_true, beq_iff_eq, beq_iff_eq] at h
  rw [fraction, significand, if_pos h.1, h.2]
  cases x.exponent with
  | ofNat e => exact Nat.zero_mul _
  | negSucc e => rfl

/-! ### Scaling -/

section Scaling

variable {num den : Nat}

/-- Scaling a fraction by a power of two keeps its denominator above zero, whichever
part the power goes to. -/
theorem scaleFraction_pos (num : Nat) (hden : 0 < den) (e : Int) :
    0 < (scaleFraction num den e).2 := by
  cases e with
  | ofNat e => exact Nat.mul_pos hden (Nat.two_pow_pos _)
  | negSucc e => exact hden

/-- Scaling a fraction divides its value by the power of two, exactly. A positive power
goes into the denominator, a negative one into the numerator. -/
theorem scaleFraction_eq (num den : Nat) (e : Int) :
    ((scaleFraction num den e).1 : ℚ) / (scaleFraction num den e).2 = num / den / 2 ^ e := by
  cases e with
  | ofNat e => simp [scaleFraction, div_div]
  | negSucc e => simp [scaleFraction, zpow_negSucc, div_eq_mul_inv, mul_right_comm]

/-- Powers of two are positive, also those below one. -/
theorem two_zpow_pos (e : Int) : (0 : ℚ) < 2 ^ e := zpow_pos (by norm_num) e

/-- Powers of two are multiplied by adding their exponents, with a natural one on the
left. -/
theorem two_pow_mul_zpow (k : Nat) (e : Int) : (2 : ℚ) ^ k * 2 ^ e = 2 ^ ((k : Int) + e) := by
  rw [zpow_add₀ (by norm_num), zpow_natCast]

/-- A positive whole number lies between powers of two by its logarithm, which is how
its digits are counted. -/
theorem log2_bounds (hnum : 0 < num) :
    (2 : ℚ) ^ (num.log2 : Int) ≤ num ∧ (num : ℚ) < 2 ^ ((num.log2 : Int) + 1) := by
  have hlow : 2 ^ num.log2 ≤ num := Nat.log2_self_le (Nat.ne_of_gt hnum)
  have hhigh : num < 2 ^ (num.log2 + 1) := Nat.lt_log2_self
  refine ⟨?_, ?_⟩
  · exact_mod_cast hlow
  · exact_mod_cast hhigh

/-- A fraction lies between powers of two by the logarithms of its parts. They leave two
exponents open, of which `scaleExponent` finds the right one. -/
theorem fraction_bounds (hnum : 0 < num) (hden : 0 < den) :
    (2 : ℚ) ^ ((num.log2 : Int) - den.log2 - 1) < num / den ∧
    (num : ℚ) / den < 2 ^ ((num.log2 : Int) - den.log2 + 1) := by
  obtain ⟨hlow, hhigh⟩ := log2_bounds hnum
  obtain ⟨hlow', hhigh'⟩ := log2_bounds hden
  have hpos : (0 : ℚ) < den := by exact_mod_cast hden
  rw [lt_div_iff₀ hpos, div_lt_iff₀ hpos]
  constructor
  · calc (2 : ℚ) ^ ((num.log2 : Int) - den.log2 - 1) * den
        < 2 ^ ((num.log2 : Int) - den.log2 - 1) * 2 ^ ((den.log2 : Int) + 1) :=
          mul_lt_mul_of_pos_left hhigh' (two_zpow_pos _)
      _ = 2 ^ (num.log2 : Int) := by
          rw [← zpow_add₀ (by norm_num)]
          congr 1
          omega
      _ ≤ num := hlow
  · calc (num : ℚ) < 2 ^ ((num.log2 : Int) + 1) := hhigh
      _ = 2 ^ ((num.log2 : Int) - den.log2 + 1) * 2 ^ (den.log2 : Int) := by
          rw [← zpow_add₀ (by norm_num)]
          congr 1
          omega
      _ ≤ 2 ^ ((num.log2 : Int) - den.log2 + 1) * den :=
          mul_le_mul_of_nonneg_left hlow' (le_of_lt (two_zpow_pos _))

/-- A fraction is scaled to fifty-three bits, unless the exponent for that is too
small. -/
theorem exists_scale (hnum : 0 < num) (hden : 0 < den) :
    ∃ e : Int, scaleExponent num den = max e (-1074) ∧
      (2 : ℚ) ^ 52 * 2 ^ e ≤ num / den ∧ (num : ℚ) / den < 2 ^ 53 * 2 ^ e := by
  obtain ⟨hlow, hhigh⟩ := fraction_bounds hnum hden
  rw [scaleExponent]
  generalize he : (num.log2 : Int) - den.log2 - 52 = e
  have hscale := scaleFraction_eq num den e
  have hpos := scaleFraction_pos num hden e
  generalize scaleFraction num den e = scaled at hscale hpos
  -- Whether the scaled quotient fills fifty-three bits is told by the value alone.
  have hfill : scaled.1 / scaled.2 < 2 ^ 52 ↔ (num : ℚ) / den < 2 ^ 52 * 2 ^ e := by
    have hpos' : (0 : ℚ) < scaled.2 := by exact_mod_cast hpos
    rw [Nat.div_lt_iff_lt_mul hpos, ← div_lt_iff₀ (two_zpow_pos e), ← hscale, div_lt_iff₀ hpos']
    norm_cast
  refine ⟨_, rfl, ?_⟩
  simp only [hfill]
  split
  · rename_i hshort
    constructor
    · rw [two_pow_mul_zpow]
      refine le_of_lt (lt_of_eq_of_lt ?_ hlow)
      congr 1
      omega
    · refine lt_of_lt_of_eq hshort ?_
      rw [two_pow_mul_zpow, two_pow_mul_zpow]
      congr 1
      omega
  · rename_i hlong
    refine ⟨not_lt.mp hlong, ?_⟩
    rw [two_pow_mul_zpow]
    refine lt_of_lt_of_eq hhigh ?_
    congr 1
    omega

/-- A fraction of a half at least is scaled so that its significand has just the digits
that there is room for, and never runs into the smallest exponent. -/
theorem scaleExponent_spec (hden : 0 < den) (hhalf : den ≤ 2 * num) :
    -1074 < scaleExponent num den ∧
    (2 : ℚ) ^ 52 * 2 ^ scaleExponent num den ≤ num / den ∧
    (num : ℚ) / den < 2 ^ 53 * 2 ^ scaleExponent num den := by
  obtain ⟨e, hexponent, hlow, hhigh⟩ := exists_scale (by omega : 0 < num) hden
  have hlarge : -54 < e := by
    have hfrom : (2 : ℚ) ^ (-1 : Int) ≤ num / den := by
      have hpos : (0 : ℚ) < den := by exact_mod_cast hden
      have hhalf' : (den : ℚ) ≤ 2 * num := by exact_mod_cast hhalf
      rw [zpow_neg_one, inv_eq_one_div, div_le_div_iff₀ (by norm_num) hpos]
      linarith
    rw [two_pow_mul_zpow] at hhigh
    have hpower := (zpow_lt_zpow_iff_right₀ (by norm_num : (1 : ℚ) < 2)).mp
      (lt_of_le_of_lt hfrom hhigh)
    omega
  rw [hexponent, max_eq_left (by omega)]
  exact ⟨by omega, hlow, hhigh⟩

end Scaling

/-! ### Rounding and packing -/

/-- A rounded quotient is off by a half at most. The rule for halves decides which way,
and does not matter here. -/
theorem roundHalfEven_close (num : Nat) {den : Nat} (hden : 0 < den) :
    |(roundHalfEven num den : ℚ) - num / den| ≤ 1 / 2 := by
  have hpos : (0 : ℚ) < den := by exact_mod_cast hden
  -- Twice the error is no more than the divisor, in whole numbers.
  have hwhole : 2 * num ≤ 2 * roundHalfEven num den * den + den ∧
      2 * roundHalfEven num den * den ≤ 2 * num + den := by
    have hsplit := Nat.div_add_mod' num den
    have hrest := Nat.mod_lt num hden
    unfold roundHalfEven
    generalize num / den = q at hsplit
    generalize num % den = r at hsplit hrest
    subst hsplit
    simp only
    have hnext : 2 * (q + 1) * den = 2 * (q * den) + 2 * den := by ring
    have hsame : 2 * q * den = 2 * (q * den) := by ring
    split
    · omega
    split
    · omega
    · rcases Nat.mod_two_eq_zero_or_one q with heven | hodd
      · rw [heven, Nat.add_zero]
        omega
      · rw [hodd]
        omega
  obtain ⟨hlow, hhigh⟩ := hwhole
  have hlow' : (2 : ℚ) * num ≤ 2 * roundHalfEven num den * den + den := by exact_mod_cast hlow
  have hhigh' : (2 : ℚ) * roundHalfEven num den * den ≤ 2 * num + den := by exact_mod_cast hhigh
  rw [abs_le, neg_le_sub_iff_le_add, sub_le_iff_le_add, div_le_iff₀ hpos, ← sub_le_iff_le_add',
    le_div_iff₀ hpos]
  constructor
  · linarith
  · linarith

/-- Bits with a whole number of fifty-three bits in them are read as that number. -/
theorem magnitude_of_bits {x : Double} {q : Nat} {e : Int} (sign : Nat) (hlow : 2 ^ 52 ≤ q)
    (hhigh : q ≤ 2 ^ 53) (he : -1074 < e) (he' : e ≤ 900)
    (hbits : x.bits.toNat = sign * 2 ^ 63 + ((e + 1074).toNat * 2 ^ 52 + q)) :
    x.isFinite = true ∧ x.magnitude = q * 2 ^ e := by
  obtain ⟨k, rfl⟩ : ∃ k : Nat, e = (k : Int) - 1074 := ⟨(e + 1074).toNat, by omega⟩
  have hk : ((k : Int) - 1074 + 1074).toNat = k := by omega
  rw [hk] at hbits
  by_cases hcarry : q = 2 ^ 53
  · -- The number is one too long, so the exponent is one more and the fraction nothing.
    subst hcarry
    have hexponent : x.exponentField = k + 2 := by
      rw [exponentField, hbits]
      omega
    have hfraction : x.fractionField = 0 := by
      rw [fractionField, hbits]
      omega
    have hnormal : ¬ k + 2 = 0 := by omega
    refine ⟨decide_eq_true (by omega), ?_⟩
    rw [magnitude_eq, significand, exponent, hexponent, hfraction, if_neg hnormal, if_neg hnormal,
      Nat.add_zero, Nat.cast_pow, Nat.cast_pow, Nat.cast_ofNat, two_pow_mul_zpow, two_pow_mul_zpow]
    congr 1
    push_cast
    omega
  · -- The leading bit is the one that the exponent stands for.
    have hexponent : x.exponentField = k + 1 := by
      rw [exponentField, hbits]
      omega
    have hfraction : x.fractionField = q - 2 ^ 52 := by
      rw [fractionField, hbits]
      omega
    have hnormal : ¬ k + 1 = 0 := by omega
    refine ⟨decide_eq_true (by omega), ?_⟩
    rw [magnitude_eq, significand, exponent, hexponent, hfraction, if_neg hnormal, if_neg hnormal,
      Nat.add_sub_cancel' hlow]
    congr 2
    push_cast
    omega

section Nearest

variable (negative : Bool) {num den : Nat}

/-- A fraction from a half to `2 ^ 200` is rounded to a finite number, which is off by a
`2 ^ 53`th of it at most. -/
theorem nearest_close (hden : 0 < den) (hhalf : den ≤ 2 * num) (hsize : num ≤ 2 ^ 200 * den) :
    (nearest negative num den).isFinite = true ∧
    |(nearest negative num den).magnitude - num / den| ≤ (num : ℚ) / den / 2 ^ 53 := by
  obtain ⟨hexponent, hlow, hhigh⟩ := scaleExponent_spec hden hhalf
  have hpack : nearestMagnitude num den = packMagnitude
      (roundHalfEven (scaleFraction num den (scaleExponent num den)).1
        (scaleFraction num den (scaleExponent num den)).2) (scaleExponent num den) := by
    rw [nearestMagnitude, if_neg (by omega)]
  have hbits := bits_nearest negative num den
  rw [hpack] at hbits
  have hlarge : scaleExponent num den ≤ 900 := by
    have hbound : (num : ℚ) / den ≤ 2 ^ (200 : Int) := by
      rw [div_le_iff₀ (by exact_mod_cast hden)]
      exact_mod_cast hsize
    rw [two_pow_mul_zpow] at hlow
    have := (zpow_le_zpow_iff_right₀ (by norm_num)).mp (hlow.trans hbound)
    omega
  have hround := roundHalfEven_close (scaleFraction num den (scaleExponent num den)).1
    (scaleFraction_pos num hden (scaleExponent num den))
  rw [scaleFraction_eq] at hround
  generalize scaleExponent num den = e at *
  generalize roundHalfEven (scaleFraction num den e).1 (scaleFraction num den e).2 = q at *
  have hpos := two_zpow_pos e
  rw [← le_div_iff₀ hpos] at hlow
  rw [← div_lt_iff₀ hpos] at hhigh
  obtain ⟨hbelow, habove⟩ := abs_le.mp hround
  have hqlow : 2 ^ 52 ≤ q := by
    have hlt : (2 : ℚ) ^ 52 < q + 1 := by linarith
    exact Nat.lt_succ_iff.mp (by exact_mod_cast hlt)
  have hqhigh : q ≤ 2 ^ 53 := by
    have hlt : (q : ℚ) < 2 ^ 53 + 1 := by linarith
    exact Nat.lt_succ_iff.mp (by exact_mod_cast hlt)
  -- The exponent is not so large that the bits are those of infinity.
  have hraw : packMagnitude q e = (e + 1074).toNat * 2 ^ 52 + q := by
    rw [packMagnitude, if_neg (Nat.not_lt.mpr hqlow)]
    refine Nat.min_eq_left ?_
    omega
  obtain ⟨hfinite, hmagnitude⟩ := magnitude_of_bits (x := nearest negative num den)
    (if negative then 1 else 0) hqlow hqhigh hexponent hlarge (by
      rw [hbits, hraw]
      cases negative <;> rfl)
  refine ⟨hfinite, ?_⟩
  have hunit : (num : ℚ) / den = num / den / (2 : ℚ) ^ e * 2 ^ e :=
    (div_mul_cancel₀ _ (ne_of_gt hpos)).symm
  calc |(nearest negative num den).magnitude - num / den|
      = |(q : ℚ) - num / den / 2 ^ e| * 2 ^ e := by
        rw [hmagnitude, hunit, mul_div_cancel_right₀ _ (ne_of_gt hpos), ← sub_mul, abs_mul,
          abs_of_pos hpos]
    _ ≤ 1 / 2 * 2 ^ e := mul_le_mul_of_nonneg_right hround (le_of_lt hpos)
    _ = 2 ^ 52 * 2 ^ e / 2 ^ 53 := by ring
    _ ≤ num / den / 2 ^ 53 := by
        rw [le_div_iff₀ hpos] at hlow
        exact div_le_div_of_nonneg_right hlow (by norm_num)

end Nearest

/-- A word is rounded to a finite number that is off by a small part of it at most: one
in the number of significands. -/
theorem ofNat_close {n : Nat} (hpos : 0 < n) (hword : n < 2 ^ 64) :
    (ofNat n).isFinite = true ∧ |(ofNat n).magnitude - n| ≤ (n : ℚ) / 2 ^ 53 := by
  have hclose := nearest_close false Nat.one_pos (show 1 ≤ 2 * n by omega) (by omega)
  rwa [Nat.cast_one, div_one] at hclose

/-- The product of two finite numbers, if it is neither small nor huge, is off by a
`2 ^ 53`th at most. -/
theorem mul_close {x y : Double} (hx : x.isFinite = true) (hy : y.isFinite = true)
    (hhalf : 1 / 2 ≤ x.magnitude * y.magnitude) (hsize : x.magnitude * y.magnitude ≤ 2 ^ 200) :
    |(x.mul y).magnitude - x.magnitude * y.magnitude|
      ≤ x.magnitude * y.magnitude / 2 ^ 53 := by
  have hproduct : x.magnitude * y.magnitude
      = ((x.fraction.1 * y.fraction.1 : Nat) : ℚ) / (x.fraction.2 * y.fraction.2 : Nat) := by
    rw [magnitude, magnitude, div_mul_div_comm, Nat.cast_mul, Nat.cast_mul]
  have hden : 0 < x.fraction.2 * y.fraction.2 := Nat.mul_pos x.fraction_pos y.fraction_pos
  have hden' : (0 : ℚ) < (x.fraction.2 * y.fraction.2 : Nat) := by exact_mod_cast hden
  rw [hproduct, div_le_div_iff₀ (by norm_num) hden', one_mul,
    mul_comm _ (2 : ℚ)] at hhalf
  rw [hproduct, div_le_iff₀ hden'] at hsize
  have hclose := nearest_close (x.isNegative != y.isNegative) hden (by exact_mod_cast hhalf)
    (by exact_mod_cast hsize)
  rw [hproduct, mul]
  simp only [hx, hy, Bool.and_self, if_true]
  exact hclose.2

/-- Zero times a finite number is zero. An infinite one would make it no number at all. -/
theorem mul_of_isZero {x y : Double} (hx : x.isZero = true) (hy : y.isFinite = true) :
    (x.mul y).isZero = true := by
  have hfinite : x.isFinite = true := by
    rw [isZero, Bool.and_eq_true, beq_iff_eq] at hx
    rw [isFinite, hx.1]
    rfl
  rw [mul, ← place_eq_zero_iff]
  simp only [hfinite, hy, Bool.and_self, if_true, place_nearest, fraction_of_isZero hx,
    Nat.zero_mul, nearestMagnitude]
  split <;> rfl

end StoreBench.Double
