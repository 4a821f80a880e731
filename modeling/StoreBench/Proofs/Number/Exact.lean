import StoreBench.Proofs.Number.Rounding

/-!
# `StoreBench.Proofs.Number.Exact`: what rounding leaves alone

Rounding depends on the value of a fraction and not on how it is written: a factor
common to both of its parts makes no difference (`nearest_mul`). The exponent is the
only one that scales the value to fifty-three bits (`scale_unique`), and a quotient
is rounded by its value too (`roundHalfEven_mul`).

A fraction that is the magnitude of a finite number is rounded to that number
(`nearest_fraction`).
-/

set_option autoImplicit false

namespace StoreBench.Double

variable {num den k : Nat} {e f : Int}

/-! ### Factors in common -/

/-- There is one way only to scale a value to fifty-three bits. -/
theorem scale_unique {v : ℚ} (hlow : (2 : ℚ) ^ 52 * 2 ^ e ≤ v) (hhigh : v < 2 ^ 53 * 2 ^ e)
    (hlow' : (2 : ℚ) ^ 52 * 2 ^ f ≤ v) (hhigh' : v < 2 ^ 53 * 2 ^ f) : e = f := by
  rw [two_pow_mul_zpow] at hlow hhigh hlow' hhigh'
  have hle := (zpow_lt_zpow_iff_right₀ (by norm_num : (1 : ℚ) < 2)).mp
    (lt_of_le_of_lt hlow hhigh')
  have hge := (zpow_lt_zpow_iff_right₀ (by norm_num : (1 : ℚ) < 2)).mp
    (lt_of_le_of_lt hlow' hhigh)
  omega

/-- The exponent of the scale goes by the quotient, in which the factor is gone. -/
theorem scaleExponent_mul (hnum : 0 < num) (hden : 0 < den) (hk : 0 < k) :
    scaleExponent (num * k) (den * k) = scaleExponent num den := by
  obtain ⟨e, he, hlow, hhigh⟩ := exists_scale hnum hden
  obtain ⟨f, hf, hlow', hhigh'⟩ := exists_scale (Nat.mul_pos hnum hk) (Nat.mul_pos hden hk)
  have hvalue : ((num * k : Nat) : ℚ) / (den * k : Nat) = num / den := by
    rw [Nat.cast_mul, Nat.cast_mul, mul_div_mul_right _ _ (by exact_mod_cast Nat.ne_of_gt hk)]
  rw [hvalue] at hlow' hhigh'
  rw [he, hf, scale_unique hlow hhigh hlow' hhigh']

/-- Scaled, both parts keep the factor, as scaling multiplies one of them by a power of
two. -/
theorem scaleFraction_mul (num den k : Nat) (e : Int) :
    scaleFraction (num * k) (den * k) e
      = ((scaleFraction num den e).1 * k, (scaleFraction num den e).2 * k) := by
  cases e with
  | ofNat e => simp only [scaleFraction, Nat.mul_right_comm]
  | negSucc e => simp only [scaleFraction, Nat.mul_right_comm]

/-- A quotient is rounded by comparing twice the remainder with the divisor, and the
factor is in both. -/
theorem roundHalfEven_mul (num den : Nat) (hk : 0 < k) :
    roundHalfEven (num * k) (den * k) = roundHalfEven num den := by
  have hless (a b : Nat) : a * k < b * k ↔ a < b := Nat.mul_lt_mul_right hk
  simp only [roundHalfEven, Nat.mul_div_mul_right _ _ hk, Nat.mul_mod_mul_right,
    ← Nat.mul_assoc, hless]

/-- A factor that both parts of a fraction have in common makes no difference. -/
theorem nearest_mul (negative : Bool) (num : Nat) (hden : 0 < den) (hk : 0 < k) :
    nearest negative (num * k) (den * k) = nearest negative num den := by
  have hmagnitude : nearestMagnitude (num * k) (den * k) = nearestMagnitude num den := by
    rcases Nat.eq_zero_or_pos num with rfl | hnum
    · rw [Nat.zero_mul]
      rfl
    · have hproduct : num * k ≠ 0 := Nat.ne_of_gt (Nat.mul_pos hnum hk)
      simp only [nearestMagnitude, if_neg hproduct, if_neg (Nat.ne_of_gt hnum),
        scaleExponent_mul hnum hden hk, scaleFraction_mul, roundHalfEven_mul _ _ hk]
  rw [nearest, hmagnitude, nearest]

/-! ### Numbers themselves -/

/-- A number is its sign, its exponent and its fraction. -/
theorem bits_eq (x : Double) : x.bits.toNat
    = (if x.isNegative then 2 ^ 63 else 0) + (x.exponentField * 2 ^ 52 + x.fractionField) := by
  have hlt := x.bits.toNat_lt
  simp only [isNegative, exponentField, fractionField, beq_iff_eq]
  split <;> omega

/-- The field of the fraction has fifty-two bits. -/
theorem fractionField_lt (x : Double) : x.fractionField < 2 ^ 52 := Nat.mod_lt _ (by decide)

/-- A number with a significand has a magnitude that is more than nothing. -/
theorem fraction_num_pos {x : Double} (hpos : 0 < x.significand) : 0 < x.fraction.1 := by
  rw [fraction]
  cases x.exponent with
  | ofNat e => exact Nat.mul_pos hpos (Nat.two_pow_pos _)
  | negSucc e => exact hpos

/-- The exponent that a finite number is scaled by is its own. -/
theorem scaleExponent_fraction {x : Double} (hpos : 0 < x.significand) :
    scaleExponent x.fraction.1 x.fraction.2 = x.exponent := by
  obtain ⟨e, he, hlow, hhigh⟩ := exists_scale (fraction_num_pos hpos) x.fraction_pos
  rw [← magnitude, magnitude_eq] at hlow hhigh
  rw [he]
  have hunit := two_zpow_pos x.exponent
  have hfraction := x.fractionField_lt
  by_cases hsmall : x.exponentField = 0
  · -- The significand is short, so the exponent would have to be smaller.
    have hexponent : x.exponent = -1074 := if_pos hsmall
    have hshort : (x.significand : ℚ) < 2 ^ 52 := by
      rw [significand, if_pos hsmall]
      exact_mod_cast hfraction
    have hless : (2 : ℚ) ^ 52 * 2 ^ e < 2 ^ 52 * 2 ^ x.exponent :=
      lt_of_le_of_lt hlow (mul_lt_mul_of_pos_right hshort hunit)
    have hpower := (zpow_lt_zpow_iff_right₀ (by norm_num : (1 : ℚ) < 2)).mp
      (lt_of_mul_lt_mul_left hless (by norm_num))
    rw [hexponent] at hpower ⊢
    exact max_eq_right (le_of_lt hpower)
  · have hfull : 2 ^ 52 ≤ x.significand ∧ x.significand < 2 ^ 53 := by
      rw [significand, if_neg hsmall]
      omega
    have hfrom : (2 : ℚ) ^ 52 ≤ x.significand := by exact_mod_cast hfull.1
    have hto : (x.significand : ℚ) < 2 ^ 53 := by exact_mod_cast hfull.2
    have hexponent : -1074 ≤ x.exponent := by
      rw [exponent, if_neg hsmall]
      omega
    rw [scale_unique hlow hhigh (mul_le_mul_of_nonneg_right hfrom (le_of_lt hunit))
      (mul_lt_mul_of_pos_right hto hunit)]
    exact max_eq_left hexponent

/-- A quotient that is whole is not rounded. -/
theorem roundHalfEven_exact (q : Nat) (hden : 0 < den) : roundHalfEven (q * den) den = q := by
  have hdiv : q * den / den = q := Nat.mul_div_cancel q hden
  have hmod : q * den % den = 0 := Nat.mul_mod_left q den
  simp only [roundHalfEven, hdiv, hmod, Nat.mul_zero, if_pos hden]

/-- Scaled by its exponent, the magnitude of a number is its significand. -/
theorem scaleFraction_fraction (x : Double) :
    (scaleFraction x.fraction.1 x.fraction.2 x.exponent).1
      = x.significand * (scaleFraction x.fraction.1 x.fraction.2 x.exponent).2 := by
  have hpos := scaleFraction_pos x.fraction.1 x.fraction_pos x.exponent
  have hratio := scaleFraction_eq x.fraction.1 x.fraction.2 x.exponent
  rw [← magnitude, magnitude_eq, mul_div_cancel_right₀ _ (ne_of_gt (two_zpow_pos _)),
    div_eq_iff (by exact_mod_cast Nat.ne_of_gt hpos)] at hratio
  exact_mod_cast hratio

/-- The significand and the exponent of a finite number are packed into its bits. -/
theorem packMagnitude_significand {x : Double} (hx : x.isFinite = true) :
    packMagnitude x.significand x.exponent = x.exponentField * 2 ^ 52 + x.fractionField := by
  have hexponent : x.exponentField < 2047 := of_decide_eq_true hx
  have hfraction := x.fractionField_lt
  by_cases hsmall : x.exponentField = 0
  · rw [packMagnitude, significand, if_pos hsmall, if_pos hfraction, hsmall]
    omega
  · have hraise : ((x.exponentField : Int) - 1075 + 1074).toNat = x.exponentField - 1 := by
      omega
    rw [packMagnitude, significand, exponent, if_neg hsmall, if_neg hsmall, if_neg (by omega),
      hraise]
    omega

/-- The magnitude of a finite number, with its sign, is rounded to the number. -/
theorem nearest_fraction {x : Double} (hx : x.isFinite = true) :
    nearest x.isNegative x.fraction.1 x.fraction.2 = x := by
  have hmagnitude : nearestMagnitude x.fraction.1 x.fraction.2
      = x.exponentField * 2 ^ 52 + x.fractionField := by
    rcases Nat.eq_zero_or_pos x.significand with hzero | hpos
    · have hfields : x.exponentField = 0 ∧ x.fractionField = 0 := by
        rw [significand] at hzero
        split at hzero <;> omega
      have hnum : x.fraction.1 = 0 := fraction_of_isZero (by simp [isZero, hfields])
      rw [hnum, hfields.1, hfields.2]
      rfl
    · rw [nearestMagnitude, if_neg (Nat.ne_of_gt (fraction_num_pos hpos))]
      simp only [scaleExponent_fraction hpos, scaleFraction_fraction,
        roundHalfEven_exact _ (scaleFraction_pos _ x.fraction_pos _),
        packMagnitude_significand hx]
  have hbits := bits_nearest x.isNegative x.fraction.1 x.fraction.2
  rw [hmagnitude, ← bits_eq] at hbits
  exact congrArg Double.mk (UInt64.toNat_inj.mp hbits)

end StoreBench.Double
