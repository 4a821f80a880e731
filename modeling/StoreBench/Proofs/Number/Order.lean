import StoreBench.Number.Double

/-!
# `StoreBench.Proofs.Number.Order`: comparing rounded whole numbers

A filter compares whole numbers after rounding each to the nearest binary64.
The rounding keeps what the comparison with zero needs: a whole number above
zero is rounded to a place above that of zero, and one below to a place below
(`place_ofInt_pos`), and neither to a NaN (`isNaN_nearest`). So the comparison of
a whole number with zero is exact (`compare?_ofInt_zero`).
-/

set_option autoImplicit false

namespace StoreBench.Double

/-- A magnitude is at most the one of infinity. -/
theorem nearestMagnitude_le (num den : Nat) : nearestMagnitude num den ≤ 2047 * 2 ^ 52 := by
  unfold nearestMagnitude
  split
  · exact Nat.zero_le _
  · exact Nat.min_le_right _ _

section Fields

variable (negative : Bool) (num den : Nat)

/-- The bits of a rounded number, sign first. -/
theorem bits_nearest : (nearest negative num den).bits.toNat
    = (if negative then 2 ^ 63 else 0) + nearestMagnitude num den := by
  have hle := nearestMagnitude_le num den
  rw [nearest, UInt64.toNat_ofNat']
  refine Nat.mod_eq_of_lt ?_
  split <;> omega

/-- Rounding keeps the sign, also where the magnitude is rounded to zero. -/
theorem isNegative_nearest : (nearest negative num den).isNegative = negative := by
  have hle := nearestMagnitude_le num den
  rw [isNegative, bits_nearest]
  cases negative with
  | true =>
      have : (2 ^ 63 + nearestMagnitude num den) / 2 ^ 63 = 1 := by omega
      simp only [if_true, this, beq_self_eq_true]
  | false =>
      have : (0 + nearestMagnitude num den) / 2 ^ 63 = 0 := by omega
      simp only [Bool.false_eq_true, if_false, this]
      rfl

/-- Rounding gives a number, be it an infinite one. -/
theorem isNaN_nearest : (nearest negative num den).isNaN = false := by
  have hle := nearestMagnitude_le num den
  have hbits := bits_nearest negative num den
  generalize nearest negative num den = x at hbits
  -- The largest exponent occurs with infinity only, which has no fraction.
  have hfields : x.exponentField = 2047 → x.fractionField = 0 := by
    intro hexponent
    rw [exponentField, hbits] at hexponent
    rw [fractionField, hbits]
    cases negative <;> simp only [Bool.false_eq_true, if_false, if_true] at hexponent ⊢ <;> omega
  cases hexponent : x.exponentField == 2047 with
  | false => rw [isNaN, hexponent, Bool.false_and]
  | true =>
      rw [isNaN, hexponent, hfields (beq_iff_eq.mp hexponent)]
      rfl

/-- The place of a rounded number is that of its magnitude, on the side of its sign. -/
theorem place_nearest : (nearest negative num den).place
    = if negative then -(nearestMagnitude num den : Int) else nearestMagnitude num den := by
  have hle := nearestMagnitude_le num den
  have hmod : (nearest negative num den).bits.toNat % 2 ^ 63 = nearestMagnitude num den := by
    rw [bits_nearest]
    split <;> omega
  simp only [place, hmod, isNegative_nearest]

end Fields

/-- Rounding does not go below the quotient. -/
theorem le_roundHalfEven (num den : Nat) : num / den ≤ roundHalfEven num den := by
  unfold roundHalfEven
  simp only
  split
  · exact Nat.le_refl _
  · split <;> omega

/-- A whole number, scaled by its own length, fills the bits. -/
theorem le_scaleFraction {n : Nat} (h : 0 < n) {e : Int} (he : e = (n.log2 : Int) - 52) :
    2 ^ 52 ≤ (scaleFraction n 1 e).1 / (scaleFraction n 1 e).2 := by
  have hlog : 2 ^ n.log2 ≤ n := Nat.log2_self_le (by omega)
  -- A long number is divided by a power of two, a short one is multiplied.
  cases e with
  | ofNat e =>
      have hsum : 52 + e = n.log2 := by
        have := Int.ofNat_eq_natCast e
        omega
      rw [scaleFraction, Nat.one_mul, Nat.le_div_iff_mul_le (Nat.two_pow_pos _), ← Nat.pow_add,
        hsum]
      exact hlog
  | negSucc e =>
      have hsum : n.log2 + (e + 1) = 52 := by omega
      rw [scaleFraction, Nat.div_one, ← hsum, Nat.pow_add]
      exact Nat.mul_le_mul_right _ hlog

/-- The scale of a whole number goes by its length. -/
theorem scaleExponent_one {n : Nat} (h : 0 < n) : scaleExponent n 1 = (n.log2 : Int) - 52 := by
  have hlog1 : Nat.log2 1 = 0 := by decide
  have hscale := le_scaleFraction h rfl
  simp only [scaleExponent, hlog1, Int.natCast_zero, Int.sub_zero, if_neg (Nat.not_lt.mpr hscale)]
  omega

/-- A whole number above zero has a magnitude above zero, as it is not scaled
down to nothing. -/
theorem nearestMagnitude_pos {n : Nat} (h : 0 < n) : 0 < nearestMagnitude n 1 := by
  have hscale := le_scaleFraction h rfl
  rw [nearestMagnitude, if_neg (by omega), scaleExponent_one h]
  have hround := le_roundHalfEven (scaleFraction n 1 (n.log2 - 52)).1
    (scaleFraction n 1 (n.log2 - 52)).2
  simp only [packMagnitude]
  split <;> omega

/-- A whole number is rounded to a place above that of zero just when it is
above zero. -/
theorem place_ofInt_pos (k : Int) : 0 < (ofInt k).place ↔ 0 < k := by
  rw [ofInt, place_nearest]
  by_cases hneg : k < 0
  · simp only [hneg, decide_true, if_true]
    omega
  · simp only [hneg, decide_false, Bool.false_eq_true, if_false]
    by_cases hzero : k = 0
    · subst hzero
      decide
    · have hpos := nearestMagnitude_pos (n := k.natAbs) (by omega)
      omega

/-- A whole number is found greater than zero just when it is. -/
theorem compare?_ofInt_zero (k : Int) :
    (ofInt k).compare? (ofInt 0) = some .gt ↔ 0 < k := by
  have hplace : (ofInt 0).place = 0 := by decide
  have hnan (i : Int) : (ofInt i).isNaN = false := isNaN_nearest _ _ _
  rw [← place_ofInt_pos]
  simp only [compare?, lt, same, hnan, hplace, Bool.not_false, Bool.true_and, decide_eq_true_iff]
  -- There are three outcomes besides a NaN, and each is decided by the place.
  rcases Int.lt_trichotomy (ofInt k).place 0 with hlt | heq | hgt
  · rw [if_pos hlt]
    simp only [Option.some.injEq, reduceCtorEq, false_iff]
    omega
  · rw [heq]
    decide
  · rw [if_neg (by omega), if_pos hgt]
    simp only [hgt]

/-- The zeros have the place of zero, and no other number has. -/
theorem place_eq_zero_iff (x : Double) : x.place = 0 ↔ x.isZero = true := by
  simp only [place, isZero, exponentField, fractionField, Bool.and_eq_true, beq_iff_eq]
  split <;> omega

/-- A number is greater than zero just when its place is, and it is a number. -/
theorem zero_lt_iff (x : Double) : zero.lt x = true ↔ x.isNaN = false ∧ 0 < x.place := by
  have hzero : zero.place = 0 := by decide
  have hnumber : zero.isNaN = false := by decide
  simp only [lt, hzero, hnumber, Bool.not_false, Bool.true_and, Bool.and_eq_true,
    Bool.not_eq_true', decide_eq_true_iff]

end StoreBench.Double
