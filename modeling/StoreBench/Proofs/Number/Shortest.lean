import StoreBench.Number.Text
import StoreBench.Proofs.Number.Exact
import StoreBench.Proofs.Text.Digits

/-!
# `StoreBench.Proofs.Number.Shortest`: decimals that read back

A decimal is read by rounding its value, so a zero at the end of its digits may as well
stand in the exponent (`ofDecimal_pow`), and `Decimal.trim` makes no difference
(`ofDecimal_trim`).

The shortest decimal of a finite number reads as that number (`ofDecimal_shortest`).
Whatever the search finds was tried, and the exact expansion stands behind it
(`ofDecimal_expansion`). Hence its leading digit is not so far out that the value would
be cut off (`leading_bounds`).
-/

set_option autoImplicit false

namespace StoreBench.Double

variable {x : Double} {digits : Nat} {exponent : Int}

/-! ### Lengths -/

/-- A number is written with as many characters as it has digits. -/
theorem length_repr (n : Nat) : (Nat.repr n).length = (digitsOf n).length := by
  rw [Nat.repr, String.length_ofList, digitsOf]

/-- Every number has a digit, zero too. -/
theorem length_digitsOf_pos (n : Nat) : 0 < (digitsOf n).length :=
  List.length_pos_iff.mpr (Text.digitsOf_ne_nil n)

/-- A number has at most so many digits just when it is below that power of ten. -/
theorem length_digitsOf_le {n width : Nat} (hwidth : 0 < width) :
    (digitsOf n).length ≤ width ↔ n < 10 ^ width :=
  Nat.length_toDigits_le_iff (by decide) hwidth

/-- A number is less than the power of ten with one digit more. -/
theorem lt_pow_length (n : Nat) : n < 10 ^ (digitsOf n).length :=
  (length_digitsOf_le (length_digitsOf_pos n)).mp (Nat.le_refl _)

/-- One more digit is written behind those of a number. -/
theorem digitsOf_mul_ten {n : Nat} (hn : 0 < n) : digitsOf (n * 10) = digitsOf n ++ ['0'] := by
  rw [digitsOf, Nat.toDigits_of_base_le (by decide) (by omega), Nat.mul_div_cancel _ (by decide),
    Nat.mul_mod_left, digitsOf]
  rfl

/-! ### Zeros at the end -/

/-- The value of a decimal as a fraction. -/
def decimalFraction (digits : Nat) : Int → Nat × Nat
  | .ofNat e => (digits * 10 ^ e, 1)
  | .negSucc e => (digits, 10 ^ (e + 1))

/-- A decimal that is not cut off is read by rounding its value. -/
theorem ofDecimal_eq (negative : Bool) (hdigits : digits ≠ 0)
    (hlow : -400 ≤ (digitsOf digits).length + exponent)
    (hhigh : (digitsOf digits).length + exponent ≤ 400) :
    ofDecimal negative digits exponent
      = nearest negative (decimalFraction digits exponent).1
          (decimalFraction digits exponent).2 := by
  simp only [ofDecimal, length_repr]
  rw [if_neg (by omega), if_neg (by omega)]
  cases exponent with
  | ofNat e => rfl
  | negSucc e => rfl

/-- A zero at the end of the digits is the same as a higher exponent, as both parts of
the fraction differ by a factor. -/
theorem nearest_decimalFraction_mul_ten (negative : Bool) (digits : Nat) (exponent : Int) :
    nearest negative (decimalFraction (digits * 10) exponent).1
        (decimalFraction (digits * 10) exponent).2
      = nearest negative (decimalFraction digits (exponent + 1)).1
        (decimalFraction digits (exponent + 1)).2 := by
  match exponent with
  | .ofNat e =>
      have hmore : decimalFraction digits (.ofNat e + 1) = (digits * 10 ^ (e + 1), 1) := rfl
      rw [hmore, decimalFraction, Nat.mul_assoc, Nat.pow_succ']
  | .negSucc 0 =>
      have hmore : decimalFraction digits (.negSucc 0 + 1) = (digits * 10 ^ 0, 1) := rfl
      rw [hmore, decimalFraction, Nat.pow_zero, Nat.mul_one]
      exact nearest_mul negative digits Nat.one_pos (by decide : 0 < 10)
  | .negSucc (e + 1) =>
      have hmore : decimalFraction digits (.negSucc (e + 1) + 1) = (digits, 10 ^ (e + 1)) := rfl
      rw [hmore, decimalFraction, Nat.pow_succ 10 (e + 1)]
      exact nearest_mul negative digits (Nat.pow_pos (by decide)) (by decide : 0 < 10)

/-- A zero at the end of the digits may stand in the exponent. -/
theorem ofDecimal_mul_ten (negative : Bool) (digits : Nat) (exponent : Int) :
    ofDecimal negative (digits * 10) exponent = ofDecimal negative digits (exponent + 1) := by
  rcases Nat.eq_zero_or_pos digits with rfl | hpos
  · simp only [Nat.zero_mul, ofDecimal, true_or, if_true]
  have hlength : (digitsOf (digits * 10)).length = (digitsOf digits).length + 1 := by
    rw [digitsOf_mul_ten hpos, List.length_append, List.length_singleton]
  by_cases hwithin : -400 ≤ (digitsOf digits).length + (exponent + 1) ∧
      (digitsOf digits).length + (exponent + 1) ≤ 400
  · rw [ofDecimal_eq negative (by omega) (by omega) (by omega),
      ofDecimal_eq negative (by omega) hwithin.1 hwithin.2, nearest_decimalFraction_mul_ten]
  · -- Both are cut off, on the same side.
    simp only [ofDecimal, length_repr, hlength]
    by_cases hlow : (digitsOf digits).length + (exponent + 1) < -400
    · rw [if_pos (.inr (by omega)), if_pos (.inr hlow)]
    · rw [if_neg (by omega), if_pos (by omega), if_neg (by omega), if_pos (by omega)]

/-- So may several of them, by induction on their number. -/
theorem ofDecimal_pow (negative : Bool) (digits k : Nat) (exponent : Int) :
    ofDecimal negative (digits * 10 ^ k) exponent = ofDecimal negative digits (exponent + k) := by
  induction k generalizing exponent with
  | zero => rw [Nat.pow_zero, Nat.mul_one, Int.natCast_zero, Int.add_zero]
  | succ k ih =>
      rw [Nat.pow_succ, ← Nat.mul_assoc, ofDecimal_mul_ten, ih]
      congr 1
      omega

/-- Trimming a decimal does not change how it is read. -/
theorem ofDecimal_trim (negative : Bool) (fuel : Nat) (d : Decimal) :
    ofDecimal negative (d.trim fuel).digits (d.trim fuel).exponent
      = ofDecimal negative d.digits d.exponent := by
  induction fuel generalizing d with
  | zero => rfl
  | succ fuel ih =>
      rw [Decimal.trim]
      split
      · rename_i hzero
        have hdigits : d.digits / 10 * 10 = d.digits := by omega
        rw [ih, ← ofDecimal_mul_ten, hdigits]
      · rfl

/-! ### The shortest decimal -/

/-- The fraction of a zero is rounded to that zero, whatever its denominator. -/
theorem nearest_zero (hzero : x.isZero = true) (den : Nat) :
    nearest x.isNegative 0 den = x := by
  have hfields : x.exponentField = 0 ∧ x.fractionField = 0 := by
    simpa [isZero] using hzero
  have hfinite : x.isFinite = true := by rw [isFinite, hfields.1]; rfl
  have hnum := fraction_of_isZero hzero
  have hexact := nearest_fraction hfinite
  rw [hnum] at hexact
  exact hexact

/-- A significand has fifty-three bits, the hidden one included. -/
theorem significand_lt (x : Double) : x.significand < 2 ^ 53 := by
  have hfraction := x.fractionField_lt
  rw [significand]
  split <;> omega

/-- The exponents of finite numbers, the smallest of them shared by all that are
subnormal. -/
theorem exponent_bounds (hx : x.isFinite = true) : -1074 ≤ x.exponent ∧ x.exponent ≤ 971 := by
  have hexponent : x.exponentField < 2047 := of_decide_eq_true hx
  rw [exponent]
  split <;> omega

/-- The digits of a number that is a whole one. -/
theorem length_whole {m e : Nat} (hm : m < 2 ^ 53) (he : e ≤ 971) :
    (digitsOf (m * 2 ^ e)).length ≤ 400 := by
  refine (length_digitsOf_le (by decide)).mpr ?_
  calc m * 2 ^ e < 2 ^ 53 * 2 ^ e := Nat.mul_lt_mul_of_pos_right hm (Nat.two_pow_pos _)
    _ = 2 ^ (53 + e) := (Nat.pow_add ..).symm
    _ ≤ 2 ^ 1024 := Nat.pow_le_pow_right (by decide) (by omega)
    _ ≤ 10 ^ 400 := by decide +kernel

/-- The digits of a number with `e` binary places: it is no smaller than the smallest
number there is, and its significand is short. -/
theorem length_places {m e : Nat} (hpos : 0 < m) (hm : m < 2 ^ 53) (he : e ≤ 1074) :
    e < (digitsOf (m * 5 ^ e)).length + 400 ∧ (digitsOf (m * 5 ^ e)).length ≤ 53 + e := by
  constructor
  · have hlength := lt_pow_length (m * 5 ^ e)
    generalize (digitsOf (m * 5 ^ e)).length = places at hlength
    by_contra hshort
    have hfew : 5 ^ e < 10 ^ places := Nat.lt_of_le_of_lt (Nat.le_mul_of_pos_left _ hpos) hlength
    have hproduct : 5 ^ e * 10 ^ 400 < 5 ^ e * 2 ^ e :=
      calc 5 ^ e * 10 ^ 400 < 10 ^ places * 10 ^ 400 :=
            Nat.mul_lt_mul_of_pos_right hfew (Nat.pow_pos (by decide))
        _ = 10 ^ (places + 400) := (Nat.pow_add ..).symm
        _ ≤ 10 ^ e := Nat.pow_le_pow_right (by decide) (by omega)
        _ = 5 ^ e * 2 ^ e := (Nat.mul_pow 5 2 e)
    have hpower : 10 ^ 400 < 2 ^ e := Nat.lt_of_mul_lt_mul_left hproduct
    have hbound : 2 ^ e ≤ 10 ^ 400 :=
      calc 2 ^ e ≤ 2 ^ 1074 := Nat.pow_le_pow_right (by decide) he
        _ ≤ 10 ^ 400 := by decide +kernel
    exact Nat.lt_irrefl _ (Nat.lt_of_lt_of_le hpower hbound)
  · refine (length_digitsOf_le (by omega)).mpr ?_
    calc m * 5 ^ e < 2 ^ 53 * 5 ^ e := Nat.mul_lt_mul_of_pos_right hm (Nat.pow_pos (by decide))
      _ ≤ 10 ^ 53 * 10 ^ e :=
          Nat.mul_le_mul (Nat.pow_le_pow_left (by decide) _) (Nat.pow_le_pow_left (by decide) _)
      _ = 10 ^ (53 + e) := (Nat.pow_add ..).symm

/-- All digits of a finite number read as that number. -/
theorem ofDecimal_expansion (hx : x.isFinite = true) (hpos : 0 < x.significand) :
    ofDecimal x.isNegative x.expansion.digits x.expansion.exponent = x := by
  have hsig := x.significand_lt
  obtain ⟨hlow, hhigh⟩ := exponent_bounds hx
  have hexact := nearest_fraction hx
  rw [fraction] at hexact
  rw [expansion]
  cases hexponent : x.exponent with
  -- The number is whole, and its digits are the expansion.
  | ofNat e =>
      rw [hexponent] at hexact hhigh
      have he : e ≤ 971 := Int.ofNat_le.mp hhigh
      have hlength := length_whole hsig he
      have hdigits : x.significand * 2 ^ e ≠ 0 :=
        Nat.ne_of_gt (Nat.mul_pos hpos (Nat.two_pow_pos _))
      have hvalue : decimalFraction (x.significand * 2 ^ e) 0
          = (x.significand * 2 ^ e * 10 ^ 0, 1) := rfl
      show ofDecimal x.isNegative (x.significand * 2 ^ e) 0 = x
      rw [ofDecimal_eq _ hdigits (by omega) (by omega), hvalue, Nat.pow_zero, Nat.mul_one]
      exact hexact
  -- Each binary place is a decimal one, as ten is two times five.
  | negSucc e =>
      rw [hexponent] at hexact hlow
      obtain ⟨hlong, hshort⟩ := length_places (e := e + 1) hpos hsig (by omega)
      have hdigits : 0 < x.significand * 5 ^ (e + 1) := Nat.mul_pos hpos (Nat.pow_pos (by decide))
      have hneg : (-(e + 1 : Int)) = Int.negSucc e := by omega
      have hten : 10 ^ (e + 1) = 2 ^ (e + 1) * 5 ^ (e + 1) := Nat.mul_pow 2 5 _
      show ofDecimal x.isNegative (x.significand * 5 ^ (e + 1)) (-(e + 1 : Int)) = x
      rw [hneg, ofDecimal_eq _ (Nat.ne_of_gt hdigits) (by omega) (by omega), decimalFraction, hten,
        nearest_mul _ _ (Nat.two_pow_pos _) (Nat.pow_pos (by decide))]
      exact hexact

/-- What is found on a grid was tried. -/
theorem ofDecimal_onGrid {e : Int} {d : Decimal} (h : x.onGrid? e = some d) :
    ofDecimal x.isNegative d.digits d.exponent = x := by
  have hpick (nearer further : Nat)
      (hfound : (if decide (ofDecimal x.isNegative nearer e = x) then some ⟨nearer, e⟩
        else if decide (ofDecimal x.isNegative further e = x) then some ⟨further, e⟩
        else none) = some d) : ofDecimal x.isNegative d.digits d.exponent = x := by
    split at hfound
    · rename_i hreads
      obtain rfl := Option.some.inj hfound
      exact of_decide_eq_true hreads
    split at hfound
    · rename_i hreads
      obtain rfl := Option.some.inj hfound
      exact of_decide_eq_true hreads
    · cases hfound
  exact hpick _ _ h

/-- The shortest decimal of a finite number reads as that number. -/
theorem ofDecimal_shortest (hx : x.isFinite = true) :
    ofDecimal x.isNegative x.shortest.digits x.shortest.exponent = x := by
  unfold shortest
  split
  · rename_i hzero
    exact nearest_zero hzero 1
  · rename_i hnonzero
    have hpos : 0 < x.significand := by
      rw [significand]
      split
      · simp only [isZero, Bool.and_eq_true, beq_iff_eq] at hnonzero
        omega
      · exact Nat.add_pos_left (Nat.two_pow_pos _) _
    rw [ofDecimal_trim]
    cases hhit : (List.range 17).findSome? fun (n : Nat) =>
        x.onGrid? (leadingPower x.fraction.1 x.fraction.2 - n) with
    | none => exact ofDecimal_expansion hx hpos
    | some d =>
        obtain ⟨n, -, hgrid⟩ := List.exists_of_findSome?_eq_some hhit
        exact ofDecimal_onGrid hgrid

/-- The shortest decimal of a finite number that is not zero is not cut off. -/
theorem leading_bounds (hx : x.isFinite = true) (hnonzero : x.isZero = false) :
    x.shortest.digits ≠ 0 ∧ -401 ≤ x.shortest.leading ∧ x.shortest.leading < 400 := by
  have hreads := ofDecimal_shortest hx
  simp only [ofDecimal, length_repr] at hreads
  simp only [Decimal.leading, length_repr]
  by_cases hlow : x.shortest.digits = 0 ∨
      (digitsOf x.shortest.digits).length + x.shortest.exponent < -400
  · -- Zero would be read.
    rw [if_pos hlow] at hreads
    have hzero : (nearest x.isNegative 0 1).isZero = true := by
      cases x.isNegative <;> decide
    rw [hreads, hnonzero] at hzero
    cases hzero
  rw [if_neg hlow] at hreads
  by_cases hhigh : 400 < (digitsOf x.shortest.digits).length + x.shortest.exponent
  · -- Infinity would be read.
    rw [if_pos hhigh] at hreads
    have hinfinite : (nearest x.isNegative (2 ^ 1024) 1).isFinite = false := by
      cases x.isNegative <;> decide +kernel
    rw [hreads, hx] at hinfinite
    cases hinfinite
  omega

end StoreBench.Double
