import StoreBench.Proofs.Number.Exact

/-!
# `StoreBench.Proofs.Number.Whole`: whole numbers as binary64 numbers

A whole number keeps fifty-three bits when it becomes a binary64 number. `rounded` is
what is left of it: the nearest multiple of `spacing`, and of two that are equally near
the even one. The magnitude that is packed for a whole number has the bits of its
`rounded` in it (`exists_packed`), and packing keeps the order (`pack_lt_pack`). So two
whole numbers compare, as binary64 numbers, as their `rounded` do (`compare?_ofInt`).

Rounding keeps the order of whole numbers, though not strictly (`rounded_mono`). It
changes none that has fifty-three bits (`rounded_of_lt`), and it takes no word to the
place of another word that is further away than the largest spacing
(`near_of_rounded_eq`).
-/

set_option autoImplicit false

namespace StoreBench.Double

variable {m n den : Nat} {a b : Int}

/-! ### The rounded number -/

/-- How far apart the binary64 numbers of the size of a whole number are: one while
there are bits for it, and twice as far with every bit that is missing. -/
def spacing (n : Nat) : Nat := 2 ^ (n.log2 - 52)

/-- The multiple of its spacing that is nearest to a whole number, a tie going to the
even one. -/
def roundedNat (n : Nat) : Nat := roundHalfEven n (spacing n) * spacing n

/-- What is left of a whole number of either sign. -/
def rounded (a : Int) : Int := if a < 0 then -(roundedNat a.natAbs : Int) else roundedNat a.natAbs

/-- Numbers of any size are some way apart. -/
theorem spacing_pos (n : Nat) : 0 < spacing n := Nat.two_pow_pos _

/-- Up to fifty-three bits all whole numbers are there. -/
theorem spacing_of_lt (h : n < 2 ^ 53) : spacing n = 1 := by
  have hlog : n.log2 < 53 := by
    by_cases hzero : n = 0
    · subst hzero
      decide
    · exact (Nat.log2_lt hzero).mpr h
  rw [spacing, Nat.sub_eq_zero_of_le (by omega), Nat.pow_zero]

/-- Fifty-three bits are kept, so that short numbers are not rounded. -/
theorem roundedNat_of_lt (h : n < 2 ^ 53) : roundedNat n = n := by
  have hexact := roundHalfEven_exact n Nat.one_pos
  rw [Nat.mul_one] at hexact
  rw [roundedNat, spacing_of_lt h, hexact, Nat.mul_one]

/-- Short numbers of either sign are not rounded, as fifty-three bits of them are kept. -/
theorem rounded_of_lt (h : a.natAbs < 2 ^ 53) : rounded a = a := by
  rw [rounded, roundedNat_of_lt h]
  split <;> omega

/-! ### Packing -/

/-- Rounding goes to one of the two whole numbers around a quotient, and not beyond the
upper one. -/
theorem roundHalfEven_le (num den : Nat) : roundHalfEven num den ≤ num / den + 1 := by
  unfold roundHalfEven
  simp only
  split
  · exact Nat.le_succ _
  · split <;> omega

/-- Scaled by its own length, a whole number has fifty-three bits at most. -/
theorem scaleFraction_lt {e : Int} (he : e = (n.log2 : Int) - 52) :
    (scaleFraction n 1 e).1 / (scaleFraction n 1 e).2 < 2 ^ 53 := by
  have hlog : n < 2 ^ (n.log2 + 1) := Nat.lt_log2_self
  cases e with
  | ofNat k =>
      have hsum : 53 + k = n.log2 + 1 := by
        have := Int.ofNat_eq_natCast k
        omega
      show n / (1 * 2 ^ k) < 2 ^ 53
      rw [Nat.one_mul, Nat.div_lt_iff_lt_mul (Nat.two_pow_pos _), ← Nat.pow_add, hsum]
      exact hlog
  | negSucc k =>
      have hsum : n.log2 + 1 + (k + 1) = 53 := by omega
      show n * 2 ^ (k + 1) / 1 < 2 ^ 53
      rw [Nat.div_one, ← hsum, Nat.pow_add 2 (n.log2 + 1) (k + 1)]
      exact Nat.mul_lt_mul_of_pos_right hlog (Nat.two_pow_pos _)

/-- The bits that rounding leaves, at the scale of the number, are `roundedNat`. -/
theorem roundedNat_scaled {e : Int} (he : e = (n.log2 : Int) - 52) :
    roundedNat n * 2 ^ 52
      = roundHalfEven (scaleFraction n 1 e).1 (scaleFraction n 1 e).2 * 2 ^ n.log2 := by
  cases e with
  | ofNat k =>
      -- A long number is rounded to a multiple of its spacing.
      have hsum : n.log2 = k + 52 := by
        have := Int.ofNat_eq_natCast k
        omega
      have hspacing : spacing n = 2 ^ k := by rw [spacing, hsum, Nat.add_sub_cancel]
      show roundHalfEven n (spacing n) * spacing n * 2 ^ 52
        = roundHalfEven n (1 * 2 ^ k) * 2 ^ n.log2
      rw [hspacing, Nat.one_mul, hsum, Nat.pow_add, Nat.mul_assoc]
  | negSucc k =>
      -- A short one has all its bits, with zeros behind them.
      have hsum : k + 1 + n.log2 = 52 := by omega
      have hshort : n < 2 ^ 53 :=
        Nat.lt_of_lt_of_le Nat.lt_log2_self (Nat.pow_le_pow_right (by decide) (by omega))
      have hexact := roundHalfEven_exact (n * 2 ^ (k + 1)) Nat.one_pos
      rw [Nat.mul_one] at hexact
      show roundedNat n * 2 ^ 52 = roundHalfEven (n * 2 ^ (k + 1)) 1 * 2 ^ n.log2
      rw [roundedNat_of_lt hshort, hexact, Nat.mul_assoc, ← Nat.pow_add, hsum]

/-- The magnitude of a whole number is packed from the logarithm and fifty-three bits of
the number, and these are the ones that `roundedNat` keeps. -/
theorem exists_packed (hpos : 0 < n) (hword : n < 2 ^ 64) :
    ∃ q, 2 ^ 52 ≤ q ∧ q ≤ 2 ^ 53 ∧ roundedNat n * 2 ^ 52 = q * 2 ^ n.log2 ∧
      nearestMagnitude n 1 = (n.log2 + 1022) * 2 ^ 52 + q := by
  have hlog : n.log2 < 64 := (Nat.log2_lt (Nat.ne_of_gt hpos)).mpr hword
  have hscaled := roundedNat_scaled (n := n) rfl
  have hfull := Nat.le_trans (le_scaleFraction hpos rfl) (le_roundHalfEven _ _)
  have hshort := Nat.le_trans (roundHalfEven_le _ _) (scaleFraction_lt (n := n) rfl)
  rw [nearestMagnitude, if_neg (Nat.ne_of_gt hpos), scaleExponent_one hpos]
  simp only
  generalize roundHalfEven (scaleFraction n 1 ((n.log2 : Int) - 52)).1
    (scaleFraction n 1 ((n.log2 : Int) - 52)).2 = q at hscaled hfull hshort ⊢
  refine ⟨q, hfull, hshort, hscaled, ?_⟩
  have hexponent : ((n.log2 : Int) - 52 + 1074).toNat = n.log2 + 1022 := by omega
  rw [packMagnitude, if_neg (Nat.not_lt.mpr hfull), hexponent]
  -- Words are far from infinity.
  exact Nat.min_eq_left (by omega)

/-- Packing keeps the order: the exponent counts more than the bits, and bits that have
run over are one more of the exponent. -/
theorem pack_lt_pack {p q j k : Nat} (hp : 2 ^ 52 ≤ p) (hp' : p ≤ 2 ^ 53) (hq : 2 ^ 52 ≤ q)
    (hq' : q ≤ 2 ^ 53) : j * 2 ^ 52 + p < k * 2 ^ 52 + q ↔ p * 2 ^ j < q * 2 ^ k := by
  have hscale (p j d : Nat) : p * 2 ^ (j + 1 + d) = p * 2 ^ (1 + d) * 2 ^ j := by
    rw [Nat.add_assoc, Nat.pow_add 2 j, Nat.mul_comm (2 ^ j), Nat.mul_assoc]
  rcases Nat.lt_trichotomy j k with hlt | rfl | hgt
  · obtain ⟨d, rfl⟩ := Nat.exists_eq_add_of_lt hlt
    rw [Nat.add_right_comm, hscale, Nat.mul_lt_mul_right (Nat.two_pow_pos j)]
    cases d with
    | zero => omega
    | succ d =>
        -- Two exponents apart, both sides hold whatever the bits are.
        have hfour : 4 ≤ 2 ^ (1 + (d + 1)) := Nat.pow_le_pow_right (by decide : 2 > 0)
          (by omega : 2 ≤ 1 + (d + 1))
        have hbits : q * 4 ≤ q * 2 ^ (1 + (d + 1)) := Nat.mul_le_mul_left q hfour
        omega
  · rw [Nat.mul_lt_mul_right (Nat.two_pow_pos j)]
    omega
  · obtain ⟨d, rfl⟩ := Nat.exists_eq_add_of_lt hgt
    rw [Nat.add_right_comm, hscale, Nat.mul_lt_mul_right (Nat.two_pow_pos k)]
    have htwo : 2 ≤ 2 ^ (1 + d) := Nat.pow_le_pow_right (by decide : 2 > 0)
      (by omega : 1 ≤ 1 + d)
    have hbits : p * 2 ≤ p * 2 ^ (1 + d) := Nat.mul_le_mul_left p htwo
    omega

/-! ### Comparison -/

/-- Two whole numbers have magnitudes in the order of what is left of them. -/
theorem nearestMagnitude_lt_iff (hm : m < 2 ^ 64) (hn : n < 2 ^ 64) :
    nearestMagnitude m 1 < nearestMagnitude n 1 ↔ roundedNat m < roundedNat n := by
  have hzero : nearestMagnitude 0 1 = 0 := rfl
  have hrounded : roundedNat 0 = 0 := roundedNat_of_lt (by decide)
  have hpositive {k : Nat} (hpos : 0 < k) (hk : k < 2 ^ 64) : 0 < roundedNat k := by
    obtain ⟨q, hq, -, hscaled, -⟩ := exists_packed hpos hk
    have hproduct : 0 < q * 2 ^ k.log2 := Nat.mul_pos (by omega) (Nat.two_pow_pos _)
    omega
  rcases Nat.eq_zero_or_pos m with rfl | hmpos
  · rcases Nat.eq_zero_or_pos n with rfl | hnpos
    · simp
    · have := nearestMagnitude_pos hnpos
      have := hpositive hnpos hn
      omega
  rcases Nat.eq_zero_or_pos n with rfl | hnpos
  · omega
  · obtain ⟨p, hp, hp', hpscaled, hpacked⟩ := exists_packed hmpos hm
    obtain ⟨q, hq, hq', hqscaled, hpacked'⟩ := exists_packed hnpos hn
    have horder := pack_lt_pack (j := m.log2) (k := n.log2) hp hp' hq hq'
    rw [← hpscaled, ← hqscaled, Nat.mul_lt_mul_right (Nat.two_pow_pos 52)] at horder
    rw [← horder, hpacked, hpacked', Nat.add_mul, Nat.add_mul, Nat.add_right_comm,
      Nat.add_right_comm _ _ q, Nat.add_lt_add_iff_right]

/-- Words that have become binary64 numbers are in the order of the rounded words. -/
theorem place_ofInt_lt_iff (ha : a.natAbs < 2 ^ 64) (hb : b.natAbs < 2 ^ 64) :
    (ofInt a).place < (ofInt b).place ↔ rounded a < rounded b := by
  have habove := nearestMagnitude_lt_iff ha hb
  have hbelow := nearestMagnitude_lt_iff hb ha
  have hpositive (k : Nat) (hk : k < 2 ^ 64) :=
    nearestMagnitude_lt_iff (m := 0) (n := k) (by decide) hk
  have hzero : nearestMagnitude 0 1 = 0 := rfl
  have hrounded : roundedNat 0 = 0 := roundedNat_of_lt (by decide)
  have hapos := hpositive a.natAbs ha
  have hbpos := hpositive b.natAbs hb
  rw [ofInt, ofInt, place_nearest, place_nearest, rounded, rounded]
  -- Numbers of one sign are compared by their magnitudes, others by their signs.
  by_cases hanegative : a < 0 <;> by_cases hbnegative : b < 0 <;>
    simp only [hanegative, hbnegative, decide_true, decide_false, if_true, Bool.false_eq_true,
      if_false]
  · omega
  · have := nearestMagnitude_pos (n := a.natAbs) (by omega)
    omega
  · have := nearestMagnitude_pos (n := b.natAbs) (by omega)
    omega
  · omega

/-- Whole numbers compare, as binary64 numbers, as what is left of them does. -/
theorem compare?_ofInt (ha : a.natAbs < 2 ^ 64) (hb : b.natAbs < 2 ^ 64) :
    (ofInt a).compare? (ofInt b) = some (compare (rounded a) (rounded b)) := by
  have hnan (i : Int) : (ofInt i).isNaN = false := isNaN_nearest _ _ _
  have hless := place_ofInt_lt_iff ha hb
  have hgreater := place_ofInt_lt_iff hb ha
  simp only [compare?, lt, same, hnan, Bool.not_false, Bool.true_and, decide_eq_true_iff,
    beq_iff_eq]
  rcases Int.lt_trichotomy (rounded a) (rounded b) with hlt | heq | hgt
  · rw [if_pos (hless.mpr hlt), compare_lt_iff_lt.mpr hlt]
  · rw [if_neg (by omega), if_neg (by omega), if_pos (by omega), compare_eq_iff_eq.mpr heq]
  · rw [if_neg (by omega), if_pos (hgreater.mpr hgt), compare_gt_iff_gt.mpr hgt]

/-! ### What rounding keeps -/

/-- A larger quotient is not rounded to a smaller number. -/
theorem roundHalfEven_mono (h : m ≤ n) : roundHalfEven m den ≤ roundHalfEven n den := by
  rcases Nat.lt_or_eq_of_le (Nat.div_le_div_right (c := den) h) with hlt | heq
  · -- The whole parts are different, and rounding adds one at most.
    exact Nat.le_trans (roundHalfEven_le m den)
      (Nat.le_trans hlt (le_roundHalfEven n den))
  · -- They are the same, so the rest decides.
    have hrest : m % den ≤ n % den := by
      have hm := Nat.div_add_mod m den
      have hn := Nat.div_add_mod n den
      rw [heq] at hm
      omega
    unfold roundHalfEven
    simp only [heq]
    repeat' split
    all_goals omega

/-- A number with a larger logarithm is rounded to a larger one, or to the same power of
two. -/
theorem roundedNat_bounds (hpos : 0 < n) (hword : n < 2 ^ 64) :
    2 ^ n.log2 ≤ roundedNat n ∧ roundedNat n ≤ 2 ^ (n.log2 + 1) := by
  obtain ⟨q, hq, hq', hscaled, -⟩ := exists_packed hpos hword
  have hlow : 2 ^ 52 * 2 ^ n.log2 ≤ q * 2 ^ n.log2 := Nat.mul_le_mul_right _ hq
  have hhigh : q * 2 ^ n.log2 ≤ 2 ^ 53 * 2 ^ n.log2 := Nat.mul_le_mul_right _ hq'
  rw [Nat.pow_succ]
  omega

/-- Rounding keeps the order. A number between two multiples cannot be taken past one of
them. -/
theorem roundedNat_mono (h : m ≤ n) (hword : n < 2 ^ 64) : roundedNat m ≤ roundedNat n := by
  rcases Nat.eq_zero_or_pos m with rfl | hpos
  · rw [roundedNat_of_lt (by decide)]
    exact Nat.zero_le _
  rcases Nat.lt_or_ge m.log2 n.log2 with hlt | hge
  · calc roundedNat m ≤ 2 ^ (m.log2 + 1) := (roundedNat_bounds hpos (by omega)).2
      _ ≤ 2 ^ n.log2 := Nat.pow_le_pow_right (by decide) hlt
      _ ≤ roundedNat n := (roundedNat_bounds (by omega) hword).1
  · -- The spacing is the same.
    have hlog : m.log2 = n.log2 := by
      have hle : 2 ^ m.log2 ≤ n := Nat.le_trans (Nat.log2_self_le (by omega)) h
      have := (Nat.le_log2 (by omega)).mpr hle
      omega
    have hspacing : spacing m = spacing n := by rw [spacing, hlog, spacing]
    rw [roundedNat, roundedNat, hspacing]
    exact Nat.mul_le_mul_right _ (roundHalfEven_mono h)

/-- A larger whole number is not rounded to a smaller one. -/
theorem rounded_mono (h : a ≤ b) (ha : a.natAbs < 2 ^ 64) (hb : b.natAbs < 2 ^ 64) :
    rounded a ≤ rounded b := by
  unfold rounded
  split
  · split
    · have := roundedNat_mono (m := b.natAbs) (n := a.natAbs) (by omega) ha
      omega
    · omega
  · have := roundedNat_mono (m := a.natAbs) (n := b.natAbs) (by omega) hb
    rw [if_neg (by omega)]
    omega

/-- A whole number is moved by half its spacing at most. -/
theorem roundedNat_close (n : Nat) :
    2 * n ≤ 2 * roundedNat n + spacing n ∧ 2 * roundedNat n ≤ 2 * n + spacing n := by
  have hpos : (0 : ℚ) < spacing n := by exact_mod_cast spacing_pos n
  obtain ⟨hbelow, habove⟩ := abs_le.mp (roundHalfEven_close n (spacing_pos n))
  rw [neg_le_sub_iff_le_add, div_le_iff₀ hpos] at hbelow
  rw [sub_le_iff_le_add, ← sub_le_iff_le_add', le_div_iff₀ hpos] at habove
  have hlow : (2 : ℚ) * n ≤ 2 * (roundHalfEven n (spacing n) * spacing n) + spacing n := by
    linarith
  have hhigh : (2 : ℚ) * (roundHalfEven n (spacing n) * spacing n) ≤ 2 * n + spacing n := by
    linarith
  exact ⟨by exact_mod_cast hlow, by exact_mod_cast hhigh⟩

/-- Words with a sign are at most `2 ^ 10` apart from their neighbours, and the least one is
rounded to itself. -/
theorem rounded_close (hword : -2 ^ 63 ≤ a) (hword' : a < 2 ^ 63) :
    (rounded a - a).natAbs ≤ 2 ^ 9 := by
  by_cases hleast : a = -2 ^ 63
  · subst hleast
    decide
  have hspacing : spacing a.natAbs ≤ 2 ^ 10 := by
    refine Nat.pow_le_pow_right (by decide) ?_
    by_cases hzero : a.natAbs = 0
    · rw [hzero]
      decide
    · have := (Nat.log2_lt hzero).mpr (by omega : a.natAbs < 2 ^ 63)
      omega
  have hclose := roundedNat_close a.natAbs
  unfold rounded
  split <;> omega

/-- Words with a sign that are rounded to the same are no further apart than the largest
spacing, and they are the same if one of them is not rounded. -/
theorem near_of_rounded_eq (ha : -2 ^ 63 ≤ a) (ha' : a < 2 ^ 63) (hb : -2 ^ 63 ≤ b)
    (hb' : b < 2 ^ 63) (h : rounded a = rounded b) :
    a = b ∨ (a - b).natAbs ≤ 2 ^ 10 ∧ 2 ^ 53 ≤ a.natAbs ∧ 2 ^ 53 ≤ b.natAbs := by
  have hnear : (a - b).natAbs ≤ 2 ^ 10 := by
    have := rounded_close ha ha'
    have := rounded_close hb hb'
    omega
  -- What is beyond fifty-three bits stays beyond.
  have hlong {a b : Int} (hb : b.natAbs < 2 ^ 64) (h : rounded a = rounded b)
      (hshort : a.natAbs < 2 ^ 53) : b.natAbs < 2 ^ 53 := by
    by_contra hlarge
    have hmono := roundedNat_mono (m := 2 ^ 53) (n := b.natAbs) (by omega) hb
    have hfixed : roundedNat (2 ^ 53) = 2 ^ 53 := by decide
    rw [rounded_of_lt hshort, rounded] at h
    split at h <;> omega
  by_cases hshort : a.natAbs < 2 ^ 53
  · have hshort' := hlong (by omega) h hshort
    rw [rounded_of_lt hshort, rounded_of_lt hshort'] at h
    exact .inl h
  · by_cases hshort' : b.natAbs < 2 ^ 53
    · exact absurd (hlong (by omega) h.symm hshort') hshort
    · exact .inr ⟨hnear, by omega, by omega⟩

end StoreBench.Double
