import StoreBench.Number.Scan
import StoreBench.Proofs.Number.Shortest

/-!
# `StoreBench.Proofs.Number.Scan`: texts that read as a number

A text that reads as a number without sign is digits, perhaps with a plus sign in front
(`exists_digits`). So it also reads as a signed word, if it fits one (`scanInt?_digits`), and
as a fractional number (`scan?_digits`), which is the one nearest to it
(`Double.ofDecimal_word`). No word begins with a digit, so it is read as none of them.
-/

set_option autoImplicit false

namespace StoreBench

open Text (digitsValue isDigit)

/-- A rounded number fits a word, whatever it was before: a negative one becomes zero,
and one that is too large, or infinite, the largest word. So what is read through a
fractional number needs no bound of its own. -/
theorem Double.saturated_lt (x : Double) : x.saturated < 2 ^ 64 := by
  rw [saturated]
  split
  · exact Nat.two_pow_pos 64
  split
  · exact Nat.lt_of_le_of_lt (Nat.min_le_right _ _) (by decide)
  · decide

/-- Digits have no case. Words such as `inf` are recognized in any case, so a text is put
into lower case before it is compared with them, and this must not change a numeral. -/
theorem toLower_of_isDigit {c : Char} (h : isDigit c = true) : c.toLower = c := by
  have hnine : c.val ≤ '9'.val := by
    rw [isDigit, Bool.and_eq_true, decide_eq_true_iff, decide_eq_true_iff] at h
    exact h.2
  have hletter : ¬(c.val ≥ 'A'.val ∧ c.val ≤ 'Z'.val) := fun hletter =>
    absurd (UInt32.le_trans hletter.1 hnine) (by decide)
  exact dif_neg hletter

/-- A text that reads as a number is digits, perhaps with a plus sign. -/
theorem exists_digits {limit n : Nat} {s : String} (h : scanNat? limit s = some n) :
    ∃ ds, (s.toList = ds ∨ s.toList = '+' :: ds) ∧ ds ≠ [] ∧ (∀ c ∈ ds, isDigit c = true)
      ∧ digitsValue ds = n ∧ n ≤ limit := by
  have hdigits {ds : List Char} (h : (scanDigits? ds).filter (fun n => n ≤ limit) = some n) :
      ds ≠ [] ∧ (∀ c ∈ ds, isDigit c = true) ∧ digitsValue ds = n ∧ n ≤ limit := by
    obtain ⟨hscan, hlimit⟩ := Option.filter_eq_some_iff.mp h
    rw [scanDigits?] at hscan
    split at hscan
    · cases hscan
    · next hall =>
        simp only [Bool.or_eq_true, Bool.not_eq_true', not_or, Bool.not_eq_false,
          List.isEmpty_iff] at hall
        exact ⟨hall.1, List.all_eq_true.mp hall.2, Option.some.inj hscan, of_decide_eq_true hlimit⟩
  rw [scanNat?] at h
  split at h
  · next ds hs => exact ⟨ds, .inr hs, hdigits h⟩
  · exact ⟨s.toList, .inl rfl, hdigits h⟩

/-- A text that reads as a number up to a limit reads as the same one up to a higher limit. -/
theorem scanNat?_mono {limit higher n : Nat} {s : String} (hle : limit ≤ higher)
    (h : scanNat? limit s = some n) : scanNat? higher s = some n := by
  rw [scanNat?, Option.filter_eq_some_iff] at h ⊢
  exact ⟨h.1, decide_eq_true (Nat.le_trans (of_decide_eq_true h.2) hle)⟩

section Digits

variable {s : String} {ds : List Char}

/-- Of a numeral the sign is split off if it has one. Only a plus sign is possible,
since what follows must be digits and nothing else. -/
theorem splitSign_digits (hs : s.toList = ds ∨ s.toList = '+' :: ds) (hne : ds ≠ [])
    (hdigits : ∀ c ∈ ds, isDigit c = true) : splitSign s.toList = (false, ds) := by
  rcases hs with hs | hs
  · obtain ⟨c, cs, rfl⟩ := List.exists_cons_of_ne_nil hne
    have hc := hdigits c List.mem_cons_self
    rw [hs, splitSign]
    · rintro _ ⟨⟩
      cases hc
    · rintro _ ⟨⟩
      cases hc
  · rw [hs]
    rfl

/-- What begins with a digit is none of the words that stand for a number, as each of
these begins with a letter. -/
theorem ofList_toLower_ne {word : String} (hne : ds ≠ []) (hdigits : ∀ c ∈ ds, isDigit c = true)
    (hword : (word.toList.head?.all fun c => !isDigit c) = true) :
    String.ofList (ds.map Char.toLower) ≠ word := by
  obtain ⟨c, cs, rfl⟩ := List.exists_cons_of_ne_nil hne
  have hc := hdigits c List.mem_cons_self
  rintro rfl
  rw [String.toList_ofList, List.map_cons, toLower_of_isDigit hc, List.head?_cons, Option.all_some,
    hc] at hword
  cases hword

/-- A numeral is read as the double that is nearest to its value. It has neither a point
nor an exponent, so its digits are the whole of the number. -/
theorem scan?_digits (hs : s.toList = ds ∨ s.toList = '+' :: ds) (hne : ds ≠ [])
    (hdigits : ∀ c ∈ ds, isDigit c = true) :
    Double.scan? s = some (.ofDecimal false (digitsValue ds) 0) := by
  have htake : ds.takeWhile isDigit = ds := by
    simpa using Text.takeWhile_digits hdigits Text.noDigit_nil
  have hword {word : String} (h : (word.toList.head?.all fun c => !isDigit c) = true) :=
    ofList_toLower_ne hne hdigits h
  rw [Double.scan?, splitSign_digits hs hne hdigits]
  dsimp only
  rw [if_neg (not_or.mpr ⟨hword (by decide +kernel), hword (by decide +kernel)⟩),
    if_neg (hword (by decide +kernel)), Double.scanMagnitude?, htake, List.drop_length]
  simp [hne, Double.scanExponent?]

/-- A numeral is read as a whole number exactly as long as it fits a signed word. Beyond
that it is not cut off but refused, and is tried as a fractional number next. -/
theorem scanInt?_digits (hs : s.toList = ds ∨ s.toList = '+' :: ds) (hne : ds ≠ [])
    (hdigits : ∀ c ∈ ds, isDigit c = true) :
    scanInt? s = if digitsValue ds < 2 ^ 63 then some (digitsValue ds : Int) else none := by
  have hscan : scanDigits? ds = some (digitsValue ds) := by
    rw [scanDigits?, if_neg]
    simp [hne, List.all_eq_true.mpr hdigits]
  unfold scanInt?
  rw [splitSign_digits hs hne hdigits]
  dsimp only
  rw [hscan, Option.bind_some, if_neg Bool.false_ne_true]
  split <;> split <;> first | rfl | omega

end Digits

/-- The nearest double of a numeral is that of the number it stands for. Zero is left
out, as its digits have no leading one to scale by. -/
theorem Double.ofDecimal_word {n : Nat} (hpos : n ≠ 0) (h : n < 2 ^ 64) :
    ofDecimal false n 0 = .ofNat n := by
  have hlength : (digitsOf n).length ≤ 20 :=
    (length_digitsOf_le (by decide)).mpr (Nat.lt_of_lt_of_le h (by decide))
  rw [ofDecimal_eq false hpos (by omega) (by omega), ofNat]
  show nearest false (n * 10 ^ 0) 1 = _
  rw [Nat.pow_zero, Nat.mul_one]

end StoreBench
