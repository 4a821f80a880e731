import StoreBench.Proofs.Json.Reading
import StoreBench.Proofs.Number.Shortest

/-!
# `StoreBench.Proofs.Json.Fractional`: fractional numbers that are read back

A finite fractional number is written as its shortest decimal, which reads as that
number (`Double.ofDecimal_shortest`). So what remains is that the digits and the
exponent are found in the text again. Positional digits are cut in two at the point
(`Decimal.parts_spec`), and a leading digit with an exponent has its other digits behind
the point (`readUnsigned_scientific`). The exponent is never so long that the reader gives
up on it (`exponentOverflow?_digits`).
-/

set_option autoImplicit false

namespace StoreBench

namespace Decimal

open Json (Whole)

variable {digits e : Nat}

/-- Digits are digits. -/
theorem isDigit_digitsOf (n : Nat) : ∀ c ∈ digitsOf n, Text.isDigit c = true := fun _ =>
  Text.isDigit_of_mem_digitsOf

/-- The zeros that fill a number up are digits. -/
theorem isDigit_zeros (n : Nat) : ∀ c ∈ List.replicate n '0', Text.isDigit c = true := by
  intro c hc
  rw [(List.mem_replicate.mp hc).2]
  rfl

/-- Where the exponent is not negative, zeros stand for it behind the digits. -/
theorem parts_ofNat (h : digits ≠ 0 ∨ e = 0) :
    Whole (parts ⟨digits, .ofNat e⟩).1 ∧ (parts ⟨digits, .ofNat e⟩).2 = [] ∧
      Text.digitsValue (parts ⟨digits, .ofNat e⟩).1 = digits * 10 ^ e := by
  refine ⟨?_, rfl, ?_⟩
  · rcases Text.digitsOf_eq_cons digits with ⟨hzero, hdigits⟩ | ⟨c, cs, hdigits, -, hne⟩
    · -- Nothing stands behind a zero.
      obtain rfl : e = 0 := h.resolve_left (not_not.mpr hzero)
      exact .inl (by simp [parts, hdigits])
    · refine .inr ⟨c, cs ++ List.replicate e '0', by simp [parts, hdigits], hne, ?_⟩
      intro d hd
      exact (List.mem_append.mp hd).elim (isDigit_digitsOf digits d) (isDigit_zeros e d)
  · simp [parts, Text.digitsValue_append]

/-- Where it is negative, it is the number of digits behind the point. -/
theorem parts_negSucc (hpos : digits ≠ 0) :
    Whole (parts ⟨digits, .negSucc e⟩).1 ∧
      (∀ c ∈ (parts ⟨digits, .negSucc e⟩).2, Text.isDigit c = true) ∧
      (parts ⟨digits, .negSucc e⟩).2.length = e + 1 ∧
      Text.digitsValue ((parts ⟨digits, .negSucc e⟩).1 ++ (parts ⟨digits, .negSucc e⟩).2)
        = digits := by
  rcases Text.digitsOf_eq_cons digits with ⟨hzero, -⟩ | ⟨c, cs, hdigits, -, hne⟩
  · exact absurd hzero hpos
  simp only [parts]
  split
  · -- The point stands between the digits.
    rename_i hplaces
    refine ⟨?_, fun d hd => isDigit_digitsOf digits d (List.mem_of_mem_drop hd), ?_, ?_⟩
    · obtain ⟨k, hk⟩ := Nat.exists_eq_add_one_of_ne_zero (Nat.sub_ne_zero_of_lt hplaces)
      refine .inr ⟨c, cs.take k, ?_, hne, fun d hd =>
        isDigit_digitsOf digits d (List.mem_of_mem_take hd)⟩
      rw [hk, hdigits, List.take_succ_cons]
    · rw [List.length_drop]
      omega
    · rw [List.take_append_drop, Text.digitsValue_digitsOf]
  · -- It stands before them, with zeros in between.
    rename_i hplaces
    refine ⟨.inl rfl, ?_, ?_, ?_⟩
    · intro d hd
      exact (List.mem_append.mp hd).elim (isDigit_zeros _ d) (isDigit_digitsOf digits d)
    · rw [List.length_append, List.length_replicate]
      omega
    · have hzero : Text.digitsValue ['0'] = 0 := rfl
      rw [Text.digitsValue_append, Text.digitsValue_append, hzero, Text.digitsValue_zeros,
        Text.digitsValue_digitsOf]
      omega

/-- The integer part and the fraction digits of a decimal have its digits in order. If
there is no fraction, the zeros that stand for the exponent are among them. -/
theorem parts_spec {d : Decimal} (h : d.digits ≠ 0 ∨ d.exponent = 0) :
    Whole d.parts.1 ∧ (∀ c ∈ d.parts.2, Text.isDigit c = true) ∧
      (d.parts.2 = [] ∧
          (∃ e : Nat, d.exponent = e ∧ Text.digitsValue d.parts.1 = d.digits * 10 ^ e) ∨
        d.parts.2 ≠ [] ∧ d.exponent = -(d.parts.2.length : Int) ∧
          Text.digitsValue (d.parts.1 ++ d.parts.2) = d.digits) := by
  match d with
  | ⟨digits, .ofNat e⟩ =>
      obtain ⟨hwhole, hnone, hvalue⟩ := parts_ofNat (h.imp_right Int.ofNat.inj)
      exact ⟨hwhole, hnone ▸ nofun, .inl ⟨hnone, e, rfl, hvalue⟩⟩
  | ⟨digits, .negSucc e⟩ =>
      obtain ⟨hwhole, hdigits, hlength, hvalue⟩ :=
        parts_negSucc (e := e) (h.resolve_right (Int.negSucc_ne_zero e))
      refine ⟨hwhole, hdigits, .inr ⟨List.ne_nil_of_length_pos ?_, ?_, hvalue⟩⟩
      · rw [hlength]
        exact Nat.succ_pos e
      · rw [hlength]
        exact Int.negSucc_eq e

end Decimal

namespace Json

variable {rest : List Char} {x : Double} {digits : Nat} {scale : Int}

/-! ### Parts of a number -/

/-- A decimal that reads as a finite number is that number. -/
theorem realNumber_eq {negative : Bool} (hreads : Double.ofDecimal negative digits scale = x)
    (hx : x.isFinite = true) : realNumber negative digits scale rest = .ok (.float x, rest) := by
  rw [realNumber, hreads, if_pos hx]

/-- An exponent that fits a word of 32 bits is read to its end. -/
theorem exponentOverflow?_digits {ds : List Char} (hdigits : ∀ c ∈ ds, Text.isDigit c = true)
    (hrest : Text.NoDigit rest) (hsmall : Text.digitsValue ds < 2 ^ 31) :
    exponentOverflow? 0 (ds ++ rest) = none := by
  -- The number grows with each digit, so none of those before the last is too large.
  have hgrows (ds : List Char) (n : Nat) :
      n ≤ ds.foldl (fun n c => n * 10 + (c.toNat - 48)) n := by
    induction ds generalizing n with
    | nil => exact Nat.le_refl _
    | cons c cs ih =>
        have hstep : n ≤ n * 10 + (c.toNat - 48) := by omega
        exact Nat.le_trans hstep (ih _)
  have hfrom (ds : List Char) (hdigits : ∀ c ∈ ds, Text.isDigit c = true) (n : Nat)
      (hsmall : ds.foldl (fun n c => n * 10 + (c.toNat - 48)) n < 2 ^ 31) :
      exponentOverflow? n (ds ++ rest) = none := by
    induction ds generalizing n with
    | nil =>
        cases rest with
        | nil => rfl
        | cons c cs => simp [exponentOverflow?, hrest c rfl]
    | cons c cs ih =>
        obtain ⟨hc, hcs⟩ := List.forall_mem_cons.mp hdigits
        have hlt : n * 10 + (c.toNat - 48) < 2 ^ 31 := Nat.lt_of_le_of_lt (hgrows cs _) hsmall
        rw [List.cons_append, exponentOverflow?, if_pos hc, if_neg (Nat.not_le.mpr hlt)]
        exact ih hcs _ hsmall
  exact hfrom ds hdigits 0 hsmall

/-- The text of an exponent, which always has a sign. -/
def exponentText (k : Int) : List Char := (if k < 0 then '-' else '+') :: digitsOf k.natAbs

/-- An exponent moves the scale, if it is no larger than exponents may be. -/
theorem readExponent_text (negative : Bool) (digits : Nat) (scale : Int) {k : Int}
    (hk : k.natAbs < 2 ^ 31) (hrest : Text.NoDigit rest) :
    readExponent negative digits scale (exponentText k ++ rest)
      = realNumber negative digits (scale + k) rest := by
  have hdigits : ∀ c ∈ digitsOf k.natAbs, Text.isDigit c = true := fun _ =>
    Text.isDigit_of_mem_digitsOf
  have htake := Text.takeWhile_digits hdigits hrest
  have hdrop := Text.dropWhile_digits hdigits hrest
  have hoverflow := exponentOverflow?_digits hdigits hrest
    (by rw [Text.digitsValue_digitsOf]; exact hk)
  have hvalue := Text.digitsValue_digitsOf k.natAbs
  obtain ⟨c, cs, hcs⟩ := List.exists_cons_of_ne_nil (Text.digitsOf_ne_nil k.natAbs)
  have hc : Text.isDigit c = true := hdigits c (by rw [hcs]; exact List.mem_cons_self)
  rw [hcs] at hvalue
  rw [exponentText, List.cons_append]
  -- Only that the digits are those of the magnitude matters from here on.
  generalize hm : k.natAbs = m at *
  rw [hcs, List.cons_append] at htake hdrop hoverflow ⊢
  by_cases hneg : k < 0
  · have hdown : scale - m = scale + k := by omega
    simp [readExponent, hneg, hc, htake, hdrop, hoverflow, hvalue, hdown]
  · have hup : scale + m = scale + k := by omega
    simp [readExponent, hneg, hc, htake, hdrop, hoverflow, hvalue, hup]

/-- Digits behind a point, before an exponent. Each of them takes one from the scale. -/
theorem readFraction_exponent (negative : Bool) (whole : List Char) {ds : List Char}
    (hds : ∀ c ∈ ds, Text.isDigit c = true) (hne : ds ≠ []) (rest : List Char) :
    readFraction negative whole ('.' :: (ds ++ 'e' :: rest))
      = readExponent negative (Text.digitsValue (whole ++ ds)) (-(ds.length : Int)) rest := by
  have hstop : Text.NoDigit ('e' :: rest) := Text.noDigit_cons rfl
  have hempty : ds.isEmpty = false := List.isEmpty_eq_false_iff.mpr hne
  simp only [readFraction, Text.takeWhile_digits hds hstop, Text.dropWhile_digits hds hstop,
    hempty, Bool.false_eq_true, if_false]

/-- The digits after the first, behind a point where there are any. -/
def behindPoint (cs : List Char) : List Char := if cs.isEmpty then [] else '.' :: cs

/-- The digits after the first are read with their point, or without one where there are
none. -/
theorem readFraction_behindPoint (negative : Bool) (c : Char) {cs : List Char}
    (hcs : ∀ d ∈ cs, Text.isDigit d = true) (rest : List Char) :
    readFraction negative [c] (behindPoint cs ++ 'e' :: rest)
      = readExponent negative (Text.digitsValue (c :: cs)) (-(cs.length : Int)) rest := by
  cases cs with
  | nil => rfl
  | cons d ds => exact readFraction_exponent negative [c] hcs (List.cons_ne_nil d ds) rest

/-- What follows the first digit begins with no digit, so that the whole part is this
one digit. -/
theorem noDigit_behindPoint (cs rest : List Char) :
    Text.NoDigit (behindPoint cs ++ 'e' :: rest) := by
  cases cs with
  | nil => exact Text.noDigit_cons rfl
  | cons d ds => exact Text.noDigit_cons rfl

/-- Digits behind a point, at the end of the number. -/
theorem readFraction_point (negative : Bool) (whole : List Char) {ds : List Char}
    (hds : ∀ c ∈ ds, Text.isDigit c = true) (hne : ds ≠ []) (hrest : Ends rest) :
    readFraction negative whole ('.' :: (ds ++ rest))
      = realNumber negative (Text.digitsValue (whole ++ ds)) (-(ds.length : Int)) rest := by
  have hempty : ds.isEmpty = false := List.isEmpty_eq_false_iff.mpr hne
  simp only [readFraction, Text.takeWhile_digits hds hrest.noDigit,
    Text.dropWhile_digits hds hrest.noDigit, hempty, Bool.false_eq_true, if_false]
  split
  · rcases hrest _ rfl with h | h | h <;> cases h
  · rcases hrest _ rfl with h | h | h <;> cases h
  · rfl

/-! ### The written form -/

/-- Positional digits of a decimal are read as that decimal. -/
theorem readUnsigned_pointed {negative : Bool} {d : Decimal}
    (h : d.digits ≠ 0 ∨ d.exponent = 0)
    (hreads : Double.ofDecimal negative d.digits d.exponent = x) (hx : x.isFinite = true) :
    Whole d.parts.1 ∧ ∃ frac, d.pointed = d.parts.1 ++ '.' :: frac ∧ ∀ rest, Ends rest →
      readUnsigned negative (d.parts.1 ++ '.' :: (frac ++ rest)) = .ok (.float x, rest) := by
  obtain ⟨hwhole, hfrac, hparts⟩ := Decimal.parts_spec h
  have hpoint (frac : List Char) : Text.NoDigit ('.' :: frac) := Text.noDigit_cons rfl
  refine ⟨hwhole, ?_⟩
  unfold Decimal.pointed
  generalize hd : d.parts = parts at *
  obtain ⟨whole, frac⟩ := parts
  rcases hparts with ⟨hnone, e, hexponent, hvalue⟩ | ⟨hne, hexponent, hvalue⟩
  · -- A zero is written behind the point.
    obtain rfl : frac = [] := hnone
    refine ⟨['0'], rfl, fun rest hrest => ?_⟩
    have hzero : ∀ c ∈ ['0'], Text.isDigit c = true := List.forall_mem_singleton.mpr rfl
    have hdigits : Text.digitsValue (whole ++ ['0']) = d.digits * 10 ^ (e + 1) := by
      rw [Text.digitsValue_append, hvalue, Nat.pow_succ, ← Nat.mul_assoc]
      rfl
    rw [readUnsigned_whole _ hwhole (hpoint _),
      readFraction_point _ _ hzero (List.cons_ne_nil _ _) hrest, hdigits]
    refine realNumber_eq ?_ hx
    have hscale : (-(1 : Int)) + ((e + 1 : Nat) : Int) = e := by omega
    rw [← hreads, hexponent, Double.ofDecimal_pow]
    exact congrArg _ hscale
  · -- There are digits behind the point.
    obtain ⟨c, cs, rfl⟩ := List.exists_cons_of_ne_nil hne
    refine ⟨c :: cs, rfl, fun rest hrest => ?_⟩
    rw [readUnsigned_whole _ hwhole (hpoint _), readFraction_point _ _ hfrac hne hrest,
      hvalue, ← hexponent]
    exact realNumber_eq hreads hx

/-- The scientific form: one digit, those behind the point if there are any, and the
exponent. -/
theorem scientific_eq {d : Decimal} {c : Char} {cs : List Char}
    (hcs : digitsOf d.digits = c :: cs) :
    d.scientific = [c] ++ (behindPoint cs ++ 'e' :: exponentText d.leading) := by
  cases cs with
  | nil => simp [Decimal.scientific, behindPoint, exponentText, hcs]
  | cons d ds => simp [Decimal.scientific, behindPoint, exponentText, hcs]

/-- So are a leading digit and an exponent. -/
theorem readUnsigned_scientific {negative : Bool} {d : Decimal} (hdigits : d.digits ≠ 0)
    (hleading : d.leading.natAbs < 2 ^ 31)
    (hreads : Double.ofDecimal negative d.digits d.exponent = x) (hx : x.isFinite = true) :
    ∃ whole tail, Whole whole ∧ d.scientific = whole ++ tail ∧ ∀ rest, Ends rest →
      readUnsigned negative (whole ++ (tail ++ rest)) = .ok (.float x, rest) := by
  rcases Text.digitsOf_eq_cons d.digits with ⟨hzero, -⟩ | ⟨c, cs, hcs, hc, hne⟩
  · exact absurd hzero hdigits
  have hwhole : Whole [c] := .inr ⟨c, [], rfl, hne, List.forall_mem_singleton.mpr hc⟩
  have hmore : ∀ c' ∈ cs, Text.isDigit c' = true := fun c' hc' =>
    Text.isDigit_of_mem_digitsOf (n := d.digits) (by rw [hcs]; exact List.mem_cons_of_mem _ hc')
  have hvalue : Text.digitsValue (c :: cs) = d.digits := by
    rw [← hcs, Text.digitsValue_digitsOf]
  -- The exponent undoes what the digits behind the point take away.
  have hexponent : -(cs.length : Int) + d.leading = d.exponent := by
    rw [Decimal.leading, Double.length_repr, hcs, List.length_cons]
    omega
  refine ⟨[c], _, hwhole, scientific_eq hcs, fun rest hrest => ?_⟩
  have htail : behindPoint cs ++ 'e' :: exponentText d.leading ++ rest
      = behindPoint cs ++ 'e' :: (exponentText d.leading ++ rest) := by
    rw [List.append_assoc, List.cons_append]
  rw [htail, readUnsigned_whole _ hwhole (noDigit_behindPoint _ _),
    readFraction_behindPoint _ _ hmore, readExponent_text _ _ _ hleading hrest.noDigit, hvalue,
    hexponent]
  exact realNumber_eq hreads hx

/-- A finite fractional number is written as a sign, where there is one, and digits that
are read as that number. -/
theorem json_eq (hx : x.isFinite = true) :
    ∃ whole tail, Whole whole ∧ x.json = x.signed (whole ++ tail) ∧ ∀ rest, Ends rest →
      readUnsigned x.isNegative (whole ++ (tail ++ rest)) = .ok (.float x, rest) := by
  have hreads := Double.ofDecimal_shortest hx
  have hpointed (h : x.shortest.digits ≠ 0 ∨ x.shortest.exponent = 0) :
      ∃ whole tail, Whole whole ∧ x.signed x.shortest.pointed = x.signed (whole ++ tail) ∧
        ∀ rest, Ends rest →
          readUnsigned x.isNegative (whole ++ (tail ++ rest)) = .ok (.float x, rest) := by
    obtain ⟨hwhole, frac, hpointed, hread⟩ := readUnsigned_pointed h hreads hx
    exact ⟨_, '.' :: frac, hwhole, by rw [hpointed], fun rest hrest => hread rest hrest⟩
  simp only [Double.json]
  cases hzero : x.isZero with
  | true =>
      have hshortest : x.shortest = ⟨0, 0⟩ := if_pos hzero
      rw [Bool.true_or, if_pos rfl]
      exact hpointed (.inr (by rw [hshortest]))
  | false =>
      obtain ⟨hdigits, hlow, hhigh⟩ := Double.leading_bounds hx hzero
      split
      · exact hpointed (.inl hdigits)
      · obtain ⟨whole, tail, hwhole, hscientific, hread⟩ :=
          readUnsigned_scientific hdigits (by omega) hreads hx
        exact ⟨whole, tail, hwhole, by rw [hscientific], hread⟩

/-- A finite fractional number is read back, whichever form it is written in. -/
theorem readNumber_json (hx : x.isFinite = true) (hrest : Ends rest) :
    readNumber (x.json ++ rest) = .ok (.float x, rest) := by
  obtain ⟨whole, tail, hwhole, hjson, hread⟩ := json_eq hx
  have hsigned : x.signed (whole ++ tail) ++ rest
      = if x.isNegative then '-' :: (whole ++ (tail ++ rest)) else whole ++ (tail ++ rest) := by
    rw [Double.signed]
    split
    · rw [List.cons_append, List.append_assoc]
    · rw [List.append_assoc]
  rw [hjson, hsigned, readNumber_signed _ hwhole]
  exact hread rest hrest

/-- Its text begins with a sign or a digit. -/
theorem json_eq_cons (hx : x.isFinite = true) :
    ∃ c cs, x.json = c :: cs ∧ (c = '-' ∨ Text.isDigit c = true) := by
  obtain ⟨whole, tail, hwhole, hjson, -⟩ := json_eq hx
  obtain ⟨c, cs, rfl, hc⟩ := hwhole.eq_cons
  rw [hjson, Double.signed]
  split
  · exact ⟨'-', _, rfl, .inl rfl⟩
  · exact ⟨c, _, rfl, .inr hc⟩

/-- A field that holds a finite number is read without a loss. -/
theorem reads_ofDouble (hx : x.isFinite = true) : Reads readDouble (write (.ofDouble x)) x := by
  have hwrite : write (.ofDouble x) = x.json := by
    rw [ofDouble, if_pos hx, write]
  obtain ⟨c, cs, htext, hc⟩ := json_eq_cons hx
  have hstarts : Starts x.json := by
    rw [htext]
    exact starts_number hc cs
  rw [hwrite]
  refine ⟨hstarts, fun rest hrest => ?_⟩
  have hnumber := readNumber_json hx hrest
  rw [readDouble, hstarts.skipBlanks]
  rw [htext, List.cons_append] at hnumber ⊢
  simp only [if_pos hc, hnumber, Text.ok_bind]
  rfl

end Json

end StoreBench
