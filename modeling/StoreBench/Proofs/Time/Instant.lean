import StoreBench.Proofs.Text.Digits
import StoreBench.Proofs.Time.Calendar
import StoreBench.Time.Instant

/-!
# `StoreBench.Proofs.Time.Instant`: instants that are written and read back

An instant of the years 0 to 9999 is written in digits of fixed width, and each part
is read back as it was written (`readNumber_digits`, `readBounded_padded`,
`readPlaces_padded`). The date of its day is one of the calendar and leads back to
the day, so that the parts make up the instant again, without the nanoseconds that
six places cannot hold (`ofText_microText`).

A leap second is written as the sixtieth of its minute. This is read as the second
before it, with nanoseconds past a whole second, so it has to be marked on the last
regular second of a minute (`Instant.Dated`).
-/

set_option autoImplicit false

namespace StoreBench.Instant

open Time

variable {t : Instant}

/-- An instant of the years that have four digits. Its nanoseconds run past a whole
second in the last second of a minute only. -/
structure Dated (t : Instant) : Prop where
  year_mem : 0 ≤ (dateOfDays (t.seconds / 86400)).year ∧
    (dateOfDays (t.seconds / 86400)).year ≤ 9999
  nanos_lt : t.nanos < 2000000000
  leap : 1000000000 ≤ t.nanos → t.seconds % 60 = 59

/-- The instant without what is below a microsecond. -/
def truncated (t : Instant) : Instant := ⟨t.seconds, t.nanos / 1000 * 1000⟩

/-! ### Parts -/

section Parts

variable {least most width low high n : Nat} {ds rest : List Char}

/-- Digits are read as a number when no more of them may be taken, or follow. -/
theorem readNumber_digits (hds : ∀ c ∈ ds, Text.isDigit c = true) (hleast : least ≤ ds.length)
    (hmost : ds.length = most ∨ ds.length ≤ most ∧ Text.NoDigit rest)
    (hvalue : Text.digitsValue ds < 2 ^ 63) :
    readNumber least most (ds ++ rest) = .ok (Text.digitsValue ds, rest) := by
  have htaken : ((ds ++ rest).take most).takeWhile Text.isDigit = ds := by
    rw [List.take_append, List.take_of_length_le (by omega)]
    refine Text.takeWhile_digits hds ?_
    rcases hmost with rfl | ⟨-, hrest⟩
    · rw [Nat.sub_self, List.take_zero]
      exact Text.noDigit_nil
    · -- What follows begins as before, if any of it is taken.
      intro c hc
      refine hrest c ?_
      cases rest with
      | nil => simp at hc
      | cons d cs =>
          cases hleft : most - ds.length with
          | zero => simp [hleft] at hc
          | succ k => simpa [hleft] using hc
  have hbytes : ¬ Text.byteCount (ds ++ rest) < least := by
    have hle := Text.length_le_byteCount (ds ++ rest)
    rw [List.length_append] at hle
    omega
  simp only [readNumber, if_neg hbytes, htaken, if_neg (Nat.not_lt.mpr hleast),
    if_neg (Nat.not_le.mpr hvalue), List.drop_left']

/-- A number that was padded to its width is read back. -/
theorem readNumber_padded (h : n < 10 ^ width) (hwidth : 0 < width) (hvalue : n < 2 ^ 63) :
    readNumber width width (padded width n ++ rest) = .ok (n, rest) := by
  have hlength := Text.length_padded h hwidth
  rw [readNumber_digits (fun _ => Text.isDigit_of_mem_padded) (Nat.le_of_eq hlength.symm)
    (.inl hlength) (by rwa [Text.digitsValue_padded]), Text.digitsValue_padded]

/-- A number that fills its width is read back, if it is within the bounds. -/
theorem readBounded_padded (h : n < 10 ^ width) (hwidth : 0 < width) (hvalue : n < 2 ^ 63)
    (hlow : low ≤ n) (hhigh : n ≤ high) :
    readBounded width low high (padded width n ++ rest) width = .ok (n, rest) := by
  simp only [readBounded, readNumber_padded h hwidth hvalue, bind, Except.bind]
  rw [if_pos ⟨hlow, hhigh⟩]

/-- Six places are read as nanoseconds. -/
theorem readPlaces_padded (h : n < 10 ^ 6) (hrest : Text.NoDigit rest) :
    readPlaces ('.' :: (padded 6 n ++ rest)) = .ok (n * 1000, rest) := by
  have hlength := Text.length_padded h (by decide)
  have hread : readNumber 1 9 (padded 6 n ++ rest) = .ok (n, rest) := by
    rw [readNumber_digits (fun _ => Text.isDigit_of_mem_padded) (by omega)
      (.inr ⟨by omega, hrest⟩) (by rw [Text.digitsValue_padded]; omega), Text.digitsValue_padded]
  have hwidth : (padded 6 n ++ rest).length - rest.length = 6 := by
    rw [List.length_append]
    omega
  have hdrop : rest.dropWhile Text.isDigit = rest :=
    Text.dropWhile_digits (fun c (hc : c ∈ []) => nomatch hc) hrest
  simp only [readPlaces, hread, bind, Except.bind, hwidth, hdrop]

end Parts

/-! ### Whole texts -/

/-- The parts that a dated instant is written in make it up again. -/
theorem ofParts_eq (h : t.Dated) :
    ofParts (dateOfDays (t.seconds / 86400)) ((t.seconds % 86400).toNat / 3600)
      ((t.seconds % 86400).toNat / 60 % 60)
      ((t.seconds % 86400).toNat % 60 + t.nanos / 1000000000)
      (t.nanos % 1000000000 / 1000 * 1000) 0 = .ok t.truncated := by
  obtain ⟨hyear, hnanos, hleap⟩ := h
  have hdays := (year_dateOfDays_mem_iff _).mp hyear
  have hrange : inRange t.seconds = true := by
    have hleast : leastSecond ≤ t.seconds := by
      unfold leastSecond
      omega
    have hgreatest : t.seconds ≤ greatestSecond := by
      unfold greatestSecond
      omega
    simp [inRange, hleast, hgreatest]
  have hvalid : ¬ ((!(dateOfDays (t.seconds / 86400)).isValid) = true ∨
      (86340 : Int) < 0 ∨ (0 : Int) < -86340) := by
    simp [isValid_dateOfDays]
  -- The sixtieth second stands for the one before it.
  have hsecond : (if (t.seconds % 86400).toNat % 60 + t.nanos / 1000000000 = 60 then
        (59, t.nanos % 1000000000 / 1000 * 1000 + 1000000000)
      else ((t.seconds % 86400).toNat % 60 + t.nanos / 1000000000,
        t.nanos % 1000000000 / 1000 * 1000))
      = ((t.seconds % 86400).toNat % 60, t.nanos / 1000 * 1000) := by
    split
    · refine Prod.ext ?_ ?_ <;> simp only <;> omega
    · refine Prod.ext ?_ ?_ <;> simp only <;> omega
  have hseconds : daysOfDate (dateOfDays (t.seconds / 86400)) * 86400
      + ((t.seconds % 86400).toNat / 3600 : Nat) * 3600
      + ((t.seconds % 86400).toNat / 60 % 60 : Nat) * 60
      + ((t.seconds % 86400).toNat % 60 : Nat) - 0 = t.seconds := by
    rw [daysOfDate_dateOfDays]
    omega
  simp only [ofParts, if_neg hvalid, hsecond, hseconds, hrange, if_pos]
  rfl

/-- A date of the calendar has the month and the day that a text may have. -/
theorem bounds_of_isValid {date : Date} (h : date.isValid = true) :
    1 ≤ date.month ∧ date.month ≤ 12 ∧ 1 ≤ date.day ∧ date.day ≤ 31 := by
  simp only [Date.isValid, Bool.and_eq_true, decide_eq_true_iff] at h
  have hdays : daysInMonth date.year date.month ≤ 31 := by
    unfold daysInMonth
    split
    · split <;> omega
    · split <;> omega
  omega

/-- The written form of a dated instant, part by part. -/
theorem toList_microText (h : t.Dated) {date : Date}
    (hdate : dateOfDays (t.seconds / 86400) = date) :
    t.microText.toList = padded 4 date.year.toNat ++ ('-' :: (padded 2 date.month ++
      ('-' :: (padded 2 date.day ++ ('T' :: (padded 2 ((t.seconds % 86400).toNat / 3600) ++
      (':' :: (padded 2 ((t.seconds % 86400).toNat / 60 % 60) ++
      (':' :: (padded 2 ((t.seconds % 86400).toNat % 60 + t.nanos / 1000000000) ++
      ('.' :: (padded 6 (t.nanos % 1000000000 / 1000) ++ ['Z'])))))))))))) := by
  have hyear := h.year_mem
  rw [hdate] at hyear
  simp only [microText, secondText, yearText, hdate, if_pos hyear, String.toList_ofList,
    List.append_assoc, List.cons_append]

/-- A dated instant is read back as it was written, but for what is below a
microsecond. -/
theorem ofText_microText (h : t.Dated) : ofText t.microText = .ok t.truncated := by
  have hparts := ofParts_eq h
  obtain ⟨hyear, hnanos, hleap⟩ := id h
  have hbounds := bounds_of_isValid (isValid_dateOfDays (t.seconds / 86400))
  rw [ofText, toList_microText h rfl]
  generalize dateOfDays (t.seconds / 86400) = date at hparts hbounds hyear ⊢
  have hback : ((date.year.toNat : Nat) : Int) = date.year := by omega
  -- Each part is read as it was written, whatever follows.
  have hreadYear (rest : List Char) :
      readNumber 4 4 (padded 4 date.year.toNat ++ rest) = .ok (date.year.toNat, rest) :=
    readNumber_padded (by omega) (by decide) (by omega)
  have hread (low high n : Nat) (hlow : low ≤ n) (hhigh : n ≤ high) (hlt : n < 100)
      (rest : List Char) : readBounded 2 low high (padded 2 n ++ rest) 2 = .ok (n, rest) :=
    readBounded_padded (by omega) (by decide) (by omega) hlow hhigh
  have hmonth := hread 1 12 _ hbounds.1 hbounds.2.1 (by omega)
  have hday := hread 1 31 _ hbounds.2.2.1 hbounds.2.2.2 (by omega)
  have hhour := hread 0 23 ((t.seconds % 86400).toNat / 3600) (by omega) (by omega) (by omega)
  have hminute := hread 0 59 ((t.seconds % 86400).toNat / 60 % 60) (by omega) (by omega)
    (by omega)
  have hsecond := hread 0 60 ((t.seconds % 86400).toNat % 60 + t.nanos / 1000000000)
    (by omega) (by omega) (by omega)
  have hplaces : readPlaces ('.' :: (padded 6 (t.nanos % 1000000000 / 1000) ++ ['Z']))
      = .ok (t.nanos % 1000000000 / 1000 * 1000, ['Z']) :=
    readPlaces_padded (by omega) (Text.noDigit_cons rfl)
  have hchar (c : Char) (rest : List Char) : readChar c (c :: rest) = .ok rest := if_pos rfl
  have hmark (rest : List Char) : readMark ('T' :: rest) = .ok rest := rfl
  have hzone : readOffset (readChar ':') ['Z'] = .ok (0, []) := rfl
  simp only [Text.ok_bind, hreadYear, hmonth, hday, hhour, hminute, hsecond, hplaces, hchar, hmark,
    hzone, hback, hparts]
  rfl

end StoreBench.Instant
