import Mathlib.Data.List.Forall2
import StoreBench.Proofs.Time.Instant

/-!
# `StoreBench.Proofs.Time.Chronology`: texts in the order of time

Instants that are written with six places sort as texts like the instants
themselves, cut off below the microsecond (`microText_lt_iff`).

There are two halves to it. A later day has a later date, by year, month and day
(`dateOfDays_before`): the years that begin in March follow each other without a
gap (`Position.lt_yearStart`), and inside one of them the months go by the day.
And numbers that fill a fixed width sort like their values, so that a text made
of several is compared number by number (`fields_lt`).
-/

set_option autoImplicit false

namespace StoreBench

/-! ### Dates -/

namespace Time

/-- Earlier in the calendar: by the year, then the month, then the day. -/
def Date.Before (d e : Date) : Prop :=
  d.year < e.year ∨ d.year = e.year ∧ (d.month < e.month ∨ d.month = e.month ∧ d.day < e.day)

/-- The first day of a year that begins in March, counted like the days of eras. -/
def yearStart (year : Int) : Int := 365 * year + year / 4 - year / 100 + year / 400

/-- Later years begin later. Leap days are only ever added. -/
theorem yearStart_mono {year later : Int} (h : year ≤ later) :
    yearStart year ≤ yearStart later := by
  unfold yearStart
  omega

variable {days era year month dayOfYear : Int}

/-- A day is its year's first day and the days since, with eras and years counted in one
go. -/
theorem Position.yearStart_eq (h : Position days era year month dayOfYear) :
    days + 719468 = yearStart (era * 400 + year) + dayOfYear := by
  obtain ⟨hyear0, hyear400⟩ := h.year_mem
  have hdays := h.days_eq
  unfold daysBefore at hdays
  unfold yearStart
  omega

/-- A day comes before the next year begins. -/
theorem Position.lt_yearStart (h : Position days era year month dayOfYear) :
    days + 719468 < yearStart (era * 400 + year + 1) := by
  have hstart := h.yearStart_eq
  have hlast := h.dayOfYear_le
  have hleap := h.leap
  have hnext : yearStart (era * 400 + year) + 365 ≤ yearStart (era * 400 + year + 1) := by
    unfold yearStart
    omega
  by_cases hday : dayOfYear = 365
  · -- Only a leap year has this day.
    have hlonger : yearStart (era * 400 + year) + 366 ≤ yearStart (era * 400 + year + 1) := by
      have hrule := hleap hday
      unfold yearStart
      omega
    omega
  · omega

/-- A later day has a later date. The years from March decide it, or the months and days
inside one of them. -/
theorem dateOfDays_before {a b : Int} (h : a < b) : (dateOfDays a).Before (dateOfDays b) := by
  obtain ⟨era, year, month, dayOfYear, ha, hdate⟩ := dateOfDays_eq a
  obtain ⟨era', year', month', dayOfYear', hb, hdate'⟩ := dateOfDays_eq b
  rw [hdate, hdate']
  have hstart := ha.yearStart_eq
  have hstart' := hb.yearStart_eq
  have hnext' := hb.lt_yearStart
  obtain ⟨hmonth0, hmonth11⟩ := ha.month_mem
  obtain ⟨hmonth0', hmonth11'⟩ := hb.month_mem
  have hle := ha.month_le
  have hlt := ha.lt_next
  have hle' := hb.month_le
  have hlt' := hb.lt_next
  have hyears : era * 400 + year ≤ era' * 400 + year' := by
    by_contra hlater
    have := yearStart_mono (show era' * 400 + year' + 1 ≤ era * 400 + year by omega)
    omega
  rcases Int.lt_or_eq_of_le hyears with hearlier | hsame
  · -- The date changes its year in January, two months before the next March.
    simp only [Date.Before, Position.date]
    split <;> split <;> omega
  · have hday : dayOfYear < dayOfYear' := by
      rw [hsame] at hstart
      omega
    have hmonths : month ≤ month' := by omega
    simp only [Date.Before, Position.date]
    split <;> split <;> omega

end Time

/-! ### Numbers of fixed width -/

namespace Text

/-- Lists are compared by what comes first in them. -/
theorem append_lt_append {as bs cs ds : List Char} (hlength : as.length = bs.length)
    (h : as < bs) : as ++ cs < bs ++ ds := by
  induction as generalizing bs with
  | nil =>
      obtain rfl := List.length_eq_zero_iff.mp hlength.symm
      exact absurd h (List.lt_irrefl _)
  | cons a as ih =>
      match bs, hlength with
      | b :: bs, hlength =>
          rw [List.cons_append, List.cons_append, List.cons_lt_cons_iff]
          rcases List.cons_lt_cons_iff.mp h with hfirst | ⟨rfl, hrest⟩
          · exact .inl hfirst
          · exact .inr ⟨rfl, ih (Nat.succ.inj hlength) hrest⟩

/-- The first digit counts for the most, a power of ten for each digit after it. -/
theorem digitsValue_cons (c : Char) (ds : List Char) :
    digitsValue (c :: ds) = (c.toNat - 48) * 10 ^ ds.length + digitsValue ds := by
  have hfrom (ds : List Char) (n : Nat) :
      ds.foldl (fun n c => n * 10 + (c.toNat - 48)) n = n * 10 ^ ds.length + digitsValue ds := by
    induction ds generalizing n with
    | nil => simp [digitsValue]
    | cons c rest ih =>
        rw [digitsValue, List.foldl_cons, List.foldl_cons, ih, ih (0 * 10 + _), List.length_cons,
          Nat.pow_succ, Nat.zero_mul, Nat.zero_add, Nat.add_mul, Nat.mul_assoc, Nat.mul_comm 10,
          Nat.add_assoc]
  rw [digitsValue, List.foldl_cons, hfrom, Nat.zero_mul, Nat.zero_add]

/-- Digits are ten characters in a row. -/
theorem digit_le {c : Char} (h : isDigit c = true) : 48 ≤ c.toNat ∧ c.toNat ≤ 57 := by
  simp only [isDigit, Bool.and_eq_true, decide_eq_true_iff] at h
  exact ⟨h.1, h.2⟩

/-- So many digits are less than the power of ten that has one digit more. -/
theorem digitsValue_lt {ds : List Char} (h : ∀ c ∈ ds, isDigit c = true) :
    digitsValue ds < 10 ^ ds.length := by
  induction ds with
  | nil => exact Nat.one_pos
  | cons c rest ih =>
      have hc := digit_le (h c List.mem_cons_self)
      have hrest := ih fun d hd => h d (List.mem_cons_of_mem _ hd)
      have hle : (c.toNat - 48) * 10 ^ rest.length ≤ 9 * 10 ^ rest.length :=
        Nat.mul_le_mul_right _ (by omega)
      rw [digitsValue_cons, List.length_cons, Nat.pow_succ]
      omega

/-- As many digits, and a smaller value: the digits come first. -/
theorem lt_of_digitsValue_lt {ds es : List Char} (hds : ∀ c ∈ ds, isDigit c = true)
    (hes : ∀ c ∈ es, isDigit c = true) (hlength : ds.length = es.length)
    (h : digitsValue ds < digitsValue es) : ds < es := by
  induction ds generalizing es with
  | nil =>
      obtain rfl := List.length_eq_zero_iff.mp hlength.symm
      exact absurd h (Nat.lt_irrefl _)
  | cons c ds ih =>
      match es, hlength with
      | d :: es, hlength =>
          have hc := digit_le (hds c List.mem_cons_self)
          have hd := digit_le (hes d List.mem_cons_self)
          replace hds := fun a ha => hds a (List.mem_cons_of_mem _ ha)
          replace hes := fun a ha => hes a (List.mem_cons_of_mem _ ha)
          replace hlength : ds.length = es.length := Nat.succ.inj hlength
          rw [digitsValue_cons, digitsValue_cons, hlength] at h
          rw [List.cons_lt_cons_iff]
          rcases Nat.lt_trichotomy c.toNat d.toNat with hlt | heq | hgt
          · exact .inl hlt
          · obtain rfl := Char.toNat_inj.mp heq
            exact .inr ⟨rfl, ih hds hes hlength (by omega)⟩
          · -- A greater first digit outweighs the rest.
            have hrest := digitsValue_lt hes
            have hle : (d.toNat - 48 + 1) * 10 ^ es.length ≤ (c.toNat - 48) * 10 ^ es.length :=
              Nat.mul_le_mul_right _ (by omega)
            rw [Nat.succ_mul] at hle
            omega

/-- Numbers that fill a width sort like their values, as zeros in front make up for
missing digits. -/
theorem padded_lt_padded {width n m : Nat} (hm : m < 10 ^ width) (hwidth : 0 < width)
    (h : n < m) : padded width n < padded width m := by
  have hlength : (padded width n).length = (padded width m).length := by
    rw [length_padded hm hwidth, length_padded (Nat.lt_trans h hm) hwidth]
  refine lt_of_digitsValue_lt (fun _ => isDigit_of_mem_padded) (fun _ => isDigit_of_mem_padded)
    hlength ?_
  rwa [digitsValue_padded, digitsValue_padded]

/-- Numbers in fields of fixed width, each followed by a mark. -/
def fields : List (Nat × Char) → List Nat → List Char
  | (width, mark) :: shape, n :: ns => padded width n ++ mark :: fields shape ns
  | _, _ => []

/-- A number fits its field, which is at least one digit wide. -/
def FitsField (field : Nat × Char) (n : Nat) : Prop := 0 < field.1 ∧ n < 10 ^ field.1

/-- Texts of fields sort like the lists of the numbers. -/
theorem fields_lt {shape : List (Nat × Char)} {ns ms : List Nat}
    (hns : List.Forall₂ FitsField shape ns) (hms : List.Forall₂ FitsField shape ms) (h : ns < ms) :
    fields shape ns < fields shape ms := by
  induction hns generalizing ms with
  | nil =>
      cases hms
      exact absurd h (List.lt_irrefl _)
  | @cons field n shape ns hn hns ih =>
      obtain ⟨width, mark⟩ := field
      cases hms with
      | @cons _ m _ ms hm hms =>
          rcases List.cons_lt_cons_iff.mp h with hfirst | ⟨rfl, hrest⟩
          · refine append_lt_append ?_ (padded_lt_padded hm.2 hm.1 hfirst)
            rw [length_padded hn.2 hn.1, length_padded hm.2 hm.1]
          · refine List.append_left_lt (List.cons_lt_cons_iff.mpr (.inr ⟨rfl, ih hms hrest⟩))

end Text

/-! ### Instants -/

namespace Instant

open Time

variable {a b t : Instant}

/-- Earlier in time. A leap second comes after the second that it belongs to, and
before the next one. -/
def Before (a b : Instant) : Prop :=
  a.seconds < b.seconds ∨ a.seconds = b.seconds ∧ a.nanos < b.nanos

instance (a b : Instant) : Decidable (a.Before b) := inferInstanceAs (Decidable (_ ∨ _))

/-- Of two instants one is earlier, or they are the same. So it is enough to show that
the texts keep the order. -/
theorem before_trichotomy (a b : Instant) : a.Before b ∨ a = b ∨ b.Before a := by
  obtain ⟨s, n⟩ := a
  obtain ⟨s', n'⟩ := b
  simp only [Before, mk.injEq]
  omega

/-- The numbers that an instant is written in. -/
def parts (t : Instant) : List Nat :=
  let date := dateOfDays (t.seconds / 86400)
  let ofDay := (t.seconds % 86400).toNat
  [date.year.toNat, date.month, date.day, ofDay / 3600, ofDay / 60 % 60,
    ofDay % 60 + t.nanos / 1000000000, t.nanos % 1000000000 / 1000]

/-- The fields that they are written into, each with its width and the character that
follows it. -/
def microShape : List (Nat × Char) :=
  [(4, '-'), (2, '-'), (2, 'T'), (2, ':'), (2, ':'), (2, '.'), (6, 'Z')]

/-- The text of an instant is its parts in these fields, one after the other. -/
theorem toList_microText_eq (h : t.Dated) : t.microText.toList = Text.fields microShape t.parts :=
  toList_microText h rfl

/-- The parts of an instant of the four-digit years fit their fields, a leap second's
too. -/
theorem fits_parts (h : t.Dated) : List.Forall₂ Text.FitsField microShape t.parts := by
  obtain ⟨hyear, hnanos, -⟩ := h
  have hbounds := bounds_of_isValid (isValid_dateOfDays (t.seconds / 86400))
  simp only [microShape, parts, List.forall₂_cons, List.forall₂_nil_left_iff, Text.FitsField,
    and_true]
  omega

/-- Of two times of one day, the earlier one is written in earlier numbers. A leap
second is the last of its minute. -/
theorem timeOfDay_lt (s n s' n' : Nat) (hn : n < 2000000000)
    (hleap : 1000000000 ≤ n → s % 60 = 59)
    (h : s < s' ∨ s = s' ∧ n / 1000 < n' / 1000) :
    [s / 3600, s / 60 % 60, s % 60 + n / 1000000000, n % 1000000000 / 1000]
      < [s' / 3600, s' / 60 % 60, s' % 60 + n' / 1000000000, n' % 1000000000 / 1000] := by
  simp only [List.cons_lt_cons_iff, List.not_lt_nil, and_false, or_false]
  rcases h with hseconds | ⟨rfl, hnanos⟩
  · by_cases hminute : s / 60 < s' / 60
    · have hhour : s / 3600 < s' / 3600 ∨ s / 3600 = s' / 3600 ∧ s / 60 % 60 < s' / 60 % 60 := by
        omega
      exact hhour.imp_right fun ⟨hsame, hlt⟩ => ⟨hsame, .inl hlt⟩
    · have hsame : s / 60 = s' / 60 := by omega
      have hhour : s / 3600 = s' / 3600 := by omega
      -- The earlier second is not the last of the minute.
      have hsecond : s % 60 + n / 1000000000 < s' % 60 + n' / 1000000000 := by omega
      exact .inr ⟨hhour, .inr ⟨by rw [hsame], .inl hsecond⟩⟩
  · refine .inr ⟨rfl, .inr ⟨rfl, ?_⟩⟩
    omega

/-- What is earlier by a microsecond at least is written in earlier numbers. -/
theorem parts_lt (ha : a.Dated) (hb : b.Dated) (h : a.truncated.Before b.truncated) :
    a.parts < b.parts := by
  obtain ⟨hyear, hnanos, hleap⟩ := ha
  obtain ⟨hyear', -, -⟩ := hb
  simp only [Before, truncated] at h
  have hdays : a.seconds / 86400 ≤ b.seconds / 86400 := by omega
  rcases Int.lt_or_eq_of_le hdays with hearlier | hsame
  · have hdate := dateOfDays_before hearlier
    simp only [Date.Before] at hdate
    simp only [parts, List.cons_lt_cons_iff]
    omega
  · have htime := timeOfDay_lt (a.seconds % 86400).toNat a.nanos (b.seconds % 86400).toNat b.nanos
      hnanos (by omega) (by omega)
    rw [parts, parts, hsame]
    exact List.cons_lt_cons_iff.mpr (.inr ⟨rfl, List.cons_lt_cons_iff.mpr (.inr ⟨rfl,
      List.cons_lt_cons_iff.mpr (.inr ⟨rfl, htime⟩)⟩)⟩)

/-- The text does not show what is below a microsecond. -/
theorem microText_truncated (t : Instant) : t.truncated.microText = t.microText := by
  have hsecond : t.nanos / 1000 * 1000 / 1000000000 = t.nanos / 1000000000 := by omega
  have hplaces : t.nanos / 1000 * 1000 % 1000000000 / 1000 = t.nanos % 1000000000 / 1000 := by
    omega
  simp only [microText, secondText, truncated, hsecond, hplaces]

/-- Two instants have one text just when they are the same to the microsecond. -/
theorem microText_eq_iff (ha : a.Dated) (hb : b.Dated) :
    a.microText = b.microText ↔ a.truncated = b.truncated := by
  constructor
  · intro h
    have hread := ofText_microText ha
    rw [h, ofText_microText hb] at hread
    exact (Except.ok.inj hread).symm
  · intro h
    rw [← microText_truncated a, h, microText_truncated]

/-- The texts are in the order of the instants, to the microsecond. -/
theorem microText_lt_iff (ha : a.Dated) (hb : b.Dated) :
    a.microText < b.microText ↔ a.truncated.Before b.truncated := by
  have hmono {a b : Instant} (ha : a.Dated) (hb : b.Dated) (h : a.truncated.Before b.truncated) :
      a.microText < b.microText := by
    rw [String.lt_iff, toList_microText_eq ha, toList_microText_eq hb]
    exact Text.fields_lt (fits_parts ha) (fits_parts hb) (parts_lt ha hb h)
  refine ⟨fun h => ?_, hmono ha hb⟩
  rcases before_trichotomy a.truncated b.truncated with hbefore | hsame | hafter
  · exact hbefore
  · rw [(microText_eq_iff ha hb).mpr hsame] at h
    exact absurd h (String.lt_irrefl _)
  · exact absurd h (String.lt_asymm (hmono hb ha hafter))

end Instant

end StoreBench
