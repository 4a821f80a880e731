import Mathlib.Tactic.IntervalCases
import StoreBench.Time.Calendar

/-!
# `StoreBench.Proofs.Time.Calendar`: days and dates

A count of days and a date are two names of one day: `daysOfDate` takes the date
of a count back to it (`daysOfDate_dateOfDays`), and every date that comes from a
count is one of the calendar (`isValid_dateOfDays`).

`dateOfDays` guesses the year from the day of its era, by a division that takes
the leap days out first. `yearOfEra_spec` says that the guess is right: the year
begins on that day or before, and the next one after it. The rest is `Position`,
a day by era, year, month from March and day of the year.
-/

set_option autoImplicit false

namespace StoreBench.Time

/-- The days of an era before one of its years, each of which begins in March. -/
def daysBefore (year : Int) : Int := 365 * year + year / 4 - year / 100

/-- The year of an era to which one of its days belongs. -/
def yearOfEra (day : Int) : Int := (day - day / 1460 + day / 36524 - day / 146096) / 365

/-- Inside an era, a day is in a century, in four years of that, and in one of
these. The last of the four is one day longer, but for the last of a century. -/
theorem yearOfEra_eq {day century four rest year : Int} (hyear : 0 ≤ year ∧ year ≤ 3)
    (hcentury : 0 ≤ century ∧ century ≤ 3) (hfour : 0 ≤ four ∧ four ≤ 24)
    (hday : day = 36524 * century + 1461 * four + rest) (hlast : four = 24 → rest < 1460)
    (hfrom : 365 * year ≤ rest) (hto : rest < 365 * (year + 1) ∨ year = 3 ∧ rest ≤ 1460) :
    yearOfEra day = 100 * century + 4 * four + year := by
  have hera : day / 146096 = 0 := by omega
  have hcenturies : day / 36524 = century := by omega
  have hleap : day / 1460 = 25 * century + four + (24 * century + four + rest) / 1460 := by omega
  have hextra : 0 ≤ (24 * century + four + rest) / 1460 ∧
      (24 * century + four + rest) / 1460 ≤ 1 := by omega
  rw [yearOfEra, hera, hcenturies, hleap]
  omega

/-- The year of a day begins on that day or before, and the next one after it,
unless it is the last of the era. -/
theorem yearOfEra_spec {day : Int} (hfirst : 0 ≤ day) (hlast : day < 146097) :
    0 ≤ yearOfEra day ∧ yearOfEra day < 400 ∧ daysBefore (yearOfEra day) ≤ day ∧
    (day < daysBefore (yearOfEra day + 1) ∨ yearOfEra day = 399 ∧ day ≤ 146096) := by
  by_cases hend : day = 146096
  · -- The day that four hundred years have more than four centuries.
    subst hend
    decide
  have hdiv (rest : Int) (h : 0 ≤ rest ∧ rest ≤ 1460) :
      ∃ year, 0 ≤ year ∧ year ≤ 3 ∧ 365 * year ≤ rest ∧
        (rest < 365 * (year + 1) ∨ year = 3 ∧ rest ≤ 1460) :=
    ⟨min (rest / 365) 3, by omega⟩
  obtain ⟨year, hyear0, hyear3, hfrom, hto⟩ := hdiv (day % 36524 % 1461) (by omega)
  have hyear : yearOfEra day = 100 * (day / 36524) + 4 * (day % 36524 / 1461) + year :=
    yearOfEra_eq ⟨hyear0, hyear3⟩ (by omega) (by omega) (by omega) (by omega) hfrom hto
  rw [hyear]
  -- What the year is made of tells its leap days, and those of the next one.
  generalize hcentury : day / 36524 = century at hyear ⊢
  generalize hfour : day % 36524 / 1461 = four at hyear ⊢
  have hbounds : 0 ≤ century ∧ century ≤ 3 ∧ 0 ≤ four ∧ four ≤ 24 := by omega
  have hleap : (100 * century + 4 * four + year) / 4 = 25 * century + four := by omega
  have hnot : (100 * century + 4 * four + year) / 100 = century := by omega
  refine ⟨by omega, by omega, ?_, .inl ?_⟩
  · rw [daysBefore, hleap, hnot]
    omega
  · rw [daysBefore]
    by_cases hthird : year = 3
    · have hnext : (100 * century + 4 * four + year + 1) / 4 = 25 * century + four + 1 := by omega
      have hnotnext : four < 24 → (100 * century + 4 * four + year + 1) / 100 = century := by omega
      have hle : (100 * century + 4 * four + year + 1) / 100 ≤ century + 1 := by omega
      omega
    · have hnext : (100 * century + 4 * four + year + 1) / 4 = 25 * century + four := by omega
      have hnotnext : (100 * century + 4 * four + year + 1) / 100 = century := by omega
      omega

/-- A day as `dateOfDays` finds it. The day of the year is counted from March, and
the leap day comes last. -/
structure Position (days era year month dayOfYear : Int) : Prop where
  year_mem : 0 ≤ year ∧ year < 400
  month_mem : 0 ≤ month ∧ month ≤ 11
  month_le : (153 * month + 2) / 5 ≤ dayOfYear
  lt_next : dayOfYear < (153 * (month + 1) + 2) / 5
  dayOfYear_le : dayOfYear ≤ 365
  leap : dayOfYear = 365 → (year + 1) % 4 = 0 ∧ ((year + 1) % 100 ≠ 0 ∨ (year + 1) % 400 = 0)
  days_eq : days + 719468 = era * 146097 + daysBefore year + dayOfYear

/-- The date of a day, with the years of the calendar, which begin in January. -/
def Position.date (era year month dayOfYear : Int) : Date :=
  ⟨year + era * 400 + (if month < 10 then 0 else 1),
    (if month < 10 then month + 3 else month - 9).toNat,
    (dayOfYear - (153 * month + 2) / 5 + 1).toNat⟩

/-- Every day has a position, and its date is read off that. All that is shown of
`dateOfDays` comes from here. -/
theorem dateOfDays_eq (days : Int) : ∃ era year month dayOfYear,
    Position days era year month dayOfYear ∧
    dateOfDays days = Position.date era year month dayOfYear := by
  obtain ⟨hyear0, hyear400, hbegun, hnext⟩ :=
    yearOfEra_spec (Int.emod_nonneg (days + 719468) (by decide))
      (Int.emod_lt_of_pos (days + 719468) (by decide : (0 : Int) < 146097))
  generalize hday : (days + 719468) % 146097 = day at hyear0 hyear400 hbegun hnext
  generalize hyear : yearOfEra day = year at hyear0 hyear400 hbegun hnext
  -- The day is one of its year, and the last one only in a leap year.
  have hrest : 0 ≤ day - daysBefore year ∧ day - daysBefore year ≤ 365 ∧
      (day - daysBefore year = 365 →
        (year + 1) % 4 = 0 ∧ ((year + 1) % 100 ≠ 0 ∨ (year + 1) % 400 = 0)) := by
    unfold daysBefore at hbegun hnext ⊢
    have hcentury : year / 100 ≤ (year + 1) / 100 := by omega
    have hfour : (year + 1) / 4 ≤ year / 4 + 1 := by omega
    omega
  refine ⟨(days + 719468) / 146097, year, (5 * (day - daysBefore year) + 2) / 153,
    day - daysBefore year, ⟨⟨hyear0, hyear400⟩, by omega, by omega, by omega, hrest.2.1,
      hrest.2.2, by omega⟩, ?_⟩
  -- January and February are the months after December here.
  have hmonth : (if (5 * (day - daysBefore year) + 2) / 153 < 10 then
      (5 * (day - daysBefore year) + 2) / 153 + 3
        else (5 * (day - daysBefore year) + 2) / 153 - 9) ≤ 2 ↔
      ¬ (5 * (day - daysBefore year) + 2) / 153 < 10 := by
    split <;> omega
  simp only [dateOfDays, Position.date, hday, ← yearOfEra.eq_def, hyear, ← daysBefore.eq_def,
    hmonth, Date.mk.injEq, and_true]
  split <;> simp_all

/-- The day of a date is the day that the date was made of. -/
theorem Position.daysOfDate {days era year month dayOfYear : Int}
    (h : Position days era year month dayOfYear) :
    daysOfDate (Position.date era year month dayOfYear) = days := by
  obtain ⟨⟨hyear0, hyear400⟩, ⟨hmonth0, hmonth11⟩, hle, hlt, -, -, hdays⟩ := h
  have hera : (year + era * 400) / 400 = era := by omega
  have hyear : (year + era * 400) % 400 = year := by omega
  have hday : ((dayOfYear - (153 * month + 2) / 5 + 1).toNat : Int)
      = dayOfYear - (153 * month + 2) / 5 + 1 := by omega
  unfold daysBefore at hdays
  by_cases hearly : month < 10
  · have hafter : ¬ (month + 3).toNat ≤ 2 := by omega
    have hmonth : (((month + 3).toNat : Int) + 9) % 12 = month := by omega
    simp only [Time.daysOfDate, Position.date, if_pos hearly, if_neg hafter, Int.add_zero, hera,
      hyear, hmonth, hday]
    omega
  · -- January and February are the last months of the year before.
    have hbefore : (month - 9).toNat ≤ 2 := by omega
    have hmonth : (((month - 9).toNat : Int) + 9) % 12 = month := by omega
    simp only [Time.daysOfDate, Position.date, if_neg hearly, if_pos hbefore, Int.add_sub_cancel,
      hera, hyear, hmonth, hday]
    omega

/-- The date at a position is in the calendar. Months from March have the lengths that
the calendar gives them, and the leap day comes last. -/
theorem Position.isValid {days era year month dayOfYear : Int}
    (h : Position days era year month dayOfYear) :
    (Position.date era year month dayOfYear).isValid = true := by
  obtain ⟨⟨hyear0, hyear400⟩, ⟨hmonth0, hmonth11⟩, hle, hlt, hyearday, hleap, hdays⟩ := h
  have hleapYear : dayOfYear = 365 → isLeapYear (year + era * 400 + 1) = true := by
    intro hlast
    have hrule := hleap hlast
    simp only [isLeapYear, Bool.and_eq_true, Bool.or_eq_true, decide_eq_true_eq, ne_eq,
      decide_not, Bool.not_eq_true', decide_eq_false_iff_not]
    omega
  rcases Int.lt_or_eq_of_le hmonth11 with hmonth | rfl
  · -- Each month has the days up to the next one.
    interval_cases month <;> simp [Position.date, Date.isValid, daysInMonth] <;> omega
  · -- February has those that are left of the year.
    by_cases hlast : dayOfYear = 365
    · simp [Position.date, Date.isValid, daysInMonth, hlast, hleapYear hlast]
    · simp [Position.date, Date.isValid, daysInMonth]
      split <;> omega

/-- Years of four digits are those from the first day of year 0 to the last one of
year 9999. -/
theorem Position.year_mem_iff {days era year month dayOfYear : Int}
    (h : Position days era year month dayOfYear) :
    0 ≤ (Position.date era year month dayOfYear).year ∧
      (Position.date era year month dayOfYear).year ≤ 9999 ↔
    -719528 ≤ days ∧ days ≤ 2932896 := by
  obtain ⟨⟨hyear0, hyear400⟩, ⟨hmonth0, hmonth11⟩, hle, hlt, hyearday, -, hdays⟩ := h
  have hlast : daysBefore year ≤ 145366 ∨ year = 399 ∧ daysBefore year = 145731 := by
    unfold daysBefore
    omega
  have hbefore : 365 * year ≤ daysBefore year := by
    unfold daysBefore
    omega
  simp only [Position.date]
  by_cases hearly : month < 10
  · rw [if_pos hearly]
    have : dayOfYear ≤ 305 := by omega
    omega
  · rw [if_neg hearly]
    have : 306 ≤ dayOfYear := by omega
    omega

/-! ### Dates of days -/

/-- The date of a day is the date of this day only, as the day can be counted back from
it. -/
theorem daysOfDate_dateOfDays (days : Int) : daysOfDate (dateOfDays days) = days := by
  obtain ⟨era, year, month, dayOfYear, h, he⟩ := dateOfDays_eq days
  rw [he, h.daysOfDate]

/-- Every day has a date that is in the calendar. -/
theorem isValid_dateOfDays (days : Int) : (dateOfDays days).isValid = true := by
  obtain ⟨era, year, month, dayOfYear, h, he⟩ := dateOfDays_eq days
  rw [he, h.isValid]

/-- The days whose year has four digits. Outside them an instant is written with a sign
or with more digits. -/
theorem year_dateOfDays_mem_iff (days : Int) :
    0 ≤ (dateOfDays days).year ∧ (dateOfDays days).year ≤ 9999 ↔
      -719528 ≤ days ∧ days ≤ 2932896 := by
  obtain ⟨era, year, month, dayOfYear, h, he⟩ := dateOfDays_eq days
  rw [he, h.year_mem_iff]

end StoreBench.Time
