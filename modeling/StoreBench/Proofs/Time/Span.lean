import Mathlib.Tactic.Ring
import StoreBench.Proofs.Text.Digits
import StoreBench.Time.Span

/-!
# `StoreBench.Proofs.Time.Span`: spans that are written and read back

A span is written as a list of counts, each with a unit, and the zero ones are left
out. The reader goes over the text once. It takes the digits of a count
(`foldlM_digits`) and the letters of its unit (`foldlM_letters`), and adds the count
to the total at the blank after it, or at the end.

Adding checks that words hold what is added. `Count.Fits` says what a count needs for
that: its number is a word, and units below a second do not add up to one. Then the
total has only to stay below the largest span (`addItem_count`), and a list of counts
is read as their sum (`read_counts`). The counts of a span are such a list, and their
sum is the span (`ofText_text`).
-/

set_option autoImplicit false

namespace StoreBench.Span

/-- The nanoseconds that a span cannot have, as its seconds are a word. -/
def limit : Nat := 2 ^ 64 * 1000000000

/-- A number of units, under the name that the unit is written with. -/
structure Count where
  number : Nat
  unit : TimeUnit
  name : String

namespace Count

/-- A count as it is written, with nothing between number and name. -/
def text (c : Count) : String := String.ofList (digitsOf c.number) ++ c.name

/-- The nanoseconds that it stands for. Those of all counts together are the span's. -/
def nanos (c : Count) : Nat := c.number * c.unit.nanos

/-- The name is that of the unit, and the words of the reader hold the count. -/
structure Fits (c : Count) : Prop where
  name_eq : TimeUnit.ofName? c.name = some c.unit
  number_lt : c.number < wordLimit
  whole : 1000000000 ≤ c.unit.nanos ∧ c.unit.nanos % 1000000000 = 0 ∨
    c.unit.nanos < 1000000000 ∧ c.nanos < 1000000000

end Count

variable {c : Count} {n total offset since : Nat} {first : Bool}

/-! ### Adding -/

/-- What fits a word is one, and no flaw is found in it. -/
theorem word_ok (h : n < wordLimit) : word n = .ok n := if_pos h

/-- A count is added as long as the total is a span. -/
theorem addItem_count (h : c.Fits) (htotal : total + c.nanos < limit) :
    addItem total c.number none c.name = .ok (total + c.nanos) := by
  obtain ⟨hname, hnumber, hwhole⟩ := h
  have hadd : addWhole total c.unit c.number = .ok (total + c.nanos) := by
    unfold limit at htotal
    rcases hwhole with ⟨hlong, hmultiple⟩ | ⟨hshort, hbelow⟩
    · -- Seconds are counted, of which a unit has a whole number.
      have hseconds : c.number * (c.unit.nanos / 1000000000) * 1000000000 = c.nanos := by
        rw [Nat.mul_assoc, Nat.div_mul_cancel (Nat.dvd_of_mod_eq_zero hmultiple), Count.nanos]
      have hproduct : c.number * (c.unit.nanos / 1000000000) < wordLimit := by
        unfold wordLimit
        omega
      have hsum : total / 1000000000 + c.number * (c.unit.nanos / 1000000000) < wordLimit := by
        unfold wordLimit
        omega
      simp only [addWhole, TimeUnit.factor, if_neg (Nat.not_lt.mpr hlong), word_ok hproduct,
        Text.ok_bind, addSeconds, if_pos hsum, hseconds]
    · -- A short unit is added in nanoseconds, less than a second of them.
      have hproduct : c.number * c.unit.nanos < wordLimit := by
        rw [Count.nanos] at hbelow
        unfold wordLimit
        omega
      have hsum : total % 1000000000 + c.number * c.unit.nanos < wordLimit ∧
          (total + c.number * c.unit.nanos) / 1000000000 < wordLimit := by
        rw [Count.nanos] at htotal hbelow
        unfold wordLimit
        omega
      simp only [addWhole, TimeUnit.factor, if_pos hshort, word_ok hproduct, Text.ok_bind,
        addNanos, if_pos hsum, Count.nanos]
  simp only [addItem, hname, hadd, Text.ok_bind]

/-! ### One count -/

/-- A number does not get smaller by more digits, so that none on the way is too large. -/
theorem le_ofDigitChars (ds : List Char) (n : Nat) : n ≤ Nat.ofDigitChars 10 ds n := by
  rw [Nat.ofDigitChars_eq_ofDigitChars_zero]
  exact Nat.le_add_right_of_le (Nat.le_mul_of_pos_left n (Nat.pow_pos (by decide)))

/-- Digits continue a number, as long as a word holds it. -/
theorem foldlM_digits {ds : List Char} (hds : ∀ d ∈ ds, Text.isDigit d = true)
    (hlt : Nat.ofDigitChars 10 ds n < wordLimit) (total offset : Nat) :
    ∃ next, ds.foldlM step ⟨.whole n, offset, total⟩
      = .ok ⟨.whole (Nat.ofDigitChars 10 ds n), next, total⟩ := by
  induction ds generalizing n offset with
  | nil => exact ⟨offset, by rw [Nat.ofDigitChars_nil]; rfl⟩
  | cons d ds ih =>
      obtain ⟨hd, hrest⟩ := List.forall_mem_cons.mp hds
      have hvalue : n * 10 + digit d = 10 * n + (d.toNat - '0'.toNat) := by
        rw [Nat.mul_comm, digit]
        rfl
      rw [Nat.ofDigitChars_cons, ← hvalue] at hlt ⊢
      obtain ⟨next, hnext⟩ := ih hrest hlt (offset + d.utf8Size)
      refine ⟨next, ?_⟩
      have hword := word_ok (Nat.lt_of_le_of_lt (le_ofDigitChars ds (n * 10 + digit d)) hlt)
      simp only [List.foldlM_cons, step, hd, if_true, hword, Text.ok_bind]
      exact hnext

/-- A letter of a unit is none of a number, and no blank. -/
structure Letter (c : Char) : Prop where
  unit : isUnitLetter c = true
  not_digit : Text.isDigit c = false
  not_blank : Text.isBlank c = false

/-- Letters continue a unit, and are kept the last one first. -/
theorem foldlM_letters {letters : List Char} (h : ∀ l ∈ letters, Letter l) (n total : Nat)
    (before : List Char) (offset : Nat) :
    ∃ next, letters.foldlM step ⟨.unit n none before, offset, total⟩
      = .ok ⟨.unit n none (letters.reverse ++ before), next, total⟩ := by
  induction letters generalizing before offset with
  | nil => exact ⟨offset, rfl⟩
  | cons l letters ih =>
      obtain ⟨hl, hrest⟩ := List.forall_mem_cons.mp h
      obtain ⟨next, hnext⟩ := ih hrest (l :: before) (offset + l.utf8Size)
      refine ⟨next, ?_⟩
      simp only [List.foldlM_cons, step, hl.not_digit, hl.not_blank, hl.unit, Bool.false_eq_true,
        if_false, if_true, Text.ok_bind]
      rw [hnext, List.reverse_cons, List.append_assoc]
      rfl

/-- The name of a unit is made of letters, one at least. -/
theorem letters_of_name {name : String} {u : TimeUnit} (h : TimeUnit.ofName? name = some u) :
    name.toList ≠ [] ∧ ∀ l ∈ name.toList, Letter l := by
  have hmem : (name, u) ∈ TimeUnit.names := by
    obtain ⟨before, after, he, -⟩ := List.lookup_eq_some_iff.mp h
    rw [he]
    exact List.mem_append_right before List.mem_cons_self
  have hall : TimeUnit.names.all fun entry => !entry.1.toList.isEmpty &&
      entry.1.toList.all fun l => isUnitLetter l && !Text.isDigit l && !Text.isBlank l := by
    decide
  have hname := List.all_eq_true.mp hall (name, u) hmem
  simp only [Bool.and_eq_true, Bool.not_eq_true', List.isEmpty_eq_false_iff, List.all_eq_true]
    at hname
  obtain ⟨hne, hletters⟩ := hname
  exact ⟨hne, fun l hl => ⟨(hletters l hl).1.1, (hletters l hl).1.2, (hletters l hl).2⟩⟩

/-- A count is read up to its unit, which is added when the text goes on or ends. -/
theorem foldlM_count (h : c.Fits) (first : Bool) (since offset total : Nat) :
    ∃ next, c.text.toList.foldlM step ⟨.gap first since, offset, total⟩
      = .ok ⟨.unit c.number none c.name.toList.reverse, next, total⟩ := by
  obtain ⟨hname, hnumber, -⟩ := h
  obtain ⟨hne, hletters⟩ := letters_of_name hname
  obtain ⟨d, ds, hdigits⟩ := List.exists_cons_of_ne_nil (Text.digitsOf_ne_nil c.number)
  obtain ⟨l, letters, hcons⟩ := List.exists_cons_of_ne_nil hne
  have hds : ∀ x ∈ d :: ds, Text.isDigit x = true := by
    rw [← hdigits]
    exact fun _ => Text.isDigit_of_mem_digitsOf
  -- The first digit is read as the span goes over from the gap to a number.
  have hvalue : Nat.ofDigitChars 10 ds (digit d) = c.number := by
    have hall : Nat.ofDigitChars 10 (digitsOf c.number) 0 = c.number :=
      Nat.ofDigitChars_ten_toDigits
    rw [hdigits, Nat.ofDigitChars_cons, Nat.mul_zero, Nat.zero_add] at hall
    exact hall
  rw [hcons] at hletters ⊢
  obtain ⟨hd, hrest⟩ := List.forall_mem_cons.mp hds
  obtain ⟨hl, hothers⟩ := List.forall_mem_cons.mp hletters
  obtain ⟨afterDigits, hwhole⟩ := foldlM_digits hrest (by rwa [hvalue]) total
    (offset + d.utf8Size)
  obtain ⟨afterLetters, hunit⟩ := foldlM_letters hothers c.number total [l]
    (afterDigits + l.utf8Size)
  refine ⟨afterLetters, ?_⟩
  rw [hvalue] at hwhole
  simp only [Count.text, String.toList_append, String.toList_ofList, hdigits, hcons,
    List.cons_append, List.foldlM_cons, List.foldlM_append, step, hd, if_true, Text.ok_bind, hwhole,
    hl.not_digit, hl.not_blank, hl.unit, Bool.false_eq_true, if_false, hunit, List.reverse_cons]

/-! ### All counts -/

/-- Counts with blanks between them are read as their sum. -/
theorem read_counts {counts : List Count} (hne : counts ≠ []) (h : ∀ c ∈ counts, c.Fits)
    (first : Bool) (since offset total : Nat)
    (htotal : total + (counts.map Count.nanos).sum < limit) :
    (([' '].intercalate (counts.map fun c => c.text.toList)).foldlM step
        ⟨.gap first since, offset, total⟩ >>= finish)
      = .ok ⟨total + (counts.map Count.nanos).sum⟩ := by
  induction counts generalizing first since offset total with
  | nil => exact absurd rfl hne
  | cons c others ih =>
      obtain ⟨hc, hothers⟩ := List.forall_mem_cons.mp h
      obtain ⟨next, hnext⟩ := foldlM_count hc first since offset total
      rw [List.map_cons, List.sum_cons] at htotal
      have hadd := addItem_count hc (by omega : total + c.nanos < limit)
      rw [List.map_cons, List.map_cons, List.sum_cons]
      -- Either the text ends with this count, or a blank ends it.
      cases others with
      | nil =>
          simp only [List.map_nil, List.intercalate_singleton, hnext, Text.ok_bind, finish,
            List.reverse_reverse, String.ofList_toList, hadd, List.sum_nil, Nat.add_zero]
      | cons c' others =>
          have hdigit : Text.isDigit ' ' = false := rfl
          have hblank : Text.isBlank ' ' = true := rfl
          have hrest := ih nofun hothers false (next + ' '.utf8Size) (next + ' '.utf8Size)
            (total + c.nanos) (by omega)
          rw [Nat.add_assoc] at hrest
          rw [← hrest, List.map_cons, List.intercalate_cons_cons, List.append_assoc,
            List.foldlM_append, hnext, Text.ok_bind, List.singleton_append, List.foldlM_cons]
          simp only [step, hdigit, hblank, Bool.false_eq_true, if_false, if_true,
            List.reverse_reverse, String.ofList_toList, hadd, Text.ok_bind]

/-! ### The counts of a span -/

/-- A count whose unit takes an `s` in the plural. -/
def pluralCount (n : Nat) (unit : TimeUnit) (name : String) : Count :=
  ⟨n, unit, if n = 1 then name else name ++ "s"⟩

/-- The counts of whole seconds and of what is below a second, the zero ones too. -/
def countsOf (seconds rest : Nat) : List Count :=
  [ pluralCount (seconds / 31557600) .year "year",
    pluralCount (seconds % 31557600 / 2630016) .month "month",
    pluralCount (seconds % 31557600 % 2630016 / 86400) .day "day",
    ⟨seconds % 31557600 % 2630016 % 86400 / 3600, .hour, "h"⟩,
    ⟨seconds % 31557600 % 2630016 % 86400 % 3600 / 60, .minute, "m"⟩,
    ⟨seconds % 31557600 % 2630016 % 86400 % 60, .second, "s"⟩,
    ⟨rest / 1000000, .millisecond, "ms"⟩,
    ⟨rest / 1000 % 1000, .microsecond, "us"⟩,
    ⟨rest % 1000, .nanosecond, "ns"⟩ ]

/-- The counts of a span, from years to nanoseconds, zeros included. -/
def counts (s : Span) : List Count := countsOf s.seconds (s.nanos % 1000000000)

/-- The counts that are written, which are those that are not zero. -/
def written (s : Span) : List Count := s.counts.filter fun c => c.number != 0

variable {s : Span}

/-- A span is written by the counts of its units that are not zero, from the longest on. -/
theorem items_eq (s : Span) : s.items = s.written.map Count.text := by
  have hall (counts : List Count) : counts.flatMap (fun c => item c.number c.name)
      = (counts.filter fun c => c.number != 0).map Count.text := by
    induction counts with
    | nil => rfl
    | cons c rest ih =>
        rw [List.flatMap_cons, ih, item]
        by_cases hzero : c.number = 0
        · simp [hzero]
        · simp [hzero, Count.text]
  rw [written, ← hall]
  simp only [items, counts, countsOf, pluralItem, pluralCount, List.flatMap_cons, List.flatMap_nil,
    List.append_nil, List.append_assoc]

/-- Seconds in years, months, days, hours, minutes and seconds, each of the rest of the
one before. -/
theorem seconds_split (n : Nat) :
    n / 31557600 * 31557600 + n % 31557600 / 2630016 * 2630016
      + n % 31557600 % 2630016 / 86400 * 86400 + n % 31557600 % 2630016 % 86400 / 3600 * 3600
      + n % 31557600 % 2630016 % 86400 % 3600 / 60 * 60
      + n % 31557600 % 2630016 % 86400 % 60 = n := by
  omega

/-- What is below a second in milliseconds, microseconds and nanoseconds. -/
theorem nanos_split (n : Nat) :
    n / 1000000 * 1000000 + n / 1000 % 1000 * 1000 + n % 1000 = n := by
  omega

/-- Units of a second and above are seconds, and those below are nanoseconds. -/
theorem sum_units (year month day hour minute second milli micro nano unit : Nat) :
    year * (31557600 * unit) + (month * (2630016 * unit) + (day * (86400 * unit)
        + (hour * (3600 * unit) + (minute * (60 * unit) + (second * unit
          + (milli * 1000000 + (micro * 1000 + nano * 1)))))))
      = (year * 31557600 + month * 2630016 + day * 86400 + hour * 3600 + minute * 60 + second)
          * unit + (milli * 1000000 + micro * 1000 + nano) := by
  ring

/-- Every part of a time is in one count, so that together they are all of it. -/
theorem sum_countsOf (seconds rest : Nat) :
    ((countsOf seconds rest).map Count.nanos).sum = seconds * 1000000000 + rest := by
  have hplural (n : Nat) (unit : TimeUnit) (name : String) :
      (pluralCount n unit name).nanos = n * unit.nanos := rfl
  have hcount (n : Nat) (unit : TimeUnit) (name : String) :
      (Count.mk n unit name).nanos = n * unit.nanos := rfl
  -- No simplifier here: it would evaluate the products, whose factors are large.
  rw [countsOf]
  repeat rw [List.map_cons]
  repeat rw [List.sum_cons]
  rw [List.map_nil, List.sum_nil, Nat.add_zero, hplural, hplural, hplural]
  repeat rw [hcount]
  exact (sum_units _ _ _ _ _ _ _ _ _ 1000000000).trans
    (by rw [seconds_split, nanos_split])

/-- What is left out is zero, so that the counts that are written are still all of it. -/
theorem sum_written (s : Span) : (s.written.map Count.nanos).sum = s.nanos := by
  have hall (counts : List Count) :
      ((counts.filter fun c => c.number != 0).map Count.nanos).sum
        = (counts.map Count.nanos).sum := by
    induction counts with
    | nil => rfl
    | cons c rest ih =>
        by_cases hzero : c.number = 0
        · simp [hzero, ih, Count.nanos]
        · simp [hzero, ih]
  rw [written, hall, counts, sum_countsOf, seconds]
  exact Nat.div_add_mod' _ _

/-- Units of a second and above come in whole seconds, and those below do not make
up one. -/
theorem fits_counts (h : s.nanos < limit) : ∀ c ∈ s.counts, c.Fits := by
  -- There are no more of a long unit than there are seconds.
  have hseconds : s.seconds < 2 ^ 64 := by
    unfold limit at h
    unfold seconds
    omega
  have hlong {n : Nat} {unit : TimeUnit} {name : String} (hn : n ≤ s.seconds)
      (hname : TimeUnit.ofName? name = some unit)
      (hwhole : 1000000000 ≤ unit.nanos ∧ unit.nanos % 1000000000 = 0) :
      Count.Fits ⟨n, unit, name⟩ := by
    refine ⟨hname, ?_, .inl hwhole⟩
    exact Nat.lt_of_le_of_lt hn hseconds
  have hplural {n : Nat} {unit : TimeUnit} {name : String} (hn : n ≤ s.seconds)
      (hone : TimeUnit.ofName? name = some unit)
      (hmany : TimeUnit.ofName? (name ++ "s") = some unit)
      (hwhole : 1000000000 ≤ unit.nanos ∧ unit.nanos % 1000000000 = 0) :
      (pluralCount n unit name).Fits := by
    refine hlong hn ?_ hwhole
    split
    · exact hone
    · exact hmany
  -- There are less than a thousand of each short unit.
  have hshort {n : Nat} {unit : TimeUnit} {name : String} (hn : n < 1000)
      (hname : TimeUnit.ofName? name = some unit) (hbelow : unit.nanos ≤ 1000000) :
      Count.Fits ⟨n, unit, name⟩ := by
    refine ⟨hname, ?_, .inr ⟨?_, ?_⟩⟩
    · exact Nat.lt_trans hn (by decide)
    · exact Nat.lt_of_le_of_lt hbelow (by decide)
    · exact Nat.lt_of_le_of_lt (Nat.mul_le_mul (Nat.le_of_lt_succ hn) hbelow) (by decide)
  simp only [counts, countsOf, List.forall_mem_cons]
  exact ⟨hplural (by omega) rfl rfl (by decide), hplural (by omega) rfl rfl (by decide),
    hplural (by omega) rfl rfl (by decide), hlong (by omega) rfl (by decide),
    hlong (by omega) rfl (by decide), hlong (by omega) rfl (by decide),
    hshort (by omega) rfl (by decide), hshort (by omega) rfl (by decide),
    hshort (by omega) rfl (by decide), nofun⟩

/-- The text of a span other than zero begins with a digit other than zero. -/
theorem text_ne_zero {counts : List Count} (h : ∀ c ∈ counts, c.number ≠ 0) :
    [' '].intercalate (counts.map fun c => c.text.toList) ≠ ['0'] := by
  cases counts with
  | nil => nofun
  | cons c others =>
      intro hzero
      have hhead : ∃ d rest, d ≠ '0' ∧ c.text.toList = d :: rest := by
        rcases Text.digitsOf_eq_cons c.number with ⟨hnumber, -⟩ | ⟨d, ds, hdigits, -, hne⟩
        · exact absurd hnumber (h c List.mem_cons_self)
        · exact ⟨d, ds ++ c.name.toList, hne, by simp [Count.text, hdigits]⟩
      obtain ⟨d, rest, hne, htext⟩ := hhead
      cases others with
      | nil =>
          rw [List.map_cons, List.map_nil, List.intercalate_singleton, htext] at hzero
          exact hne (List.cons.inj hzero).1
      | cons c' others =>
          rw [List.map_cons, List.map_cons, List.intercalate_cons_cons, htext] at hzero
          exact hne (List.cons.inj hzero).1

/-- A span is read back from its text, if its seconds are a word. -/
theorem ofText_text (h : s.nanos < limit) : ofText s.text = .ok s := by
  by_cases hzero : s.nanos = 0
  · obtain ⟨nanos⟩ := s
    cases hzero
    rfl
  · have hfits : ∀ c ∈ s.written, c.Fits := fun c hc =>
      fits_counts h c (List.mem_filter.mp hc).1
    -- No count of zero is written.
    have hnumber : ∀ c ∈ s.written, c.number ≠ 0 := fun c hc => by
      simpa using (List.mem_filter.mp hc).2
    have hsome : s.written ≠ [] := by
      intro hnone
      have hsum := s.sum_written
      rw [hnone] at hsum
      exact hzero hsum.symm
    have htext : s.text.toList = [' '].intercalate (s.written.map fun c => c.text.toList) := by
      rw [text, isZero, if_neg (by simpa using hzero), String.toList_intercalate, items_eq,
        List.map_map]
      rfl
    -- The text of nothing is apart, and no other span has it.
    have hne : s.text ≠ "0" := by
      intro heq
      refine text_ne_zero hnumber ?_
      rw [← htext, heq]
      rfl
    have hread := read_counts hsome hfits true 0 0 0 (by rw [sum_written]; omega)
    rw [sum_written, Nat.zero_add, ← htext] at hread
    rw [ofText, if_neg hne]
    exact hread

end StoreBench.Span
