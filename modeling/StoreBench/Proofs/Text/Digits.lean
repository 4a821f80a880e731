import StoreBench.Number.Text
import StoreBench.Text.Blank
import StoreBench.Text.Digits

/-!
# `StoreBench.Proofs.Text.Digits`: digits that are written and read back

The digits of a number are digits, at least one of them, and their value is the
number (`digitsValue_digitsOf`). Zeros in front make no difference
(`digitsValue_padded`), and are put there up to the width that is asked for
(`length_padded`).

Readers take digits off a text as far as they go. They find those that were written
wherever something else follows (`takeWhile_digits`, `dropWhile_digits`).
-/

set_option autoImplicit false

namespace StoreBench.Text

variable {n width : Nat} {ds rest : List Char} {c : Char}

/-! ### Values -/

/-- The value of digits is the one that the standard library computes, so its lemmas on
reading digits apply. -/
theorem digitsValue_eq (ds : List Char) : digitsValue ds = Nat.ofDigitChars 10 ds 0 := by
  simp only [digitsValue, Nat.ofDigitChars_eq_foldl, Nat.mul_comm 10]
  rfl

/-- A number is read back from its digits. Everything that writes a number and reads it
again comes down to this. -/
@[simp] theorem digitsValue_digitsOf (n : Nat) : digitsValue (digitsOf n) = n := by
  rw [digitsValue_eq, digitsOf, Nat.ofDigitChars_ten_toDigits]

/-- Zeros in front do not change what is read, so a number that is written in a fixed
width is read back as well. -/
@[simp] theorem digitsValue_padded (width n : Nat) : digitsValue (padded width n) = n := by
  rw [digitsValue_eq, padded, Nat.ofDigitChars_append, Nat.ofDigitChars_replicate_zero,
    Nat.mul_zero, ← digitsValue_eq, digitsValue_digitsOf]

/-- Digits in front count for more by the power of ten that the digits behind them take
up. -/
theorem digitsValue_append (ds es : List Char) :
    digitsValue (ds ++ es) = digitsValue ds * 10 ^ es.length + digitsValue es := by
  simp only [digitsValue_eq, Nat.ofDigitChars_append]
  rw [Nat.ofDigitChars_eq_ofDigitChars_zero, Nat.mul_comm]

/-- Zeros alone stand for zero, however many there are. They are what a number is padded
with. -/
@[simp] theorem digitsValue_zeros (n : Nat) : digitsValue (List.replicate n '0') = 0 := by
  rw [digitsValue_eq, Nat.ofDigitChars_replicate_zero, Nat.mul_zero]

/-- No two numbers have the same digits. Identities and keys that are made of numbers
are different for this reason. -/
theorem digitsOf_injective : Function.Injective digitsOf :=
  Function.LeftInverse.injective digitsValue_digitsOf

/-- A number is written by its digits and nothing else, so what is shown of digits holds
of written numbers. -/
theorem toList_toString (n : Nat) : (toString n).toList = digitsOf n := String.toList_ofList

/-- No two numbers are written alike, which makes the names of users and the keys of
documents that are numbered different. -/
theorem toString_injective : Function.Injective (toString : Nat → String) := by
  intro n m h
  refine digitsOf_injective ?_
  rw [← toList_toString, h, toList_toString]

/-! ### Characters -/

/-- Nothing but digits is in a written number. A reader that takes digits as long as
there are any therefore takes all of it. -/
theorem isDigit_of_mem_digitsOf (h : c ∈ digitsOf n) : isDigit c = true :=
  Nat.isDigit_of_mem_toDigits (by decide) (by decide) h

/-- A padded number has digits only, since it is padded with zeros and not with blanks. -/
theorem isDigit_of_mem_padded (h : c ∈ padded width n) : isDigit c = true := by
  rcases List.mem_append.mp h with hzero | hdigit
  · rw [(List.mem_replicate.mp hzero).2]
    rfl
  · exact isDigit_of_mem_digitsOf hdigit

/-- Every number has a digit, zero included. Readers that ask for at least one digit
accept all that is written. -/
theorem digitsOf_ne_nil (n : Nat) : digitsOf n ≠ [] := Nat.toDigits_ne_nil

/-- The first digit of a number is zero only for zero itself, so no number is written
with zeros in front. Readers of strict formats refuse those. -/
theorem digitsOf_eq_cons (n : Nat) :
    n = 0 ∧ digitsOf n = ['0'] ∨
      ∃ c rest, digitsOf n = c :: rest ∧ isDigit c = true ∧ c ≠ '0' := by
  induction n using Nat.strongRecOn with
  | ind n ih =>
      by_cases hlt : n < 10
      · rw [digitsOf, Nat.toDigits_of_lt_base hlt]
        match n, hlt with
        | 0, _ => exact .inl ⟨rfl, rfl⟩
        | 1, _ | 2, _ | 3, _ | 4, _ | 5, _ | 6, _ | 7, _ | 8, _ | 9, _ =>
            exact .inr ⟨_, [], rfl, by decide, by decide⟩
      · -- The first digit is that of the number without its last one.
        right
        rcases ih (n / 10) (by omega) with ⟨hzero, -⟩ | ⟨c, rest, hdigits, hc, hne⟩
        · omega
        · refine ⟨c, rest ++ [Nat.digitChar (n % 10)], ?_, hc, hne⟩
          rw [digitsOf] at hdigits
          rw [digitsOf, Nat.toDigits_of_base_le (by decide) (by omega), hdigits, List.cons_append]

/-- A number that fits a width is written in exactly this width. Texts of fixed widths
can be compared place by place. -/
theorem length_padded (h : n < 10 ^ width) (hwidth : 0 < width) :
    (padded width n).length = width := by
  have hle : (digitsOf n).length ≤ width :=
    (Nat.length_toDigits_le_iff (by decide) hwidth).mpr h
  simp only [padded, List.length_append, List.length_replicate]
  omega

/-! ### Reading -/

/-- A step that succeeds hands its value on to the next. Readers are chains of such
steps, and this opens them one by one. -/
@[simp] theorem ok_bind {ε α β : Type} (a : α) (next : α → Except ε β) :
    (Except.ok a >>= next) = next a := rfl

/-- Nothing that follows is taken for a digit: there is no more text, or it goes on with
some other character. -/
def NoDigit (rest : List Char) : Prop := ∀ c ∈ rest.head?, isDigit c = false

/-- At the end of a text there is no digit to come, so a number that is last in it ends
there. -/
theorem noDigit_nil : NoDigit [] := nofun

/-- A separator ends a number, as do a letter and a blank: anything that is no digit
itself. -/
theorem noDigit_cons (h : isDigit c = false) : NoDigit (c :: rest) := by
  rintro _ ⟨⟩
  exact h

/-- A reader that takes digits as long as there are any stops just where the written
number ends. -/
theorem takeWhile_digits (h : ∀ c ∈ ds, isDigit c = true) (hrest : NoDigit rest) :
    (ds ++ rest).takeWhile isDigit = ds := by
  rw [List.takeWhile_append_of_pos h]
  cases rest with
  | nil => simp
  | cons c cs => simp [hrest c rfl]

/-- Digits that come to an end before another text are the same in front of it. -/
theorem takeWhile_append_noDigit (cs : List Char) (hrest : NoDigit rest) :
    (cs ++ rest).takeWhile isDigit = cs.takeWhile isDigit := by
  induction cs with
  | nil => exact takeWhile_digits nofun hrest
  | cons c cs ih => rw [List.cons_append, List.takeWhile_cons, List.takeWhile_cons, ih]

/-- What such a reader leaves is the text behind the number, with nothing lost of it. -/
theorem dropWhile_digits (h : ∀ c ∈ ds, isDigit c = true) (hrest : NoDigit rest) :
    (ds ++ rest).dropWhile isDigit = rest := by
  rw [List.dropWhile_append_of_pos h]
  cases rest with
  | nil => rfl
  | cons c cs => simp [hrest c rfl]

/-- A text has as many bytes as characters, or more. Positions are counted in bytes, and
this bounds them from below. -/
theorem length_le_byteCount (cs : List Char) : cs.length ≤ byteCount cs := by
  have hfrom (n : Nat) (cs : List Char) :
      n + cs.length ≤ cs.foldl (fun n c => n + c.utf8Size) n := by
    induction cs generalizing n with
    | nil => exact Nat.le_refl _
    | cons c rest ih =>
        have hc := c.utf8Size_pos
        have hrest := ih (n + c.utf8Size)
        simp only [List.length_cons, List.foldl_cons]
        omega
  simpa [byteCount] using hfrom 0 cs

end StoreBench.Text
