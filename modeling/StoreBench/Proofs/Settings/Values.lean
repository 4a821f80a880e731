import StoreBench.Proofs.Number.Scan
import StoreBench.Proofs.Settings.Leaves
import StoreBench.Proofs.Time.Span

/-!
# `StoreBench.Proofs.Settings.Values`: values of settings in documents and variables

A document sets a setting to a value of its type (`Kind.ofJson?`), and a variable to what its
text reads as (`Kind.ofText?`). Either way the tree then holds that value
(`Kind.holds_ofJson`, `Kind.holds_ofText`), but for one thing: a tree knows signed words and
fractional numbers only, so a whole number that is too large for the former is kept as the
fractional number nearest to it (`keptWhole`). What a source sets a setting to therefore
depends on what becomes of whole numbers: nothing where it is what the source says (`id`), and
`keptWhole` where it is what the tree holds.

There are formats that have texts only. There a number is a text of digits, which stays a text
in the tree until it is read, and so is read as it stands (`Kind.holds_digits`).

The text of a variable is tried as a boolean and as a number first. A text setting is set by
a text that is neither (`Layers.IsPlain`). A text of digits is always the number they write
(`variableValue_nat`).
-/

set_option autoImplicit false

namespace StoreBench

open Text (digitsValue isDigit)

/-! ### Numbers -/

/-- What becomes of a number in a tree: beyond the signed words, the nearest fractional one. -/
def numeral (n : Nat) : Json := if n < 2 ^ 63 then .int n else .float (.ofNat n)

/-- A whole number as it comes out of a tree: one beyond the signed words is first the nearest
fractional number, and is then rounded to a word. -/
def keptWhole (n : Nat) : Nat := if n < 2 ^ 63 then n else (Double.ofNat n).saturated

/-- A whole number of a document becomes a signed word of the tree if it is one, and else the
nearest fractional number. -/
theorem ofJson_nat (origin : Origin) (n : Nat) :
    Tree.ofJson origin (.int n) = .leaf origin (numeral n) := by
  have hofInt : Double.ofInt n = Double.ofNat n := by
    rw [Double.ofInt, Double.ofNat, Int.natAbs_natCast, decide_eq_false (by omega)]
  rw [Tree.ofJson, numeral, hofInt]
  split <;> split <;> first | rfl | omega

/-- A number that fits into a word is read as it was kept. -/
theorem toWord_numeral {bits n : Nat} (origin : Origin) (h : n < 2 ^ bits) :
    (Tree.leaf origin (numeral n)).toWord bits = .ok (keptWhole n) := by
  rw [keptWhole]
  by_cases hsigned : n < 2 ^ 63
  · have hnat : (Tree.leaf origin (numeral n)).toNat = .ok n := by
      rw [numeral, if_pos hsigned, Tree.toNat, if_pos (Int.natCast_nonneg n)]
      rfl
    rw [Tree.toWord, hnat, Text.ok_bind, if_pos h, if_pos hsigned]
  · have hnat : (Tree.leaf origin (numeral n)).toNat = .ok (Double.ofNat n).saturated := by
      rw [numeral, if_neg hsigned, Tree.toNat]
    have hbits : 64 ≤ bits := by
      by_contra hless
      exact hsigned (Nat.lt_of_lt_of_le h (Nat.pow_le_pow_right (by decide) (by omega)))
    have hfits := Nat.lt_of_lt_of_le (Double.saturated_lt (Double.ofNat n))
      (Nat.pow_le_pow_right (by decide) hbits)
    rw [Tree.toWord, hnat, Text.ok_bind, if_pos hfits, if_neg hsigned]

/-! ### Numbers in variables -/

/-- No text of digits is a word. -/
theorem lowered_digits_ne {s word : String} {ds : List Char}
    (hs : s.toList = ds ∨ s.toList = '+' :: ds) (hne : ds ≠ [])
    (hdigits : ∀ c ∈ ds, isDigit c = true)
    (hword : (word.toList.head?.all fun c => !isDigit c && c != '+') = true) :
    Layers.lowered s ≠ word := by
  rw [Layers.lowered]
  rcases hs with hs | hs
  · rw [hs]
    refine ofList_toLower_ne hne hdigits ?_
    cases hhead : word.toList.head? with
    | none => rfl
    | some c =>
        rw [hhead, Option.all_some, Bool.and_eq_true] at hword
        exact hword.1
  · rintro rfl
    rw [hs, String.toList_ofList, List.map_cons] at hword
    cases hword

/-- A variable that reads as a word stands for the number that a document would have. -/
theorem variableValue_nat {bits n : Nat} {s : String} (hbits : bits ≤ 64)
    (h : scanNat? (2 ^ bits - 1) s = some n) : Layers.variableValue s = numeral n := by
  obtain ⟨ds, hs, hne, hdigits, rfl, hlimit⟩ := exists_digits h
  have hword {word : String}
      (h : (word.toList.head?.all fun c => !isDigit c && c != '+') = true) :=
    lowered_digits_ne hs hne hdigits h
  have hfits : digitsValue ds < 2 ^ 64 := by
    have := Nat.pow_le_pow_right (by decide : 0 < 2) hbits
    have := Nat.two_pow_pos bits
    omega
  rw [Layers.variableValue, if_neg (hword (by decide +kernel)), if_neg (hword (by decide +kernel)),
    scanInt?_digits hs hne hdigits, scan?_digits hs hne hdigits, numeral]
  by_cases hsigned : digitsValue ds < 2 ^ 63
  · rw [if_pos hsigned, if_pos hsigned]
  · rw [if_neg hsigned, if_neg hsigned, Double.ofDecimal_word (by omega) hfits]

/-- A text of digits in a tree is read as the number that it writes, exactly. -/
theorem toWord_digits (origin : Origin) {bits n : Nat} {s : String} (hbits : bits ≤ 64)
    (h : scanNat? (2 ^ bits - 1) s = some n) :
    (Tree.leaf origin (.str s)).toWord bits = .ok n := by
  obtain ⟨ds, hs, hne, hdigits, -, hlimit⟩ := exists_digits h
  have hword {word : String}
      (h : (word.toList.head?.all fun c => !isDigit c && c != '+') = true) :=
    lowered_digits_ne hs hne hdigits h
  have hfits : n < 2 ^ bits := by
    have := Nat.two_pow_pos bits
    omega
  have hscan : scanNat? (2 ^ 64 - 1) s = some n := by
    have := Nat.pow_le_pow_right (by decide : 0 < 2) hbits
    exact scanNat?_mono (by omega) h
  -- Digits are none of the words that stand for truth values.
  have hread : Tree.natOfText? s = some n := by
    have hwords (words : List String) (h : ∀ word ∈ words,
        (word.toList.head?.all fun c => !isDigit c && c != '+') = true) :
        words.contains (String.ofList (s.toList.map Char.toLower)) = false :=
      Bool.eq_false_iff.mpr fun hmem => hword (h _ (List.contains_iff_mem.mp hmem)) rfl
    rw [Tree.natOfText?]
    simp only [hwords ["true", "on", "yes"] (by decide +kernel),
      hwords ["false", "off", "no"] (by decide +kernel), hscan]
    rfl
  have hnat : (Tree.leaf origin (.str s)).toNat = .ok n := by
    rw [Tree.toNat, hread]
  rw [Tree.toWord, hnat, Text.ok_bind, if_pos hfits]

/-! ### Values of settings -/

namespace Layers

/-- A text that reads neither as a boolean nor as a number. -/
def IsPlain (s : String) : Prop :=
  lowered s ≠ "true" ∧ lowered s ≠ "false" ∧ scanInt? s = none ∧ Double.scan? s = none

instance (s : String) : Decidable (IsPlain s) :=
  inferInstanceAs (Decidable (_ ∧ _ ∧ _ ∧ _))

/-- A plain text is the value of its variable as it stands. -/
theorem variableValue_plain {s : String} (h : IsPlain s) : variableValue s = .str s := by
  obtain ⟨htrue, hfalse, hint, hdouble⟩ := h
  rw [variableValue, if_neg htrue, if_neg hfalse, hint, hdouble]

end Layers

namespace Kind

section Sources

variable (whole : Nat → Nat)

/-- What a document sets a setting to, if it is of the right type, where `whole` says what
becomes of whole numbers. A number may also be a text of its digits, as it is in formats that
have nothing but texts. -/
def ofJson? : Kind → Json → Option Scalar
  | .text, .str s => some (.text s)
  | .span, .str s => (Span.ofText s).toOption.map .span
  | .word bits, .int i | .optional bits, .int i =>
    if 0 ≤ i ∧ i < 2 ^ bits then some (.word (whole i.toNat)) else none
  | .word bits, .str s | .optional bits, .str s => (scanNat? (2 ^ bits - 1) s).map .word
  | .optional _, .null => some .absent
  | _, _ => none

/-- What a variable sets a setting to, where `whole` says what becomes of whole numbers. Texts
are such that they do not read as anything else. -/
def ofText? : Kind → String → Option Scalar
  | .text, s => if Layers.IsPlain s then some (.text s) else none
  | .span, s => if Layers.IsPlain s then (Span.ofText s).toOption.map .span else none
  | .word bits, s | .optional bits, s => (scanNat? (2 ^ bits - 1) s).map fun n => .word (whole n)

/-- Whether a value of a document is of the right type does not depend on what becomes of
whole numbers. -/
theorem isSome_ofJson? (kind : Kind) (value : Json) :
    (kind.ofJson? whole value).isSome = (kind.ofJson? id value).isSome := by
  unfold ofJson?
  split <;> first | rfl | (split <;> rfl)

/-- Whether the text of a variable is of the right type does not depend on what becomes
of whole numbers. -/
theorem isSome_ofText? (kind : Kind) (s : String) :
    (kind.ofText? whole s).isSome = (kind.ofText? id s).isSome := by
  unfold ofText?
  split <;> first | rfl | simp only [Option.isSome_map]

end Sources

/-- How many bits the words of a kind have. Texts and lengths of time are no words. -/
def bits : Kind → Nat
  | .text | .span => 0
  | .word bits | .optional bits => bits

/-- A tree holds a value of some kind: it is no table, and reads as the value. -/
structure Holds (kind : Kind) (t : Tree) (value : Scalar) : Prop where
  isTable : t.isTable = false
  read : kind.read t = .ok value
  has : kind.Has value

section Holds

variable {kind : Kind} {a : Scalar}

/-- Any text is a value of a text setting. -/
theorem holds_text (origin : Origin) (s : String) :
    Kind.text.Holds (.leaf origin (.str s)) (.text s) := ⟨rfl, rfl, s, rfl⟩

/-- A text that writes a length of time is held as a text, and read as that length. -/
theorem holds_span (origin : Origin) {s : String} {span : Span} (h : Span.ofText s = .ok span) :
    Kind.span.Holds (.leaf origin (.str s)) (.span span) := by
  refine ⟨rfl, ?_, span, rfl⟩
  have htext : Layers.toSpan (.leaf origin (.str s)) = .ok span := by
    rw [Layers.toSpan, Tree.toText, Text.ok_bind, h]
  rw [Kind.read, htext]
  rfl

/-- A number that may be left open is read as one that may not. -/
theorem toOption_leaf {origin : Origin} {value : Json} (h : value ≠ .null) (bits : Nat) :
    (Tree.leaf origin value).toOption (Tree.toWord bits)
      = ((Tree.leaf origin value).toWord bits).map some := by
  cases value <;> first | rfl | exact absurd rfl h

/-- A leaf that reads as a word holds a number of either kind. -/
theorem holds_leaf {origin : Origin} {value : Json} {bits n : Nat} (hvalue : value ≠ .null)
    (h : (Tree.leaf origin value).toWord bits = .ok n) :
    (Kind.word bits).Holds (.leaf origin value) (.word n)
      ∧ (Kind.optional bits).Holds (.leaf origin value) (.word n) := by
  refine ⟨⟨rfl, ?_, n, rfl⟩, ⟨rfl, ?_, some n, rfl⟩⟩
  · rw [Kind.read, h]
    rfl
  · rw [Kind.read, toOption_leaf hvalue, h]
    rfl

/-- A number is held as `numeral` says, and comes out as `keptWhole` does. -/
theorem holds_numeral (origin : Origin) {bits n : Nat} (h : n < 2 ^ bits) :
    (Kind.word bits).Holds (.leaf origin (numeral n)) (.word (keptWhole n))
      ∧ (Kind.optional bits).Holds (.leaf origin (numeral n)) (.word (keptWhole n)) := by
  refine holds_leaf ?_ (toWord_numeral origin h)
  rw [numeral]
  split <;> exact Json.noConfusion

/-- A text of digits is held as a text, and is read as the number that it writes. -/
theorem holds_digits (origin : Origin) {bits n : Nat} {s : String} (hbits : bits ≤ 64)
    (h : scanNat? (2 ^ bits - 1) s = some n) :
    (Kind.word bits).Holds (.leaf origin (.str s)) (.word n)
      ∧ (Kind.optional bits).Holds (.leaf origin (.str s)) (.word n) :=
  holds_leaf Json.noConfusion (toWord_digits origin hbits h)

/-- The length of time that a text writes. -/
theorem exists_span {s : String} (h : (Span.ofText s).toOption.map .span = some a) :
    ∃ span, Span.ofText s = .ok span ∧ a = .span span := by
  cases hspan : Span.ofText s with
  | error flaw =>
      rw [hspan] at h
      cases h
  | ok span =>
      rw [hspan] at h
      exact ⟨span, rfl, (Option.some.inj h).symm⟩

/-- The word that a whole number is. -/
theorem exists_word {whole : Nat → Nat} {bits : Nat} {i : Int}
    (h : (if 0 ≤ i ∧ i < 2 ^ bits then some (Scalar.word (whole i.toNat)) else none) = some a) :
    ∃ n : Nat, i = n ∧ n < 2 ^ bits ∧ a = .word (whole n) := by
  split at h
  · next hword =>
      obtain ⟨n, rfl⟩ := Int.eq_ofNat_of_zero_le hword.1
      exact ⟨n, rfl, by exact_mod_cast hword.2, (Option.some.inj h).symm⟩
  · cases h

/-- What a text of digits is a word of. -/
theorem exists_word_text (whole : Nat → Nat) {bits : Nat} {s : String}
    (h : ((scanNat? (2 ^ bits - 1) s).map fun n => Scalar.word (whole n)) = some a) :
    ∃ n, scanNat? (2 ^ bits - 1) s = some n ∧ n < 2 ^ bits ∧ a = .word (whole n) := by
  obtain ⟨n, hscan, rfl⟩ := Option.map_eq_some_iff.mp h
  obtain ⟨-, -, -, -, -, hlimit⟩ := exists_digits hscan
  have := Nat.two_pow_pos bits
  exact ⟨n, hscan, by omega, rfl⟩

/-- What a document sets a setting to is in the tree, up to what becomes of whole numbers
there. -/
theorem holds_ofJson {value : Json} (origin : Origin) (hbits : kind.bits ≤ 64)
    (h : kind.ofJson? keptWhole value = some a) : kind.Holds (Tree.ofJson origin value) a := by
  unfold ofJson? at h
  split at h
  · cases h
    exact holds_text origin _
  · obtain ⟨span, hspan, rfl⟩ := exists_span h
    exact holds_span origin hspan
  · obtain ⟨n, rfl, hn, rfl⟩ := exists_word h
    rw [ofJson_nat]
    exact (holds_numeral origin hn).1
  · obtain ⟨n, rfl, hn, rfl⟩ := exists_word h
    rw [ofJson_nat]
    exact (holds_numeral origin hn).2
  · obtain ⟨n, hscan, -, rfl⟩ := exists_word_text id h
    exact (holds_digits origin hbits hscan).1
  · obtain ⟨n, hscan, -, rfl⟩ := exists_word_text id h
    exact (holds_digits origin hbits hscan).2
  · cases h
    exact ⟨rfl, rfl, none, rfl⟩
  · cases h

/-- What a variable sets a setting to is in the tree, up to what becomes of whole
numbers there. -/
theorem holds_ofText {s : String} (origin : Origin) (hbits : kind.bits ≤ 64)
    (h : kind.ofText? keptWhole s = some a) :
    kind.Holds (.leaf origin (Layers.variableValue s)) a := by
  unfold ofText? at h
  split at h
  · split at h
    · next hplain =>
        cases h
        rw [Layers.variableValue_plain hplain]
        exact holds_text origin s
    · cases h
  · split at h
    · next hplain =>
        obtain ⟨span, hspan, rfl⟩ := exists_span h
        rw [Layers.variableValue_plain hplain]
        exact holds_span origin hspan
    · cases h
  · obtain ⟨n, hscan, hn, rfl⟩ := exists_word_text keptWhole h
    rw [variableValue_nat hbits hscan]
    exact (holds_numeral origin hn).1
  · obtain ⟨n, hscan, hn, rfl⟩ := exists_word_text keptWhole h
    rw [variableValue_nat hbits hscan]
    exact (holds_numeral origin hn).2

end Holds

end Kind

/-- No setting is a longer word than sixty-four bits. -/
theorem Setting.bits_le (setting : Setting) : setting.kind.bits ≤ 64 := by
  cases setting <;> decide

end StoreBench
