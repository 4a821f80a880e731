import StoreBench.Document.Match
import StoreBench.Proofs.Number.Whole

/-!
# `StoreBench.Proofs.Document.Conditions`: what a single condition means

A condition compares numbers as binary64 numbers, and a whole number loses what does not
fit in fifty-three bits. `compares_rounded` says which whole numbers a condition tells
apart: those that are rounded to different ones. It never takes a smaller number for a
greater one, and it is exact for all numbers of fifty-three bits and for all that are
further apart than the largest spacing. Beyond that it may find two neighbours equal
(`not_always_exact`).

A condition on several values is read as the alternative of the equalities with them, and
it is that alternative for fields of every kind but two. A list is equal to a value if one
of its elements is, and a field that is missing is equal to null; the condition on several
values knows neither rule (`Overlooks`). `isIn_agrees_iff` says that there is no other
difference, and `not_always_isIn` that there is one.
-/

set_option autoImplicit false

namespace StoreBench

/-- A filter of one condition looks up one path and tests what is there. -/
theorem Filter.selects_single (path : String) (p : Predicate) (doc : Json) :
    Filter.selects [(path, p)] doc = p.holds (doc.lookup path) := by
  simp [Filter.selects]

/-! ### Whole numbers -/

section Whole

open Double (rounded)

variable {a b : Int}

/-- Whole numbers compare as the numbers that they are rounded to, as both are turned
into binary64 numbers first. -/
theorem Json.compare?_int (ha : a.natAbs < 2 ^ 64) (hb : b.natAbs < 2 ^ 64) :
    (Json.int a).compare? (.int b) = some (compare (rounded a) (rounded b)) :=
  Double.compare?_ofInt ha hb

/-- So they are equal as soon as they are rounded to one number. -/
theorem Predicate.holds_eq_int (ha : a.natAbs < 2 ^ 64) (hb : b.natAbs < 2 ^ 64) :
    (Predicate.eq (.int b)).holds (some (.int a)) = true ↔ rounded a = rounded b := by
  show (Json.int a).equals (.int b) = true ↔ _
  simp [Json.equals, Json.compare?_int ha hb]

/-- An integer is greater than another to a filter only if it is still greater when both
are rounded. -/
theorem Predicate.holds_gt_int (ha : a.natAbs < 2 ^ 64) (hb : b.natAbs < 2 ^ 64) :
    (Predicate.gt (.int b)).holds (some (.int a)) = true ↔ rounded b < rounded a := by
  show ((Json.int a).compare? (.int b) == some .gt) = true ↔ _
  simp [Json.compare?_int ha hb, compare_gt_iff_gt]

/-- Take a document with a whole number `a` in a field, and a whole number `b`, both words
with a sign. The field is found equal to `b` just when both are rounded to the same number,
and greater when `a` is rounded to the greater one. So equal numbers are found equal and
what is found greater is greater, but two numbers are told apart only if they are rounded
to different ones. All are as far as one of the two has fifty-three bits, or they are more
than `2 ^ 10` apart. -/
theorem compares_rounded {doc : Json} {field : String} (ha : -2 ^ 63 ≤ a ∧ a < 2 ^ 63)
    (hb : -2 ^ 63 ≤ b ∧ b < 2 ^ 63) (hfield : doc.lookup field = some (.int a)) :
    let equal := Filter.selects [(field, .eq (.int b))] doc = true
    let greater := Filter.selects [(field, .gt (.int b))] doc = true
    (equal ↔ rounded a = rounded b) ∧ (greater ↔ rounded b < rounded a) ∧
    (a = b → equal) ∧ (greater → b < a) ∧
    ((equal ↔ a = b) ∧ (greater ↔ b < a) ↔ a = b ∨ rounded a ≠ rounded b) ∧
    (a.natAbs < 2 ^ 53 ∨ b.natAbs < 2 ^ 53 ∨ 2 ^ 10 < (a - b).natAbs →
      (equal ↔ a = b) ∧ (greater ↔ b < a)) := by
  intro equal greater
  have haword : a.natAbs < 2 ^ 64 := by omega
  have hbword : b.natAbs < 2 ^ 64 := by omega
  have hequal : equal ↔ rounded a = rounded b := by
    show Filter.selects [(field, .eq (.int b))] doc = true ↔ _
    rw [Filter.selects_single, hfield, Predicate.holds_eq_int haword hbword]
  have hgreater : greater ↔ rounded b < rounded a := by
    show Filter.selects [(field, .gt (.int b))] doc = true ↔ _
    rw [Filter.selects_single, hfield, Predicate.holds_gt_int haword hbword]
  -- Rounding keeps the order, but not strictly.
  have hmono : a ≤ b → rounded a ≤ rounded b := fun h => Double.rounded_mono h haword hbword
  have hmono' : b ≤ a → rounded b ≤ rounded a := fun h => Double.rounded_mono h hbword haword
  have hexact : (equal ↔ a = b) ∧ (greater ↔ b < a) ↔ a = b ∨ rounded a ≠ rounded b := by
    rw [hequal, hgreater]
    constructor
    · rintro ⟨hsame, -⟩
      by_cases h : rounded a = rounded b
      · exact .inl (hsame.mp h)
      · exact .inr h
    · rintro (rfl | hne)
      · simp
      · -- The order of different numbers is that of what they are rounded to.
        have hdifferent : a ≠ b := fun h => hne (congrArg rounded h)
        omega
  refine ⟨hequal, hgreater, ?_, ?_, hexact, ?_⟩
  · rintro rfl
    exact hequal.mpr rfl
  · intro h
    rw [hgreater] at h
    omega
  · intro hfar
    rw [hexact]
    by_cases h : rounded a = rounded b
    · left
      -- Two numbers that are rounded to one are as near as the largest spacing.
      have := Double.near_of_rounded_eq ha.1 ha.2 hb.1 hb.2 h
      omega
    · exact .inr h

/-- A count beyond the numbers that a binary64 number can hold exactly. -/
def hoard : Json := .obj [("stock", .obj [("left", .int (2 ^ 53 + 1))])]

/-- The count of the hoard is equal to the number below it and not greater, and is told
apart from the next number but one. -/
theorem compares_rounded_hoard :
    (-2 ^ 63 ≤ (2 ^ 53 + 1 : Int) ∧ (2 ^ 53 + 1 : Int) < 2 ^ 63) ∧
    hoard.lookup "stock.left" = some (.int (2 ^ 53 + 1)) ∧
    Filter.selects [("stock.left", .eq (.int (2 ^ 53)))] hoard = true ∧
    ¬ Filter.selects [("stock.left", .gt (.int (2 ^ 53)))] hoard = true ∧
    ¬ Filter.selects [("stock.left", .eq (.int (2 ^ 53 + 3)))] hoard = true := by
  have hfield : hoard.lookup "stock.left" = some (.int (2 ^ 53 + 1)) := rfl
  have hbelow := compares_rounded (b := 2 ^ 53) (by decide) (by decide) hfield
  have hbeyond := compares_rounded (b := 2 ^ 53 + 3) (by decide) (by decide) hfield
  exact ⟨by decide, hfield, hbelow.1.mpr (by decide), fun h => absurd (hbelow.2.1.mp h) (by decide),
    fun h => absurd (hbeyond.1.mp h) (by decide)⟩

/-- Neighbours beyond fifty-three bits are found equal, and the greater one is not found
greater. -/
theorem not_always_exact :
    ¬ ∀ (doc : Json) (field : String) (a b : Int), -2 ^ 63 ≤ a ∧ a < 2 ^ 63 →
      -2 ^ 63 ≤ b ∧ b < 2 ^ 63 → doc.lookup field = some (.int a) →
      (Filter.selects [(field, .eq (.int b))] doc = true ↔ a = b) ∧
      (Filter.selects [(field, .gt (.int b))] doc = true ↔ b < a) := by
  intro hall
  have hstored := hall hoard "stock.left" (2 ^ 53 + 1) (2 ^ 53) (by decide) (by decide) rfl
  exact absurd (hstored.1.mp (by decide)) (by decide)

end Whole

/-! ### Several values -/

section Several

variable {choices : List Json}

namespace Json

/-- Neither a list nor an object. These are the values that a filter is mostly given. -/
def isScalar : Json → Bool
  | .null | .bool _ | .int _ | .float _ | .str _ => true
  | .arr _ | .obj _ => false

/-- What is a list has items. -/
theorem exists_of_isList {j : Json} (h : j.isList = true) : ∃ items, j = .arr items := by
  cases j with
  | arr items => exact ⟨items, rfl⟩
  | null | bool _ | int _ | float _ | str _ | obj _ => cases h

/-- Only a list is equal to a list. -/
theorem isList_of_equals_arr {items : List Json} {choice : Json}
    (h : (Json.arr items).equals choice = true) : choice.isList = true := by
  cases choice with
  | arr _ => rfl
  | null | bool _ | int _ | float _ | str _ | obj _ => cases h

end Json

namespace Predicate

/-- What a condition on several values leaves out, though it is in an equality with one of
them: null for a field that is missing, and the elements of a list. -/
inductive Overlooks (choices : List Json) : Option Json → Prop
  | missing {choice : Json} (hchoice : choice ∈ choices) (hnull : choice.isNull = true) :
      Overlooks choices none
  | element {items : List Json} {choice item : Json} (hchoice : choice ∈ choices)
      (hlist : choice.isList = false) (hitem : item ∈ items)
      (hequals : item.equals choice = true) : Overlooks choices (some (.arr items))

/-- An equality with a list is about the list, and one with anything else about the
elements. -/
theorem holds_eq_arr (items : List Json) (choice : Json) :
    (Predicate.eq choice).holds (some (.arr items)) = true ↔
      (choice.isList = true ∧ (Json.arr items).equals choice = true) ∨
      (choice.isList = false ∧ ∃ item ∈ items, item.equals choice = true) := by
  cases hlist : choice.isList <;> simp [holds, hlist]

/-- Without a list in the field, an equality compares what is there. -/
theorem holds_eq_some {field : Json} (h : field.isList = false) (choice : Json) :
    (Predicate.eq choice).holds (some field) = field.equals choice := by
  cases field with
  | arr items => cases h
  | null | bool _ | int _ | float _ | str _ | obj _ => rfl

/-- A field that is there is in the choices if it equals one of them as a whole. Its
items are not looked at. -/
theorem holds_isIn_some (choices : List Json) (field : Json) :
    (isIn choices).holds (some field) = true ↔ ∃ choice ∈ choices, field.equals choice = true :=
  List.any_eq_true

/-- One of the equalities holds just when the condition on all the values does, or this
condition overlooks it. -/
theorem exists_eq_iff (choices : List Json) (field : Option Json) :
    (∃ choice ∈ choices, (Predicate.eq choice).holds field = true) ↔
      (isIn choices).holds field = true ∨ Overlooks choices field := by
  match field with
  | none =>
      -- What is missing equals null, which a list of choices overlooks.
      constructor
      · rintro ⟨choice, hchoice, hnull⟩
        exact .inr (.missing hchoice hnull)
      · rintro (hin | hoverlooks)
        · cases hin
        · cases hoverlooks with
          | missing hchoice hnull => exact ⟨_, hchoice, hnull⟩
  | some field =>
      rw [holds_isIn_some]
      cases hfield : field.isList with
      | false =>
          -- What is no list equals a choice as a whole or not at all.
          simp only [holds_eq_some hfield]
          refine ⟨.inl, ?_⟩
          rintro (hin | hoverlooks)
          · exact hin
          · cases hoverlooks with
            | element => cases hfield
      | true =>
          obtain ⟨items, rfl⟩ := Json.exists_of_isList hfield
          -- A list may equal a choice by one of its items too, which is overlooked as well.
          simp only [holds_eq_arr]
          constructor
          · rintro ⟨choice, hchoice, ⟨-, hequals⟩ | ⟨hlist, item, hitem, hequals⟩⟩
            · exact .inl ⟨choice, hchoice, hequals⟩
            · exact .inr (.element hchoice hlist hitem hequals)
          · rintro (⟨choice, hchoice, hequals⟩ | hoverlooks)
            · exact ⟨choice, hchoice, .inl ⟨Json.isList_of_equals_arr hequals, hequals⟩⟩
            · cases hoverlooks with
              | element hchoice hlist hitem hequals =>
                  exact ⟨_, hchoice, .inr ⟨hlist, _, hitem, hequals⟩⟩

/-- What is overlooked does not count: among scalars, nothing is equal to the field as it
is. -/
theorem Overlooks.holds_isIn {field : Option Json} (h : Overlooks choices field)
    (hscalar : ∀ choice ∈ choices, choice.isScalar = true) :
    (isIn choices).holds field = false := by
  cases h with
  | missing hchoice hnull => rfl
  | element hchoice hlist hitem hequals =>
      simp only [holds, List.any_eq_false]
      intro other hother hequals
      obtain ⟨others, rfl⟩ := Json.exists_of_isList (Json.isList_of_equals_arr hequals)
      cases hscalar _ hother

end Predicate

/-- Take any document, any path and any list of scalars. The condition on all of them
agrees with the alternative of the equalities just when it overlooks nothing: the field is
there or null is not among them, and it is no list with one of them as an element. Where
it overlooks something, one of the equalities holds, and the condition does not. -/
theorem isIn_agrees_iff (doc : Json) (path : String)
    (hscalar : ∀ choice ∈ choices, choice.isScalar = true) :
    let isAmong := Filter.selects [(path, .isIn choices)] doc = true
    let isSome := ∃ choice ∈ choices, Filter.selects [(path, .eq choice)] doc = true
    ((isAmong ↔ isSome) ↔ ¬ Predicate.Overlooks choices (doc.lookup path)) ∧
    (Predicate.Overlooks choices (doc.lookup path) → isSome ∧ ¬ isAmong) := by
  intro isAmong isSome
  have hsome : isSome ↔ isAmong ∨ Predicate.Overlooks choices (doc.lookup path) := by
    show (∃ choice ∈ choices, Filter.selects [(path, .eq choice)] doc = true) ↔
      Filter.selects [(path, .isIn choices)] doc = true ∨ _
    simp only [Filter.selects_single]
    exact Predicate.exists_eq_iff choices (doc.lookup path)
  have hnone (h : Predicate.Overlooks choices (doc.lookup path)) : ¬ isAmong := by
    show ¬ Filter.selects [(path, .isIn choices)] doc = true
    rw [Filter.selects_single, h.holds_isIn hscalar]
    exact Bool.false_ne_true
  constructor
  · constructor
    · intro hagrees hoverlooks
      exact hnone hoverlooks (hagrees.mpr (hsome.mpr (.inr hoverlooks)))
    · intro hcomplete
      rw [hsome]
      exact ⟨.inl, fun h => h.resolve_right hcomplete⟩
  · exact fun hoverlooks => ⟨hsome.mpr (.inr hoverlooks), hnone hoverlooks⟩

/-- A document with a number, with a list, and without a size. -/
def parcel : Json :=
  .obj [("kind", .int 1), ("tags", .arr [.str "x", .str "y"])]

/-- Its number is found among several values, and the elements of its list are not. -/
theorem isIn_agrees_iff_parcel :
    (∀ choice ∈ [Json.null, .str "x", .float ⟨0x3ff0000000000000⟩], choice.isScalar = true) ∧
    (Filter.selects [("kind", .isIn [.null, .str "x", .float ⟨0x3ff0000000000000⟩])] parcel = true ↔
      ∃ choice ∈ [Json.null, .str "x", .float ⟨0x3ff0000000000000⟩],
        Filter.selects [("kind", .eq choice)] parcel = true) ∧
    ¬ Filter.selects [("tags", .isIn [.null, .str "x", .float ⟨0x3ff0000000000000⟩])] parcel
      = true := by
  have hscalar : ∀ choice ∈ [Json.null, .str "x", .float ⟨0x3ff0000000000000⟩],
      choice.isScalar = true := by decide
  refine ⟨hscalar, (isIn_agrees_iff parcel "kind" hscalar).1.mpr ?_,
    ((isIn_agrees_iff parcel "tags" hscalar).2 ?_).2⟩
  · intro hoverlooks
    have hkind : parcel.lookup "kind" = some (.int 1) := rfl
    rw [hkind] at hoverlooks
    cases hoverlooks
  · have htags : parcel.lookup "tags" = some (.arr [.str "x", .str "y"]) := rfl
    rw [htags]
    have htag : Json.str "x" ∈ [Json.str "x", .str "y"] := List.mem_cons_self
    exact .element (List.mem_cons_of_mem _ List.mem_cons_self) rfl htag (by decide)

/-- An element of a list, and a field that is missing, are found by an equality and not by
the condition on several values. -/
theorem not_always_isIn :
    let agree (path : String) (choices : List Json) : Prop :=
      Filter.selects [(path, .isIn choices)] parcel = true ↔
        ∃ choice ∈ choices, Filter.selects [(path, .eq choice)] parcel = true
    ¬ agree "tags" [.str "x"] ∧ ¬ agree "size" [.null] := by
  intro agree
  constructor
  · intro h
    exact absurd (h.mpr ⟨.str "x", by simp, by decide⟩) (by decide)
  · intro h
    exact absurd (h.mpr ⟨.null, by simp, by decide⟩) (by decide)

end Several

end StoreBench
