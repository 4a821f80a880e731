import StoreBench.Document.Edit

/-!
# `StoreBench.Proofs.Document.Changes`: all that may come of a change

A change of a document is made, is refused, or breaks off. `Change.Yields` lists all ways in
which this may happen, each with what it needs, and `Change.yields_apply` says that there is
no other. What a change writes, what it leaves alone and how it fails is then read off the
list, and no proof goes through the change again.
-/

set_option autoImplicit false

namespace StoreBench

/-- The word with a sign that a field holds. -/
def Fields.word? (fields : Fields) (field : String) : Option Int :=
  (Fields.get? fields field).bind Json.toInt64?

namespace Change

/-- All that may come of a change. An increment adds to a word as long as the sum is one.
Without a word in the field, it starts from nothing, is fractional, or is refused. -/
inductive Yields (fields : Fields) : Change → Attempted Fields → Prop
  | set (field : String) (value : Json) :
      Yields fields (set field value) (.ok (Fields.insert fields field value))
  | push (field : String) (item : Json) (items : List Json) :
      Yields fields (push field item) (.ok (Fields.insert fields field (.arr items)))
  | notPushed (field : String) (item : Json) (message : String) :
      Yields fields (push field item) (.error (.error (.backend message)))
  | sum {field : String} {amount i : Int} (hi : Fields.word? fields field = some i)
      (hword : -2 ^ 63 ≤ i + amount ∧ i + amount < 2 ^ 63) :
      Yields fields (inc field amount) (.ok (Fields.insert fields field (.int (i + amount))))
  | overflow {field : String} {amount i : Int} (hi : Fields.word? fields field = some i)
      (hword : ¬ (-2 ^ 63 ≤ i + amount ∧ i + amount < 2 ^ 63)) :
      Yields fields (inc field amount) (.error (.crash .sumOverflow))
  | start {field : String} (amount : Int) (hnone : Fields.word? fields field = none) :
      Yields fields (inc field amount) (.ok (Fields.insert fields field (.int amount)))
  | fractional {field : String} (amount : Int) (x : Double)
      (hnone : Fields.word? fields field = none) :
      Yields fields (inc field amount) (.ok (Fields.insert fields field (Json.ofDouble x)))
  | notIncremented {field : String} (amount : Int) (message : String)
      (hnone : Fields.word? fields field = none) :
      Yields fields (inc field amount) (.error (.error (.backend message)))

/-- An increment of a number writes the sum, if there is one. -/
theorem apply_inc_number {fields : Fields} {field : String} {v : Json} (amount : Int)
    (hfield : Fields.get? fields field = some v) (hnumber : v.isNumber = true) :
    (Change.inc field amount).apply fields = match v.increase amount with
      | .ok next => .ok (Fields.insert fields field next)
      | .error crash => .error (.crash crash) := by
  have hnull : v.isNull = false := by
    cases v with
    | null => cases hnumber
    | bool _ | int _ | float _ | str _ | arr _ | obj _ => rfl
  simp [apply, hfield, hnull, hnumber]
  cases v.increase amount <;> rfl

/-- An increment goes by what the field holds: nothing or null, a number, or something
that nothing can be added to. -/
theorem yields_inc (fields : Fields) (field : String) (amount : Int) :
    (inc field amount).Yields fields ((inc field amount).apply fields) := by
  cases hfield : Fields.get? fields field with
  | none =>
      have happly : (inc field amount).apply fields
          = .ok (Fields.insert fields field (.int amount)) := by simp [apply, hfield, Json.isNull]
      rw [happly]
      exact .start amount (by simp [Fields.word?, hfield])
  | some v =>
      have hword : Fields.word? fields field = v.toInt64? := by simp [Fields.word?, hfield]
      cases v with
      | null =>
          -- Null counts as nothing.
          have happly : (inc field amount).apply fields
              = .ok (Fields.insert fields field (.int amount)) := by
            simp [apply, hfield, Json.isNull]
          rw [happly]
          exact .start amount hword
      | bool _ | str _ | arr _ | obj _ =>
          simp only [apply, hfield]
          exact .notIncremented amount _ hword
      | float x =>
          rw [apply_inc_number amount hfield rfl]
          exact .fractional amount _ hword
      | int i =>
          rw [apply_inc_number amount hfield rfl]
          cases hi : (Json.int i).toInt64? with
          | none =>
              simp only [Json.increase, hi]
              exact .fractional amount _ (hword.trans hi)
          | some j =>
              -- The sum is a word, or breaks off.
              simp only [Json.increase, hi, addWord]
              by_cases hsum : -2 ^ 63 ≤ j + amount ∧ j + amount < 2 ^ 63
              · rw [if_pos hsum]
                exact .sum (hword.trans hi) hsum
              · rw [if_neg hsum]
                exact .overflow (hword.trans hi) hsum

/-- Whatever comes of a change is in the list. This is the inversion that all that is
said of changes goes by. -/
theorem yields_apply (change : Change) (fields : Fields) :
    change.Yields fields (change.apply fields) := by
  cases change with
  | set field value => exact .set field value
  | inc field amount => exact yields_inc fields field amount
  | push field item =>
      simp only [apply]
      split
      · exact .push field item _
      · exact .push field item _
      · exact .notPushed field item _

end Change

end StoreBench
