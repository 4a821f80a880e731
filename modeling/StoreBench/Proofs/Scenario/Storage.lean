import StoreBench.Proofs.Json.Reading
import StoreBench.Proofs.Time.Instant
import StoreBench.Scenario.Schema
import StoreBench.Sql.Cell

/-!
# `StoreBench.Proofs.Scenario.Storage`: values that are stored and decoded

A workload gives a store typed values and decodes what it finds there. In a table a
value goes through a parameter, a cell and the value of a column (`viaColumn`), in a
collection through the field of a document (`viaField`). Neither keeps all types: a
table has no booleans, lists or instants, and a collection no instants.

Still each type comes back as it was (`decode_stored`). A boolean is stored as a
number, a list as the text of a document, which its reader takes apart again
(`Json.reads_strings`), and an instant as a text that ends at the microsecond
(`Instant.ofText_microText`).
-/

set_option autoImplicit false

namespace StoreBench

namespace Value

variable {α : Type}

/-- What is decoded from column `index` of a row, where the value was stored as a
parameter. -/
def viaColumn (index : Nat) (decode : Decoder α) (v : Value) : Except BenchError α := do
  decode (← (Sql.Cell.ofValue v).toValue index)

/-- What is decoded from the field of a document. -/
def viaField (decode : Decoder α) (field : Json) : Except BenchError α := decode (ofJson field)

/-- A list of strings is a text list as the field of a document. -/
theorem stringItems?_map_str (items : List String) :
    stringItems? (items.map Json.str) = some items := by
  induction items with
  | nil => rfl
  | cons s items ih => rw [List.map_cons, stringItems?, ih, Option.map_some]

/-- A list of strings comes out of a document as a list of texts. -/
theorem ofJson_strings (items : List String) :
    ofJson (.arr (items.map .str)) = textList items := by
  simp only [ofJson, stringItems?_map_str]

/-- The text of a list of strings is decoded as the list. -/
theorem toTexts_render (items : List String) :
    toTexts (text (Json.arr (items.map .str)).render) = .ok items := by
  have hread := (Json.reads_strings items).readText
  simp only [toTexts, Json.render, hread]
  rfl

/-- The text of an instant is decoded as the instant, as far as it goes. -/
theorem toInstant_microText {t : Instant} (h : t.Dated) :
    toInstant (text t.microText) = .ok t.truncated := by
  simp only [toInstant, Instant.ofText_microText h]
  rfl

/-- Booleans, integers of a signed word, texts, lists of texts and instants of the
years 0 to 9999 are decoded as they were stored, from a column and from the field of a
document, but for what instants have below a microsecond. -/
theorem decode_stored (index : Nat) :
    (∀ b : Bool, viaColumn index toBool (bool b) = .ok b ∧ viaField toBool (.bool b) = .ok b) ∧
    (∀ i : Int, -2 ^ 63 ≤ i → i < 2 ^ 63 →
      viaColumn index toInt (int i) = .ok i ∧ viaField toInt (.int i) = .ok i) ∧
    (∀ s : String,
      viaColumn index toText (text s) = .ok s ∧ viaField toText (.str s) = .ok s) ∧
    (∀ items : List String, viaColumn index toTexts (textList items) = .ok items ∧
      viaField toTexts (.arr (items.map .str)) = .ok items) ∧
    ∀ t : Instant, t.Dated → viaColumn index toInstant (timestamp t) = .ok t.truncated ∧
      viaField toInstant (.ofInstant t) = .ok t.truncated := by
  refine ⟨?_, ?_, ?_, ?_, ?_⟩
  · intro b
    refine ⟨?_, rfl⟩
    cases b <;> rfl
  · intro i _ hlt
    refine ⟨rfl, ?_⟩
    rw [viaField, ofJson, if_pos hlt, toInt]
  · intro s
    exact ⟨rfl, rfl⟩
  · intro items
    constructor
    · simp only [viaColumn, Sql.Cell.ofValue, Sql.Cell.toValue, Text.ok_bind, toTexts_render]
    · rw [viaField, ofJson_strings, toTexts]
  · intro t ht
    constructor
    · simp only [viaColumn, Sql.Cell.ofValue, Sql.Cell.toValue, Text.ok_bind,
        toInstant_microText ht]
    · simp only [viaField, Json.ofInstant, ofJson, toInstant_microText ht]

/-- The leap second at the end of June 2012, half over. -/
def leapSecond : Instant := ⟨1341100799, 1500000000⟩

/-- A leap second in a column and the least word in a field. -/
theorem decode_stored_leapSecond :
    leapSecond.Dated ∧ viaColumn 0 toInstant (timestamp leapSecond) = .ok leapSecond ∧
    viaField toInt (.int (-2 ^ 63)) = .ok (-2 ^ 63) := by
  have hdated : leapSecond.Dated := ⟨by decide, by decide, fun _ => by decide⟩
  have hwhole : leapSecond.truncated = leapSecond := rfl
  obtain ⟨-, hint, -, -, hinstant⟩ := decode_stored 0
  have hcolumn := (hinstant leapSecond hdated).1
  rw [hwhole] at hcolumn
  exact ⟨hdated, hcolumn, (hint (-2 ^ 63) (by decide) (by decide)).2⟩

end Value

end StoreBench
