import StoreBench.Statement
import StoreBench.Json.Printer

/-!
# `StoreBench.Document.Edit`: changing a document

The changes of an update are made one after the other, each on what the
one before it left. The first that cannot be made ends the update, and the
changes before it stay, so `Update.edit` answers a document in every case.
A change addresses a field by its name, dots included.
-/

set_option autoImplicit false

namespace StoreBench

namespace Json

/-- A number increased by `amount`: a whole number stays one while it fits
a signed word, and a fractional one that overflows becomes null. -/
def increase (amount : Int) (number : Json) : Except Crash Json :=
  match number.toInt64? with
  | some i => (addWord i amount).map Json.int
  | none => .ok (ofDouble (((number.toDouble?).getD .zero).add (.ofInt amount)))

end Json

namespace Change

/-- The fields of an object after one change. A missing field counts as
null; incrementing null starts from nothing, pushing to it from an empty
list. -/
def apply (fields : Fields) : Change → Attempted Fields
  | inc field amount =>
    let current := (Fields.get? fields field).getD .null
    if current.isNull then .ok (Fields.insert fields field (.int amount))
    else if current.isNumber then do
      let next ← current.increase amount
      .ok (Fields.insert fields field next)
    else .error <| .error <| .backend
      s!"cannot increment non-numeric field `{field}` ({current.render})"
  | push field item =>
    match (Fields.get? fields field).getD .null with
    | .null => .ok (Fields.insert fields field (.arr [item]))
    | .arr items => .ok (Fields.insert fields field (.arr (items ++ [item])))
    | _ => .error <| .error <| .backend s!"cannot push to non-array field `{field}`"
  | set field value => .ok (Fields.insert fields field value)

end Change

namespace Update

/-- The fields after the changes that could be made, and why the next one
could not. -/
def editFields : Update → Fields → Fields × Attempted Unit
  | [], fields => (fields, .ok ())
  | change :: rest, fields =>
    match change.apply fields with
    | .ok next => editFields rest next
    | .error failure => (fields, .error failure)

/-- A document after the changes that could be made. Only objects have
fields to change. -/
def edit (update : Update) : Json → Json × Attempted Unit
  | .obj fields =>
    let (edited, result) := update.editFields fields
    (.obj edited, result)
  | other => (other, .error (.error (.backend "cannot update a non-object document")))

end Update

end StoreBench
