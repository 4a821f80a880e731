import StoreBench.Statement
import StoreBench.Json.Printer
import StoreBench.Text.Pieces

/-!
# `StoreBench.Document.Match`: which documents a filter selects

A condition names a field by its path, with dots between the names, and
`Json.lookup` finds it through nested objects. Scalars of one kind compare
by value, and all numbers do so as binary64 numbers, whether or not they
were written as whole ones. What does not compare is equal only when it is
the same document.
-/

set_option autoImplicit false

namespace StoreBench

/-! ### Paths -/

/-- The names along a path. -/
def pathNames (path : String) : List String :=
  (Text.pieces '.' path.toList).map String.ofList

namespace Json

/-- The document at the end of a list of names. -/
def follow : Json → List String → Option Json
  | j, [] => some j
  | j, name :: names => (j.get? name).bind fun inner => inner.follow names

/-- The field of a document at a path. -/
def lookup (doc : Json) (path : String) : Option Json := doc.follow (pathNames path)

/-! ### Comparison -/

/-- The order of two scalars of one kind. -/
def compare? : Json → Json → Option Ordering
  | .str a, .str b => some (compare a b)
  | .bool a, .bool b => some (compare a b)
  | .null, .null => some .eq
  | a, b => match a.toDouble?, b.toDouble? with
    | some x, some y => x.compare? y
    | _, _ => none

/-- Equality as a filter sees it. -/
def equals (field expected : Json) : Bool :=
  match field.compare? expected with
  | some order => order == .eq
  | none => field.same expected

def isList : Json → Bool
  | .arr _ => true
  | _ => false

end Json

/-! ### Conditions -/

namespace Predicate

/-- Whether a condition holds of a field, which may be missing. A list is
equal to a scalar if one of its elements is, and a missing field is equal
to null. -/
def holds : Predicate → Option Json → Bool
  | eq expected, some (.arr items) =>
    if expected.isList then (Json.arr items).equals expected
    else items.any fun item => item.equals expected
  | eq expected, some field => field.equals expected
  | eq expected, none => expected.isNull
  | gt bound, field => field.bind (fun j => j.compare? bound) == some .gt
  | isIn choices, some field => choices.any fun choice => field.equals choice
  | isIn _, none => false
  | sizeGt n, some (.arr items) => n < items.length
  | sizeGt _, _ => false

end Predicate

namespace Filter

/-- Whether a document meets every condition. -/
def selects (filter : Filter) (doc : Json) : Bool :=
  List.all filter fun clause => clause.2.holds (doc.lookup clause.1)

end Filter

end StoreBench
