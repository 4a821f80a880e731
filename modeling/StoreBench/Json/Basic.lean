import StoreBench.Number.Double

/-!
# `StoreBench.Json.Basic`: documents

A document is a JSON value. Whole numbers and fractional ones are kept
apart (`1` is not `1.0`); whole ones lie in the ranges of signed and
unsigned 64-bit words together. The fields of an object are kept sorted
by name, each name once, which `Fields.insert` maintains.

`same` is equality of documents, structural except that two fractional
numbers are equal when their values are (so the two zeros are).
-/

set_option autoImplicit false

namespace StoreBench

/-- Values of documents. Whole numbers are apart from fractional ones, and fields are in
the order of their names. -/
inductive Json
  | null
  | bool (b : Bool)
  | int (i : Int)
  | float (x : Double)
  | str (s : String)
  | arr (items : List Json)
  | obj (fields : List (String × Json))
deriving Repr, Inhabited

/-- Fields of an object, sorted by name. -/
abbrev Fields := List (String × Json)

namespace Fields

/-- The value of a field. -/
def get? (fields : Fields) (name : String) : Option Json := fields.lookup name

/-- Sets a field, replacing the value it had. -/
def insert : Fields → String → Json → Fields
  | [], name, v => [(name, v)]
  | (k, w) :: rest, name, v =>
    if name < k then (name, v) :: (k, w) :: rest
    else if name = k then (name, v) :: rest
    else (k, w) :: insert rest name v

/-- The fields of a list of pairs, a later pair replacing an earlier one
of the same name. -/
def ofList (pairs : List (String × Json)) : Fields :=
  pairs.foldl (fun fields p => Fields.insert fields p.1 p.2) []

end Fields

namespace Json

/-- The smallest and the largest whole number that is not read as a
fractional one. -/
def intMin : Int := -2 ^ 63
/-- The largest whole number that is not fractional, the largest word. -/
def intMax : Int := 2 ^ 64 - 1

/-- An object from pairs in any order. -/
def object (pairs : List (String × Json)) : Json := .obj (Fields.ofList pairs)

/-- A field of an object; other documents have none. -/
def get? : Json → String → Option Json
  | .obj fields, name => Fields.get? fields name
  | _, _ => none

/-- A fractional number, or null when the number is not finite. -/
def ofDouble (x : Double) : Json := if x.isFinite then .float x else .null

/-- The value of a number, rounded to the nearest binary64. -/
def toDouble? : Json → Option Double
  | .int i => some (Double.ofInt i)
  | .float x => some x
  | _ => none

/-- A whole number that fits a signed 64-bit word. -/
def toInt64? : Json → Option Int
  | .int i => if i < 2 ^ 63 then some i else none
  | _ => none

def isNull : Json → Bool
  | .null => true
  | _ => false

def isNumber (j : Json) : Bool := j.toDouble?.isSome

mutual

/-- Equality of documents. -/
def same : Json → Json → Bool
  | .null, .null => true
  | .bool a, .bool b => a == b
  | .int a, .int b => a == b
  | .float a, .float b => a.same b
  | .str a, .str b => a == b
  | .arr as, .arr bs => sameItems as bs
  | .obj as, .obj bs => sameFields as bs
  | _, _ => false

/-- The same of lists, which have to be equally long. -/
def sameItems : List Json → List Json → Bool
  | [], [] => true
  | a :: as, b :: bs => same a b && sameItems as bs
  | _, _ => false

/-- The same of fields, which have to have the same names. -/
def sameFields : List (String × Json) → List (String × Json) → Bool
  | [], [] => true
  | (k, a) :: as, (l, b) :: bs => k == l && same a b && sameFields as bs
  | _, _ => false

end

end Json

end StoreBench
