import StoreBench.Json.Printer
import StoreBench.Text.Quoted

/-!
# `StoreBench.Json.Mismatch`: values of the wrong shape

A text can be well formed and still not hold what was asked for. A
`Mismatch` says how, in terms of the value that was found (`Found`), and
`Mismatch.message` words it.
-/

set_option autoImplicit false

namespace StoreBench

/-- What stands where something else was expected. -/
inductive Found
  | null
  | bool (b : Bool)
  | int (i : Int)
  | float (x : Double)
  | str (s : String)
  | seq
  | map
  | bareVariant
deriving Repr, Inhabited

/-- How a well-formed value fails to be the one expected. -/
inductive Mismatch
  | wrongType (found : Found) (expected : String)
  | wrongValue (found : Found) (expected : String)
  | wrongLength (length : Nat) (expected : String)
  | unknownVariant (name : String) (known : List String)
  | missingField (name : String)
  | duplicateField (name : String)
  | unreadable (reason : String)
deriving Repr, Inhabited

namespace Found

/-- The kind of a document. -/
def ofJson : Json → Found
  | .null => .null
  | .bool b => .bool b
  | .int i => .int i
  | .float x => .float x
  | .str s => .str s
  | .arr _ => .seq
  | .obj _ => .map

def message : Found → String
  | .null => "null"
  | .bool b => s!"boolean `{b}`"
  | .int i => s!"integer `{i}`"
  | .float x => "floating point `" ++ String.ofList x.json ++ "`"
  | .str s => "string " ++ Text.quoted s
  | .seq => "sequence"
  | .map => "map"
  | .bareVariant => "unit variant"

end Found

/-- A choice of names, as an error message lists it. -/
def listChoices : List String → String
  | [] => ""
  | [a] => s!"`{a}`"
  | [a, b] => s!"`{a}` or `{b}`"
  | names => "one of " ++ ", ".intercalate (names.map fun n => s!"`{n}`")

def Mismatch.message : Mismatch → String
  | .wrongType found expected => s!"invalid type: {found.message}, expected {expected}"
  | .wrongValue found expected => s!"invalid value: {found.message}, expected {expected}"
  | .wrongLength n expected => s!"invalid length {n}, expected {expected}"
  | .unknownVariant name known => s!"unknown variant `{name}`, expected {listChoices known}"
  | .missingField name => s!"missing field `{name}`"
  | .duplicateField name => s!"duplicate field `{name}`"
  | .unreadable reason => reason

end StoreBench
