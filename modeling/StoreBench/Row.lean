import StoreBench.Value

/-!
# `StoreBench.Row`: rows of a result

A row pairs column names with values. Columns are looked up by place or
by name; where a name occurs twice, its first column answers.
-/

set_option autoImplicit false

namespace StoreBench

/-- Values with the names of their columns. -/
structure Row where
  columns : List String
  values : List Value
deriving Repr, Inhabited

namespace Row

/-- The row of two parallel lists. -/
def ofColumns (columns : List String) (values : List Value) : Except Crash Row :=
  if columns.length = values.length then .ok ⟨columns, values⟩
  else .error (.rowLengths columns.length values.length)

/-- The row of named values. -/
def ofPairs (pairs : List (String × Value)) : Row := ⟨pairs.map Prod.fst, pairs.map Prod.snd⟩

def size (r : Row) : Nat := r.values.length

def isEmpty (r : Row) : Bool := r.values.isEmpty

/-- The value in a column, by place. -/
def get? (r : Row) (i : Nat) : Option Value := r.values[i]?

/-- The value in a column, by name. -/
def getNamed? (r : Row) (name : String) : Option Value :=
  (r.columns.findIdx? (· == name)).bind r.get?

/-- The decoded value in a column, by place. -/
def scan {α : Type} (decode : Value.Decoder α) (r : Row) (i : Nat) : Except BenchError α :=
  match r.get? i with
  | some v => decode v
  | none => .error (.decode s!"no column at index {i}")

/-- The decoded value in a column, by name. -/
def scanNamed {α : Type} (decode : Value.Decoder α) (r : Row) (name : String) :
    Except BenchError α :=
  match r.getNamed? name with
  | some v => decode v
  | none => .error (.decode s!"no column named `{name}`")

/-- The part of a row in the given columns, in the row's order. -/
def only (r : Row) (names : List String) : Row :=
  ofPairs ((r.columns.zip r.values).filter fun p => names.contains p.1)

end Row

end StoreBench
