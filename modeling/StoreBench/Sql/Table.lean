import StoreBench.Sql.Eval
import Std.Data.ExtTreeMap

/-!
# `StoreBench.Sql.Table`: rows under their numbers

A table keeps its rows under numbers. Where the key is a single integer
column, the number of a row is its key; otherwise a new row gets the number
after the last, and the keys are kept beside the rows, so that a repeated
key is noticed without a search.
-/

set_option autoImplicit false

namespace StoreBench.Sql

/-- A table with its rows by their numbers, and which row has which key. -/
structure Table where
  name : String
  columns : List Column
  key : List String
  rows : Std.ExtTreeMap Int (List Cell) := ∅
  keys : Std.ExtTreeMap String Int := ∅

namespace Table

/-- The row numbers are the keys. -/
def isNumbered (t : Table) : Bool :=
  match t.key with
  | [name] => t.columns.any fun c => sameName c.name name && Text.lowered c.type == "integer"
  | _ => false

/-- The cells of a row in its key columns. -/
def keyCells (t : Table) (cells : List Cell) : List Cell :=
  t.key.map fun name =>
    ((t.columns.findIdx? fun c => sameName c.name name).bind fun i => cells[i]?).getD .null

/-- A cell as a part of a key. -/
def keyPart : Cell → Json
  | .null => .null
  | .int i => .int i
  | .real x => .float x
  | .text s => .str s
  | .brokenText bytes | .blob bytes => .arr (bytes.map fun b => .int b.toNat)

/-- The key of a row as text. Without a key, or with a null in it, a row
differs from every other. -/
def keyText? (t : Table) (cells : List Cell) : Option String :=
  let key := t.keyCells cells
  if t.key.isEmpty || t.isNumbered || key.any Cell.isNull then none
  else some (Json.arr (key.map keyPart)).render

/-- The number of the next row. -/
def nextNumber (t : Table) : Int := (t.rows.maxKey?.getD 0) + 1

/-- The columns of a row for evaluation, under the name the table goes by. -/
def bind (t : Table) (knownAs : String) (cells : List Cell) : List Bound :=
  (t.columns.zip cells).map fun (c, cell) => ⟨knownAs, c.name, .ofType c.type, cell⟩

/-- The columns without a row, for checks. -/
def blank (t : Table) (knownAs : String) : List Bound :=
  t.bind knownAs (t.columns.map fun _ => .null)

/-- The columns of the key as a message names them. -/
def keyNames (t : Table) : List String := t.key.map fun name => s!"{t.name}.{name}"

/-- Cells as the columns store them. -/
def store (t : Table) (cells : List Cell) : List Cell :=
  (t.columns.zip cells).map fun (c, cell) => (Affinity.ofType c.type).convert cell

def checkNulls (t : Table) (cells : List Cell) : Judged Unit :=
  match (t.columns.zip cells).find? fun p => p.1.notNull && p.2.isNull with
  | some (c, _) => .error (.isNull s!"{t.name}.{c.name}")
  | none => .ok ()

/-- The number that a new row takes. -/
def numberFor (t : Table) (cells : List Cell) : Judged Int :=
  if t.isNumbered then
    match t.keyCells cells with
    | [.int i] => .ok i
    | [.null] => .ok t.nextNumber
    | _ => .error .datatypeMismatch
  else .ok t.nextNumber

/-- A numbered row shows its number in the key column. -/
def withNumber (t : Table) (number : Int) (cells : List Cell) : List Cell :=
  if t.isNumbered then
    (t.columns.zip cells).map fun (c, cell) =>
      if t.key.any (sameName c.name) then .int number else cell
  else cells

/-- Adds a row, or none if its key is taken. -/
def add? (t : Table) (cells : List Cell) : Judged (Option Table) := do
  let cells := t.store cells
  t.checkNulls cells
  let number ← t.numberFor cells
  let key := t.keyText? cells
  if t.rows.contains number || key.any t.keys.contains then return none
  return some { t with
    rows := t.rows.insert number (t.withNumber number cells)
    keys := match key with
      | some k => t.keys.insert k number
      | none => t.keys }

/-- Takes a row out. -/
def remove (t : Table) (number : Int) : Table :=
  let key := (t.rows[number]?).bind t.keyText?
  { t with
    rows := t.rows.erase number
    keys := match key with
      | some k => t.keys.erase k
      | none => t.keys }

/-- Puts new cells in the place of a row. -/
def replace (t : Table) (number : Int) (cells : List Cell) : Judged Table := do
  let cells := t.store cells
  t.checkNulls cells
  let without := t.remove number
  let number ← if t.isNumbered then without.numberFor cells else pure number
  let key := without.keyText? cells
  if without.rows.contains number || key.any without.keys.contains then
    throw (.repeatedKey t.keyNames)
  return { without with
    rows := without.rows.insert number (t.withNumber number cells)
    keys := match key with
      | some k => without.keys.insert k number
      | none => without.keys }

end Table

end StoreBench.Sql
