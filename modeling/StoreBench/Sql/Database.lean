import StoreBench.Sql.Reader
import StoreBench.Sql.Table

/-!
# `StoreBench.Sql.Database`: running instructions

`Database.run` makes one instruction on the tables. It changes nothing
when it refuses, and it answers a database equal to the one it was given
when it only reads.
-/

set_option autoImplicit false

namespace StoreBench.Sql

/-- An index, which is known by its name and its table only. -/
structure Index where
  name : String
  table : String
deriving DecidableEq, Repr, Inhabited

/-- The tables, in the order they were created, and the names of indexes. -/
structure Database where
  tables : List Table := []
  indexes : List Index := []

instance : Inhabited Database := ⟨{}⟩

/-- What an instruction yields. `affected` is none for instructions that
count no rows, and `wrote` says whether the tables may have changed. -/
structure Answer where
  columns : List String := []
  rows : List (List Cell) := []
  affected : Option Nat := none
  wrote : Bool := false
deriving Repr, Inhabited

namespace Database

/-- The table of a name, in either case. -/
def table? (d : Database) (name : String) : Option Table :=
  d.tables.find? fun t => sameName t.name name

/-- The table of a name, without which a statement is refused. -/
def table (d : Database) (name : String) : Judged Table :=
  match d.table? name with
  | some t => .ok t
  | none => .error (.noSuchTable name)

/-- A table in the place of the one that has its name. -/
def putTable (d : Database) (t : Table) : Database :=
  { d with tables := d.tables.map fun other => if sameName other.name t.name then t else other }

/-! ### Selection -/

/-- The rows of the sources, joined from the left. -/
def joinSources (d : Database) (params : List Cell) : List Source → List (List Bound) →
    Judged (List (List Bound))
  | [], rows => .ok rows
  | source :: rest, rows => do
    let t ← d.table source.table
    let own := t.rows.values.map (t.bind source.knownAs)
    let pairs := rows.flatMap fun row => own.map fun more => row ++ more
    let kept ← pairs.filterM fun row => Expr.holds ⟨params, row, []⟩ source.joinedOn
    d.joinSources params rest kept

/-- The columns of the sources without a row. -/
def blankRow (d : Database) (sources : List Source) : Judged (List Bound) := do
  let parts ← sources.mapM fun s => do return (← d.table s.table).blank s.knownAs
  return parts.flatten

/-- The result columns, each with its name. -/
def resultColumns (blank : List Bound) (s : Select) : Judged (List (Expr × String)) := do
  let parts ← s.columns.mapM fun
    | .expr e name => pure [(e, name)]
    | .everything =>
      if s.sources.isEmpty then throw Flaw.noTablesSpecified
      else pure (blank.map fun b => (Expr.column (some b.source) b.name, b.name))
  return parts.flatten

/-- Puts a row into the group of its key. -/
def addToGroups (key : List Cell) (row : List Bound) :
    List (List Cell × List (List Bound)) → List (List Cell × List (List Bound))
  | [] => [(key, [row])]
  | (other, rows) :: rest =>
    if (other.zip key).all fun p => p.1.order p.2 == .eq then (other, rows ++ [row]) :: rest
    else (other, rows) :: addToGroups key row rest

/-- The order of rows by several cells, the first that differ deciding. A
flag turns the order of its cell around. -/
def precedes : List (Cell × Bool) → List (Cell × Bool) → Bool
  | (a, down) :: as, (b, _) :: bs =>
    match a.order b with
    | .eq => precedes as bs
    | .lt => !down
    | .gt => down
  | _, _ => true

/-- The rows to evaluate results on: each row by itself, or one for each
group, in the order of the group keys. -/
def groups (params : List Cell) (s : Select) (grouped : Bool) (rows : List (List Bound)) :
    Judged (List Env) := do
  if !grouped then return rows.map fun row => ⟨params, row, []⟩
  let keyed ← rows.mapM fun row => do
    return (← Expr.evalAll ⟨params, row, []⟩ s.groupBy, row)
  let parts := keyed.foldl (fun parts (key, row) => addToGroups key row parts) []
  let parts := if s.groupBy.isEmpty && parts.isEmpty then [([], [])] else parts
  let sorted := parts.mergeSort fun a b =>
    precedes (a.1.map fun c => (c, false)) (b.1.map fun c => (c, false))
  return sorted.map fun (_, members) => ⟨params, members.headD [], members⟩

/-- The cell that a row is ordered by: a result column by its name, or an
expression of its own. -/
def orderCell (env : Env) (results : List (Expr × String)) (cells : List Cell) (e : Expr) :
    Judged Cell :=
  let named := match e with
    | .column none name => (results.findIdx? fun r => sameName r.2 name).bind fun i => cells[i]?
    | _ => none
  match named with
  | some c => .ok c
  | none => e.eval env

/-- The rows of a selection: joined, filtered, grouped, filtered again and put in order. -/
def select (d : Database) (params : List Cell) (s : Select) : Judged Answer := do
  let blank ← d.blankRow s.sources
  let results ← resultColumns blank s
  let expressions := results.map Prod.fst
  let grouped := !s.groupBy.isEmpty || Expr.anyAggregate expressions
    || Expr.anyAggregate s.having.toList
  s.sources.forM fun source => Expr.checkAll blank false source.joinedOn.toList
  Expr.checkAll blank grouped expressions
  Expr.checkAll blank false s.condition.toList
  Expr.checkAll blank false s.groupBy
  Expr.checkAll blank grouped s.having.toList
  let joined ← d.joinSources params s.sources [[]]
  let rows ← joined.filterM fun row => Expr.holds ⟨params, row, []⟩ s.condition
  let envs ← groups params s grouped rows
  let kept ← envs.filterM fun env => Expr.holds env s.having
  let answers ← kept.mapM fun env => do
    let cells ← Expr.evalAll env expressions
    let order ← s.orderBy.mapM fun (e, down) => do return (← orderCell env results cells e, down)
    return (order, cells)
  let sorted := if s.orderBy.isEmpty then answers else
    answers.mergeSort fun a b => precedes a.1 b.1
  return { columns := results.map Prod.snd, rows := sorted.map Prod.snd }

/-! ### Changes -/

/-- The cells of a row to be inserted, in the order of the table's columns. -/
def arrange (t : Table) (columns : Option (List String)) (cells : List Cell) : Judged (List Cell) :=
  match columns with
  | none =>
    if cells.length = t.columns.length then .ok cells
    else .error (.valueCount t.name t.columns.length cells.length)
  | some names =>
    match names.find? fun n => !(t.columns.any fun c => sameName c.name n) with
    | some unknown => .error (.unknownInsertColumn t.name unknown)
    | none =>
      if cells.length = names.length then
        .ok (t.columns.map fun c =>
          ((names.findIdx? (sameName c.name)).bind fun i => cells[i]?).getD .null)
      else .error (.valueCountListed cells.length names.length)

/-- Adds rows to a table and counts those that were added. -/
def addRows (skipConflicts : Bool) : Table → Nat → List (List Cell) → Judged (Table × Nat)
  | t, n, [] => .ok (t, n)
  | t, n, cells :: rest => do
    match ← t.add? cells with
    | some t => addRows skipConflicts t (n + 1) rest
    | none =>
      if skipConflicts then addRows skipConflicts t n rest else throw (.repeatedKey t.keyNames)

/-- The numbered rows of a table that meet a condition. -/
def selectRows (t : Table) (params : List Cell) (condition : Option Expr) :
    Judged (List (Int × List Cell)) := do
  Expr.checkAll (t.blank t.name) false condition.toList
  t.rows.toList.filterM fun entry =>
    Expr.holds ⟨params, t.bind t.name entry.2, []⟩ condition

/-- The cells of a row after assignments, which all see the row as it was. -/
def assign (t : Table) (params : List Cell) (assignments : List (String × Expr))
    (cells : List Cell) : Judged (List Cell) :=
  let env : Env := ⟨params, t.bind t.name cells, []⟩
  (t.columns.zip cells).mapM fun (c, cell) =>
    match assignments.find? fun a => sameName a.1 c.name with
    | some (_, e) => e.eval env
    | none => .ok cell

/-- Changes the rows that meet a condition, each from what is in it. -/
def update (d : Database) (params : List Cell) (name : String)
    (assignments : List (String × Expr)) (condition : Option Expr) :
    Judged (Database × Answer) := do
  let t ← d.table name
  match assignments.find? fun a => !(t.columns.any fun c => sameName c.name a.1) with
  | some (unknown, _) => throw (.noSuchColumn unknown)
  | none => pure ()
  Expr.checkAll (t.blank t.name) false (assignments.map Prod.snd)
  let rows ← selectRows t params condition
  let changed ← rows.foldlM (fun current (number, cells) => do
    current.replace number (← assign t params assignments cells)) t
  return (d.putTable changed, { affected := some rows.length, wrote := !rows.isEmpty })

/-- What an instruction changes, and what it is answered with. -/
def run (d : Database) (params : List Cell) : Instruction → Judged (Database × Answer)
  | .select s => do return (d, ← d.select params s)
  | .insert name columns rows skip => do
    let t ← d.table name
    let cells ← rows.mapM fun row => do
      Expr.checkAll [] false row
      arrange t columns (← Expr.evalAll ⟨params, [], []⟩ row)
    let (changed, n) ← addRows skip t 0 cells
    return (d.putTable changed, { affected := some n, wrote := 0 < n })
  | .update name assignments condition => d.update params name assignments condition
  | .delete name condition => do
    let t ← d.table name
    let rows ← selectRows t params condition
    let left := rows.foldl (fun current row => current.remove row.1) t
    return (d.putTable left, { affected := some rows.length, wrote := !rows.isEmpty })
  | .createTable name skip columns key =>
    if (d.table? name).isSome then
      if skip then .ok (d, {}) else .error (.tableExists name)
    else .ok ({ d with tables := d.tables ++ [⟨name, columns, key, ∅, ∅⟩] }, { wrote := true })
  | .createIndex name skip table columns => do
    let t ← d.table table
    if d.indexes.any fun i => sameName i.name name then
      if skip then return (d, {}) else throw (.indexExists name)
    match columns.find? fun n => !(t.columns.any fun c => sameName c.name n) with
    | some unknown => throw (.noSuchColumn unknown)
    | none => return ({ d with indexes := d.indexes ++ [⟨name, t.name⟩] }, { wrote := true })
  | .dropTable name skip =>
    match d.table? name with
    | some t => .ok ({ tables := d.tables.filter fun other => !sameName other.name t.name
                       indexes := d.indexes.filter fun i => !sameName i.table t.name },
                     { wrote := true })
    | none => if skip then .ok (d, {}) else .error (.noSuchTable name)

end Database

end StoreBench.Sql
