import StoreBench.Sql.Cell

/-!
# `StoreBench.Sql.Instruction`: SQL as data

The part of SQL that the built-in scenarios and simple inspection need:
selections with joins, groups and orders, insertions, updates, deletions,
and the creation and removal of tables and indexes. `Flaw` says why an
instruction is refused, under the code that SQL clients know it by.
-/

set_option autoImplicit false

namespace StoreBench.Sql

/-! ### Refusals -/

/-- Why a text of SQL is refused. -/
inductive Flaw
  | unexpected (token : String)
  | unrecognized (token : String)
  | incomplete
  | noSuchTable (name : String)
  | noSuchColumn (name : String)
  | ambiguousColumn (name : String)
  | noSuchFunction (name : String)
  | misusedAggregate (name : String)
  | tableExists (name : String)
  | indexExists (name : String)
  | noTablesSpecified
  | unknownInsertColumn (table column : String)
  | valueCount (table : String) (columns values : Nat)
  | valueCountListed (values columns : Nat)
  | malformedJson
  | integerOverflow
  | datatypeMismatch
  | repeatedKey (columns : List String)
  | isNull (column : String)
  | locked
  | staleSnapshot
  | cannotOpen
deriving DecidableEq, Repr, Inhabited

namespace Flaw

/-- The text of a flaw. -/
def message : Flaw → String
  | unexpected token => s!"near \"{token}\": syntax error"
  | unrecognized token => s!"unrecognized token: \"{token}\""
  | incomplete => "incomplete input"
  | noSuchTable name => s!"no such table: {name}"
  | noSuchColumn name => s!"no such column: {name}"
  | ambiguousColumn name => s!"ambiguous column name: {name}"
  | noSuchFunction name => s!"no such function: {name}"
  | misusedAggregate name => s!"misuse of aggregate: {name}()"
  | tableExists name => s!"table {name} already exists"
  | indexExists name => s!"index {name} already exists"
  | noTablesSpecified => "no tables specified"
  | unknownInsertColumn table column => s!"table {table} has no column named {column}"
  | valueCount table columns values =>
    s!"table {table} has {columns} columns but {values} values were supplied"
  | valueCountListed values columns => s!"{values} values for {columns} columns"
  | malformedJson => "malformed JSON"
  | integerOverflow => "integer overflow"
  | datatypeMismatch => "datatype mismatch"
  | repeatedKey columns =>
    "UNIQUE constraint failed: " ++ ", ".intercalate columns
  | isNull column => s!"NOT NULL constraint failed: {column}"
  | locked | staleSnapshot => "database is locked"
  | cannotOpen => "unable to open database file"

/-- The result code: the general failure, or one for the constraint or the
lock that stood in the way. -/
def code : Flaw → Nat
  | datatypeMismatch => 20
  | repeatedKey _ => 1555
  | isNull _ => 1299
  | locked => 5
  | staleSnapshot => 517
  | cannotOpen => 14
  | _ => 1

/-- Codes of contention that a retry may clear. -/
def transientCodes : List Nat := [5, 6, 261, 262, 517]

def toError (f : Flaw) : BenchError :=
  if transientCodes.contains f.code then .conflict (toString f.code) f.message
  else .backend s!"{f.message} (code {f.code})"

end Flaw

/-- What an instruction yields, or why it is refused. -/
abbrev Judged := Except Flaw

/-! ### Expressions -/

inductive Operator
  | plus | minus | times | over | modulo | join
  | equal | unequal | less | lessEqual | greater | greaterEqual
  | and | or
deriving DecidableEq, Repr, Inhabited

/-- Expressions. -/
inductive Expr
  | literal (c : Cell)
  | param (index : Nat)
  | column (source : Option String) (name : String)
  /-- A quoted name, which is a text where no column has it. -/
  | quoted (name : String)
  | binary (op : Operator) (a b : Expr)
  | negate (a : Expr)
  | not (a : Expr)
  | isNull (a : Expr) (negated : Bool)
  | isIn (a : Expr) (choices : List Expr)
  | cast (a : Expr) (type : String)
  | countRows
  | call (function : String) (args : List Expr)
deriving Repr, Inhabited

/-- A column of a result: every column of the sources, or an expression
with its name. -/
inductive Selected
  | everything
  | expr (e : Expr) (name : String)
deriving Repr, Inhabited

/-- A table in a selection, the name it goes by there, and the condition
that joins it to those before it. -/
structure Source where
  table : String
  knownAs : String
  joinedOn : Option Expr
deriving Repr, Inhabited

/-- A selection: what of which rows, joined, filtered, grouped and put in order. -/
structure Select where
  columns : List Selected
  sources : List Source
  condition : Option Expr
  groupBy : List Expr
  having : Option Expr
  orderBy : List (Expr × Bool)
deriving Repr, Inhabited

/-! ### Instructions -/

/-- A column of a table, as it was declared. -/
structure Column where
  name : String
  type : String
  notNull : Bool
  isKey : Bool
deriving DecidableEq, Repr, Inhabited

/-- One statement. -/
inductive Instruction
  | select (s : Select)
  | insert (table : String) (columns : Option (List String)) (rows : List (List Expr))
      (skipConflicts : Bool)
  | update (table : String) (assignments : List (String × Expr)) (condition : Option Expr)
  | delete (table : String) (condition : Option Expr)
  | createTable (table : String) (skipExisting : Bool) (columns : List Column)
      (key : List String)
  | createIndex (index : String) (skipExisting : Bool) (table : String) (columns : List String)
  | dropTable (table : String) (skipMissing : Bool)
deriving Repr, Inhabited

end StoreBench.Sql
