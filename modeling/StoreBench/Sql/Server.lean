import StoreBench.Sql.Address
import StoreBench.Sql.Database
import StoreBench.Backend
import StoreBench.Row
import StoreBench.Statement

/-!
# `StoreBench.Sql.Server`: a file store and its transactions

The store keeps a log of committed databases. A transaction sees the one
that was current when it first looked, and looks on undisturbed while
others commit. One transaction at a time may write: it takes the write lock
with its first change, which fails while another holds the lock, and also
when somebody committed since it looked.

Statements run on pooled connections. A connection remembers the count of
its last change, and answers it for statements that count nothing.
-/

set_option autoImplicit false

namespace StoreBench.Sql

/-- What a connection does between its begin and its end: the database it
looks at with the version of it, whether it holds the write lock, and the
count of the last change on the connection. -/
structure OpenTransaction where
  view : Option (Database × Nat) := none
  writing : Bool := false
  changed : Bool := false
  lastCount : Nat := 0

instance : Inhabited OpenTransaction := ⟨{}⟩

/-- A database in a file, with its connections. -/
structure Server where
  /-- Databases of files that were opened before. -/
  files : List (String × Database) := []
  path : Option String := none
  database : Database := {}
  version : Nat := 0
  locked : Bool := false
  /-- The last counts of the connections that wait in the pool. -/
  idle : List Nat := []

instance : Inhabited Server := ⟨{}⟩

/-- The text and the parameters of a statement; commands on documents are
not spoken here. -/
def expectSql (backend : Backend) : Statement → Except BenchError (String × List Value)
  | .sql text params => .ok (text, params)
  | .document _ =>
    .error (.unsupported s!"{backend.name} driver does not execute document commands")

def notConnected (backend : Backend) : BenchError :=
  .connection s!"{backend.name} driver is not connected"

/-- The rows of an answer with decoded values. -/
def Answer.toRows (a : Answer) : Except BenchError (List Row) :=
  a.rows.mapM fun cells => do
    let values ← cells.zipIdx.mapM fun (c, i) => c.toValue i
    return ⟨a.columns, values⟩

/-- Whether an instruction looks at any table. -/
def Instruction.looks : Instruction → Bool
  | .select s => !s.sources.isEmpty
  | _ => true

/-- Whether an instruction needs the write lock. -/
def Instruction.writes (d : Database) : Instruction → Bool
  | .select _ => false
  | .createTable name skip _ _ => !(skip && (d.table? name).isSome)
  | .createIndex name skip _ _ => !(skip && d.indexes.any fun i => sameName i.name name)
  | .dropTable name skip => !(skip && (d.table? name).isNone)
  | _ => true

/-- Whether an instruction is refused before it would need the lock. -/
def Flaw.isAhead : Flaw → Bool
  | .repeatedKey _ | .isNull _ | .datatypeMismatch | .malformedJson | .integerOverflow => false
  | _ => true

namespace OpenTransaction

/-- Takes the write lock for a change on `view`. -/
def lock (tx : OpenTransaction) (s : Server) (view : Nat) : Judged Unit :=
  if tx.writing then .ok ()
  else if s.locked then .error .locked
  else if view ≠ s.version then .error .staleSnapshot
  else .ok ()

/-- Runs one instruction inside a transaction. A refused change keeps the
lock it was given. -/
def run (tx : OpenTransaction) (s : Server) (params : List Value) (instruction : Instruction) :
    OpenTransaction × Server × Judged Answer :=
  let (database, version) := tx.view.getD (s.database, s.version)
  let result := database.run (params.map Cell.ofValue) instruction
  let looking := if instruction.looks then { tx with view := some (database, version) } else tx
  if instruction.writes database then
    match result, tx.lock s version with
    | .error flaw, .error refusal => (tx, s, .error (if flaw.isAhead then flaw else refusal))
    | .ok _, .error refusal => (looking, s, .error refusal)
    | .error flaw, .ok () =>
      if flaw.isAhead then (tx, s, .error flaw)
      else ({ looking with writing := true }, { s with locked := true }, .error flaw)
    | .ok (changed, answer), .ok () =>
      ({ view := some (changed, version), writing := true
         changed := tx.changed || answer.wrote
         lastCount := answer.affected.getD tx.lastCount }, { s with locked := true }, .ok answer)
  else match result with
    | .error flaw => (tx, s, .error flaw)
    | .ok (_, answer) => (looking, s, .ok answer)

/-- Runs the instructions of a text one after the other, up to one that is
refused. Behind each of them `settle` has its turn. The answers come with
the counts that the connection reports. -/
def runEach (settle : OpenTransaction → Server → OpenTransaction × Server)
    (params : List Value) :
    List (Judged Instruction) → OpenTransaction → Server →
      OpenTransaction × Server × Judged (List (Answer × Nat))
  | [], tx, s => (tx, s, .ok [])
  | .error flaw :: _, tx, s => (tx, s, .error flaw)
  | .ok instruction :: rest, tx, s =>
    match tx.run s params instruction with
    | (tx, s, .error flaw) => (tx, s, .error flaw)
    | (tx, s, .ok answer) =>
      let (settled, s) := settle tx s
      let (last, s, result) := runEach settle params rest settled s
      (last, s, result.map fun answers => (answer, tx.lastCount) :: answers)

/-- Runs the instructions of a text inside a transaction. -/
def runText (tx : OpenTransaction) (s : Server) (text : String) (params : List Value) :
    OpenTransaction × Server × Judged (List (Answer × Nat)) :=
  runEach (fun tx s => (tx, s)) params (Instruction.ofText text) tx s

end OpenTransaction

namespace Server

/-! ### Connections -/

/-- Takes a connection from the pool, or makes a new one. -/
def begin (s : Server) : OpenTransaction × Server :=
  match s.idle with
  | lastCount :: rest => ({ lastCount := lastCount }, { s with idle := rest })
  | [] => ({}, s)

/-- Returns the connection of a transaction, which lets go of the lock. -/
def release (s : Server) (tx : OpenTransaction) : Server :=
  { s with idle := s.idle ++ [tx.lastCount], locked := s.locked && !tx.writing }

/-- Keeps the changes of a transaction. -/
def keep (s : Server) (tx : OpenTransaction) : Server :=
  match tx.writing && tx.changed, tx.view with
  | true, some (database, _) => { s with database := database, version := s.version + 1 }
  | _, _ => s

/-- Ends a transaction with its changes kept. -/
def commit (s : Server) (tx : OpenTransaction) : Server := (s.keep tx).release tx

/-- Ends a transaction without its changes. -/
def rollback (s : Server) (tx : OpenTransaction) : Server := s.release tx

def isConnected (s : Server) : Bool := s.path.isSome

/-- Leaves the current file, whose database stays. -/
def close (s : Server) : Server :=
  match s.path with
  | some path => { files := (path, s.database) :: s.files.filter fun f => f.1 != path }
  | none => s

/-- Opens the file of an address where these directories exist. -/
def connect (s : Server) (directories : List String) (address : String) :
    Server × Except BenchError Unit :=
  match FileAddress.parse address with
  | .error e => (s, .error e)
  | .ok file => match file.check directories with
    | .error e => (s, .error e)
    | .ok () =>
      let closed := s.close
      let database := if file.inMemory then {} else (closed.files.lookup file.path).getD {}
      ({ files := closed.files, path := some file.path, database := database, idle := [0] },
        .ok ())

/-! ### Single statements -/

/-- Commits and goes on with the connection. -/
def goOn (tx : OpenTransaction) (s : Server) : OpenTransaction × Server :=
  ({ lastCount := tx.lastCount }, { s.keep tx with locked := s.locked && !tx.writing })

/-- Runs the instructions of a text each by itself: it is committed at
once, or refused and undone. -/
def autocommit (s : Server) (text : String) (params : List Value) :
    Server × Judged (List (Answer × Nat)) :=
  let (tx, s) := s.begin
  let (tx, s, result) := tx.runEach goOn params (Instruction.ofText text) s
  (s.release tx, result)

/-! ### Reset -/

/-- Whether a pattern matches a text, where an underscore stands for any
character and a percent sign for any text. Letters match in either case. -/
def like : List Char → List Char → Bool
  | [], cs => cs.isEmpty
  | '%' :: pattern, [] => like pattern []
  | '%' :: pattern, c :: cs => like pattern (c :: cs) || like ('%' :: pattern) cs
  | _ :: _, [] => false
  | p :: pattern, c :: cs => (p == '_' || p.toLower == c.toLower) && like pattern cs
termination_by pattern cs => pattern.length + cs.length

/-- The tables a reset removes: those whose names are not like the names
the store keeps for itself. -/
def ownTables (s : Server) : List String :=
  (s.database.tables.map Table.name).filter fun n => !like "sqlite_%".toList n.toList

/-- Removes tables one by one, up to the first that cannot be removed. -/
def dropAll : Server → List String → Server × Judged Unit
  | s, [] => (s, .ok ())
  | s, table :: rest =>
    match s.autocommit s!"DROP TABLE IF EXISTS \"{table}\"" [] with
    | (s, .ok _) => dropAll s rest
    | (s, .error flaw) => (s, .error flaw)

/-- Drops the tables that are found to be the workload's, one by one. -/
def reset (s : Server) : Server × Except BenchError Unit :=
  if s.isConnected then
    let (s, result) := s.dropAll s.ownTables
    (s, result.mapError Flaw.toError)
  else (s, .error (notConnected .sqlite))

end Server

end StoreBench.Sql
