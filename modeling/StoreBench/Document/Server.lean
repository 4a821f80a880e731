import StoreBench.Document.Transaction
import StoreBench.Time.Span

/-!
# `StoreBench.Document.Server`: the built-in document store

The server answers statements on a `Store`, by themselves or inside
transactions, and counts what became of each write. Faults can be queued:
each write that reaches its point of no return, a commit or a single write,
takes the first of them and fails if the fault says so. A document without
an `_id` is given a fresh one, which the caller supplies.
-/

set_option autoImplicit false

namespace StoreBench

/-- What happens to the next write. -/
inductive Fault
  | conflict
  | permanent (message : String)
  | pass
deriving DecidableEq, Repr, Inhabited

/-- The error a fault makes of a write. -/
def Fault.error? : Fault → Option BenchError
  | conflict => some (.conflict "MEM_CONFLICT" "injected write conflict")
  | permanent message => some (.backend message)
  | pass => none

/-- How many writes committed and rolled back, and how many of the latter
were conflicts. -/
structure Counters where
  commits : Nat := 0
  rollbacks : Nat := 0
  conflicts : Nat := 0
deriving DecidableEq, Repr, Inhabited

namespace Counters

/-- One commit more. -/
def committed (c : Counters) : Counters := { c with commits := c.commits + 1 }

/-- One failure more, which counts as a conflict too if it was one. -/
def failed (c : Counters) (e : BenchError) : Counters :=
  { c with
    rollbacks := c.rollbacks + 1
    conflicts := if e.isTransient then c.conflicts + 1 else c.conflicts }

end Counters

/-- A store in memory with its connection, its counters, and the faults that it is to
meet. -/
structure Server where
  store : Store := {}
  faults : List Fault := []
  connected : Bool := false
  counters : Counters := {}
  /-- The simulated round trip of a statement and of a commit. -/
  latency : Span := .zero
deriving Inhabited

/-- The command of a statement, with the document it inserts identified. -/
def Command.identified (id : String) (c : Command) : Command :=
  match c.action with
  | .insertOne doc => { c with action := .insertOne (doc.identified id) }
  | _ => c

namespace Server

/-- The start of every address of the server. -/
def scheme : String := "memory://"

/-- Connects, if the address is one of a store in memory. -/
def connect (s : Server) (address : String) : Server × Except BenchError Unit :=
  if scheme.toList.isPrefixOf address.toList then ({ s with connected := true }, .ok ())
  else (s, .error (.connection s!"memory DSN must start with `{scheme}`, got `{address}`"))

def close (s : Server) : Server := { s with connected := false }

/-- Faults that are injected come behind those that are there. -/
def inject (s : Server) (faults : List Fault) : Server := { s with faults := s.faults ++ faults }

def documentCount (s : Server) (name : String) : Nat := (s.store.docs name).size

/-! ### What a statement must be -/

/-- Everything but connecting asks for a connection first. -/
def checkConnected (s : Server) : Except BenchError Unit :=
  if s.connected then .ok () else .error (.connection "memory driver is not connected")

/-- The command of a statement; SQL is not spoken here. -/
def commandOf : Statement → Except BenchError Command
  | .document command => .ok command
  | .sql _ _ => .error (.unsupported "memory driver does not execute SQL")

/-- The command of a query, which must not write. -/
def queryOf (statement : Statement) : Except BenchError Command := do
  let command ← commandOf statement
  if command.action.isRead then .ok command
  else .error (.unsupported s!"`{command.action.verb}` is not a read command")

/-! ### Single statements -/

/-- Takes the next fault off the queue, and the error it makes. -/
def takeFault (s : Server) : Server × Option BenchError :=
  match s.faults with
  | [] => (s, none)
  | fault :: rest => ({ s with faults := rest }, fault.error?)

/-- Makes one command by itself. A read meets no fault and is not counted.
A write that a fault lets through counts when it succeeds. -/
def autocommit (s : Server) (command : Command) : Server × Attempted Outcome :=
  if command.action.isRead then
    (s, .ok ((s.store.docs command.collection).read command.action))
  else match s.takeFault with
    | (s, some e) => ({ s with counters := s.counters.failed e }, .error (.error e))
    | (s, none) =>
      let (store, result) := s.store.perform command
      let counters := match result with
        | .ok _ => s.counters.committed
        | .error _ => s.counters
      ({ s with store := store, counters := counters }, result)

/-- Clears all collections away, for which it has to be connected. -/
def reset (s : Server) : Server × Except BenchError Unit :=
  match s.checkConnected with
  | .ok () => ({ s with store := s.store.clear }, .ok ())
  | .error e => (s, .error e)

/-! ### The end of a transaction -/

/-- Commits a transaction whose statements are all made. -/
def commit (s : Server) (tx : Transaction) : Server × Except BenchError Unit :=
  match s.takeFault with
  | (s, some e) => ({ s with counters := s.counters.failed e }, .error e)
  | (s, none) =>
    match tx.commit s.store with
    | .ok store => ({ s with store := store, counters := s.counters.committed }, .ok ())
    | .error e => ({ s with counters := s.counters.failed e }, .error e)

/-- Gives up a transaction that failed with an error. -/
def rollback (s : Server) (e : BenchError) : Server := { s with counters := s.counters.failed e }

end Server

end StoreBench
