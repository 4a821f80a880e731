import StoreBench.Driver
import StoreBench.Time.Instant

/-!
# `StoreBench.Scenario.Request`: what a scenario asks for

A scenario makes calls on a store, and it needs fresh identities, random
choices and the time. An ingestion also keeps two counts, shared by all of
its workers: how many events it has stored and how many it has begun.

A scenario acts through tasks. `transact` runs a task inside a transaction,
which is committed only if the task succeeds.
-/

set_option autoImplicit false

namespace StoreBench.Scenario

/-- What a workload asks for: calls of a store, and what it needs beside them. -/
inductive Request
  | call (c : Call)
  /-- An identity that nothing else has. -/
  | identity
  /-- A number below a bound. -/
  | draw (bound : Nat)
  | now
  /-- The number of stored events. -/
  | stored
  /-- Counts more stored events. -/
  | addStored (n : Nat)
  /-- Sets the number of stored events to zero. -/
  | clearStored
  /-- Counts more begun events, and gives their number before. -/
  | takeBegun (n : Nat)
deriving Repr, Inhabited

/-- What a request is answered with. -/
abbrev Request.Reply : Request → Type
  | .call c => c.Reply
  | .identity => String
  | .draw _ => Nat
  | .now => Instant
  | .stored | .takeBegun _ => Nat
  | .addStored _ | .clearStored => Unit

abbrev requests : Signature := ⟨Request, Request.Reply⟩

abbrev Task (α : Type) := StoreBench.Task requests α

namespace Task

def ask (r : Request) : Task r.Reply := StoreBench.Task.ask (S := requests) r

/-- Makes a call that succeeds or fails with an error. -/
def expect {α : Type} (p : Program requests (Except BenchError α)) : Task α :=
  ExceptT.mk (p.bind fun result => .done (result.mapError Failure.error))

/-- A statement by itself. -/
def exec (s : Statement) : Task Nat := ExceptT.mk (.ask (.call (.exec s)) .done)

/-- A query by itself. -/
def query (s : Statement) : Task (List Row) := ExceptT.mk (.ask (.call (.query s)) .done)

/-- A statement in the transaction of the client. -/
def execIn (s : Statement) : Task Nat := ExceptT.mk (.ask (.call (.execIn s)) .done)

/-- A query in the transaction of the client. -/
def queryIn (s : Statement) : Task (List Row) := ExceptT.mk (.ask (.call (.queryIn s)) .done)

/-- The first row of a query. -/
def queryRow (s : Statement) : Task (Option Row) := return (← query s).head?

def begin : Task Unit := expect (.ask (.call .begin) .done)

def commit : Task Unit := expect (.ask (.call .commit) .done)

def rollback (e : BenchError) : Task Unit := ask (.call (.rollback e))

def abandon : Task Unit := ask (.call .abandon)

/-- Runs a task between begin and commit. When it fails with an error the
transaction is rolled back; when it breaks off, the transaction is
abandoned. -/
def transact (body : Task Unit) : Task Unit := do
  begin
  match ← body.attempt with
  | .ok () => commit
  | .error (.error e) => rollback e; throw (.error e)
  | .error (.crash c) => abandon; throw (.crash c)

/-- Runs statements in their order inside one transaction, which is not
even begun when there are none. -/
def execAll : List Statement → Task Unit
  | [] => pure ()
  | statements => transact (statements.forM fun s => discard (execIn s))

/-- A fresh identity for a document. -/
def identity : Task String := ask .identity

/-- A random number below a bound. -/
def draw (bound : Nat) : Task Nat := ask (.draw bound)

def now : Task Instant := ask .now

/-- How many events have been counted as stored. -/
def stored : Task Nat := ask .stored

/-- Counts events as stored, after their commit. -/
def addStored (n : Nat) : Task Unit := ask (.addStored n)

def clearStored : Task Unit := ask .clearStored

/-- Counts more events as begun, and gives their number before. -/
def takeBegun (n : Nat) : Task Nat := ask (.takeBegun n)

end Task

end StoreBench.Scenario
