import StoreBench.Driver
import StoreBench.Sql.Server

/-!
# `StoreBench.Sql.Client`: calls on SQL stores

Both SQL stores look at the kind of a statement before the connection. A
file store answers from its database; a server is never reached, whatever
well-formed address it is given.
-/

set_option autoImplicit false

namespace StoreBench.Sql

/-! ### File stores -/

namespace Server

/-- Runs a single statement, and reads its answers. -/
def single {α : Type} (s : Server) (statement : Statement)
    (read : List (Answer × Nat) → Except BenchError α) : Server × Attempted α :=
  match expectSql .sqlite statement with
  | .error e => (s, .error (.error e))
  | .ok (text, params) =>
    if s.isConnected then
      match s.autocommit text params with
      | (s, .ok answers) => (s, (read answers).mapError Failure.error)
      | (s, .error flaw) => (s, .error (.error flaw.toError))
    else (s, .error (.error (notConnected .sqlite)))

/-- Runs a statement in an open transaction, and reads its answers. -/
def inside {α : Type} (s : Server) (tx : OpenTransaction) (statement : Statement)
    (read : List (Answer × Nat) → Except BenchError α) :
    Server × Option OpenTransaction × Attempted α :=
  match expectSql .sqlite statement with
  | .error e => (s, some tx, .error (.error e))
  | .ok (text, params) =>
    match tx.runText s text params with
    | (tx, s, .ok answers) => (s, some tx, (read answers).mapError Failure.error)
    | (tx, s, .error flaw) => (s, some tx, .error (.error flaw.toError))

/-- How many rows a text of statements changed altogether. -/
def countRead (answers : List (Answer × Nat)) : Except BenchError Nat :=
  .ok (answers.foldl (fun n answer => n + answer.2) 0)

/-- The rows of all statements of a text, one after the other. -/
def rowsRead (answers : List (Answer × Nat)) : Except BenchError (List Row) :=
  return (← answers.mapM fun a => a.1.toRows).flatten

/-- Answers a call of a client who holds a transaction, or none. -/
def answer (s : Server) (held : Option OpenTransaction) :
    (c : Call) → Server × Option OpenTransaction × c.Reply
  | .exec statement => let (s, result) := s.single statement countRead; (s, held, result)
  | .query statement => let (s, result) := s.single statement rowsRead; (s, held, result)
  | .begin =>
    if s.isConnected then let (tx, s) := s.begin; (s, some tx, .ok ())
    else (s, held, .error (notConnected .sqlite))
  | .execIn statement => match held with
    | some tx => s.inside tx statement countRead
    | none => (s, none, .error (.error noTransaction))
  | .queryIn statement => match held with
    | some tx => s.inside tx statement rowsRead
    | none => (s, none, .error (.error noTransaction))
  | .commit => match held with
    | some tx => (s.commit tx, none, .ok ())
    | none => (s, none, .error noTransaction)
  | .rollback _ | .abandon => match held with
    | some tx => (s.rollback tx, none, ())
    | none => (s, none, ())

instance : Driver Server OpenTransaction where
  backend _ := .sqlite
  connect := connect
  close := close
  reset := reset
  delay _ _ := .zero
  answer s held _ c := s.answer held c

end Server

/-! ### Servers out of reach -/

/-- A server that no connection reaches. -/
inductive Unreachable
  | server
deriving DecidableEq, Repr, Inhabited

namespace Unreachable

/-- Refuses a statement. -/
def refuse {α : Type} (statement : Statement) : Attempted α :=
  match expectSql .postgres statement with
  | .error e => .error (.error e)
  | .ok _ => .error (.error (notConnected .postgres))

/-- Refuses a call; no transaction is ever open. -/
def answer : (c : Call) → c.Reply
  | .exec statement => refuse statement
  | .query statement => refuse statement
  | .begin => .error (notConnected .postgres)
  | .execIn _ => .error (.error noTransaction)
  | .queryIn _ => .error (.error noTransaction)
  | .commit => .error noTransaction
  | .rollback _ | .abandon => ()

/-- Why an address cannot be connected to. -/
def connectError (address : String) : BenchError :=
  match ServerAddress.check address with
  | .error e => e
  | .ok () => .connection "timed out acquiring a pooled connection"

instance : Driver Unreachable Empty where
  backend _ := .postgres
  connect s _ address := (s, .error (connectError address))
  close s := s
  reset s := (s, .error (notConnected .postgres))
  delay _ _ := .zero
  answer s held _ c := (s, held, answer c)

end Unreachable

end StoreBench.Sql
