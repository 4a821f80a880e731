import StoreBench.Document.Server
import StoreBench.Driver

/-!
# `StoreBench.Document.Client`: calls on the built-in store

The built-in store checks a single statement in the order of connection,
kind and, for a query, effect; a transaction is checked for the connection
when it begins and at no later time. A call that passes its checks takes
the round trip that the server simulates.
-/

set_option autoImplicit false

namespace StoreBench.Server

/-! ### Single statements -/

/-- A statement by itself. Its command takes effect at once, as a transaction of one
command would. -/
def exec (s : Server) (fresh : String) (statement : Statement) : Server × Attempted Nat :=
  match s.checkConnected, commandOf statement with
  | .error e, _ | .ok (), .error e => (s, .error (.error e))
  | .ok (), .ok command =>
    let (s, result) := s.autocommit (command.identified fresh)
    (s, result.map Outcome.affected)

/-- A query by itself, which sees the store as it is now. -/
def query (s : Server) (statement : Statement) : Server × Attempted (List Row) :=
  match s.checkConnected, queryOf statement with
  | .error e, _ | .ok (), .error e => (s, .error (.error e))
  | .ok (), .ok command =>
    let (s, result) := s.autocommit command
    (s, result.map Outcome.rows)

/-! ### Statements in a transaction -/

/-- A statement in a transaction, which only changes what the transaction holds. -/
def execIn (s : Server) (tx : Transaction) (fresh : String) (statement : Statement) :
    Transaction × Attempted Nat :=
  match commandOf statement with
  | .error e => (tx, .error (.error e))
  | .ok command =>
    let (tx, result) := tx.apply s.store (command.identified fresh)
    (tx, result.map Outcome.affected)

/-- A query in a transaction. It sees what the transaction has changed, and may have it
hold a copy. -/
def queryIn (s : Server) (tx : Transaction) (statement : Statement) :
    Transaction × Attempted (List Row) :=
  match queryOf statement with
  | .error e => (tx, .error (.error e))
  | .ok command =>
    let (tx, result) := tx.apply s.store command
    (tx, result.map Outcome.rows)

/-! ### Calls -/

/-- Whether a call gets as far as the server's round trip. -/
def accepts (s : Server) : Call → Bool
  | .exec statement => s.connected && (commandOf statement).isOk
  | .query statement => s.connected && (queryOf statement).isOk
  | .execIn statement => (commandOf statement).isOk
  | .queryIn statement => (queryOf statement).isOk
  | .commit => true
  | .begin | .rollback _ | .abandon => false

/-- Answers a call of a client who holds a transaction, or none. -/
def answer (s : Server) (held : Option Transaction) (fresh : String) :
    (c : Call) → Server × Option Transaction × c.Reply
  | .exec statement => let (s, result) := s.exec fresh statement; (s, held, result)
  | .query statement => let (s, result) := s.query statement; (s, held, result)
  | .begin => match s.checkConnected with
    | .ok () => (s, some [], .ok ())
    | .error e => (s, held, .error e)
  | .execIn statement => match held with
    | some tx => let (tx, result) := s.execIn tx fresh statement; (s, some tx, result)
    | none => (s, none, .error (.error noTransaction))
  | .queryIn statement => match held with
    | some tx => let (tx, result) := s.queryIn tx statement; (s, some tx, result)
    | none => (s, none, .error (.error noTransaction))
  | .commit => match held with
    | some tx => let (s, result) := s.commit tx; (s, none, result)
    | none => (s, none, .error noTransaction)
  | .rollback e => (s.rollback e, none, ())
  | .abandon => (s, none, ())

instance : Driver Server Transaction where
  backend _ := .memory
  connect s _ address := s.connect address
  close := close
  reset := reset
  delay s c := if s.accepts c then s.latency else .zero
  answer := answer

end StoreBench.Server
