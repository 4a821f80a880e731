import StoreBench.Backend
import StoreBench.Program
import StoreBench.Row
import StoreBench.Statement
import StoreBench.Time.Span

/-!
# `StoreBench.Driver`: what every store offers

A client makes calls on a store: statements by themselves, and statements
inside a transaction that it begins and then commits, rolls back or
abandons. A client has at most one transaction open, which is kept beside
the store and not inside it, so that any number of clients can share one.

A `Driver` is a kind of store that answers these calls.
-/

set_option autoImplicit false

namespace StoreBench

/-- What a client asks of a store. -/
inductive Call
  | exec (s : Statement)
  | query (s : Statement)
  | begin
  | execIn (s : Statement)
  | queryIn (s : Statement)
  | commit
  /-- Gives up the open transaction, which failed with an error. -/
  | rollback (e : BenchError)
  /-- Drops the open transaction, whose client broke off. -/
  | abandon
deriving Repr, Inhabited

/-- The reply to a call: counts of affected rows, rows, or nothing but
whether it succeeded. -/
abbrev Call.Reply : Call → Type
  | .exec _ | .execIn _ => Attempted Nat
  | .query _ | .queryIn _ => Attempted (List Row)
  | .begin | .commit => Except BenchError Unit
  | .rollback _ | .abandon => Unit

/-- Stores of type `σ`, whose open transactions are of type `τ`. -/
class Driver (σ : Type) (τ : outParam Type) where
  backend : σ → Backend
  /-- Connects to an address, where these directories exist. -/
  connect : σ → List String → String → σ × Except BenchError Unit
  close : σ → σ
  /-- Removes everything that is stored. -/
  reset : σ → σ × Except BenchError Unit
  /-- How long the answer to a call takes. -/
  delay : σ → Call → Span
  /-- Answers a call of a client that has this transaction open, with an
  identity at hand for a document that has none. -/
  answer : σ → Option τ → String → (c : Call) → σ × Option τ × c.Reply

/-- The failure of a call that needs an open transaction. -/
def noTransaction : BenchError := .internal "no transaction is open"

end StoreBench
