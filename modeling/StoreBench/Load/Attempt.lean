import StoreBench.Error
import StoreBench.Time.Span

/-!
# `StoreBench.Load.Attempt`: attempts and their outcomes

A worker makes one logical attempt after the other. An attempt that meets
contention is tried again, as often as the retry policy allows, and counts
once, by its last try.
-/

set_option autoImplicit false

namespace StoreBench

/-- What became of one try. -/
inductive Status
  | success
  /-- A failure that counts as an error. -/
  | error
  /-- Contention; the attempt is tried again. -/
  | retry
  /-- The designed end of the workload; the run stops. -/
  | terminal
deriving DecidableEq, Repr, Inhabited

namespace Status

/-- The name of a status. -/
def name : Status → String
  | success => "success"
  | error => "error"
  | retry => "retry"
  | terminal => "terminal"

/-- Whether an attempt that ends so is an operation or an error. -/
def isCounted : Status → Bool
  | success | error => true
  | retry | terminal => false

/-- The status of a failed try: conflicts are retried, exhaustion ends the
run, and everything else is an error. -/
def ofError : BenchError → Status
  | .conflict _ _ => retry
  | .exhausted _ => terminal
  | _ => error

/-- What the result of a call counts as. -/
def ofResult {α : Type} : Except BenchError α → Status
  | .ok _ => success
  | .error e => ofError e

end Status

/-- Which try is about to be made: the worker, how many attempts it began
before this one, and how often this one was retried. -/
structure Try where
  worker : Nat
  iteration : Nat
  retry : Nat
deriving DecidableEq, Repr, Inhabited

/-- How often contention is met by another try, and after what pause. -/
structure RetryPolicy where
  /-- None allows any number. -/
  maxRetries : Option Nat := none
  backoff : Span := .zero
deriving DecidableEq, Repr, Inhabited

/-- Whether another retry follows after `done` of them. -/
def RetryPolicy.allows (p : RetryPolicy) (done : Nat) : Bool :=
  match p.maxRetries with
  | none => true
  | some most => done < most

end StoreBench
