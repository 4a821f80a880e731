import StoreBench.Json.Reader

/-!
# `StoreBench.Error`: what can go wrong

A `BenchError` is an answer: a driver, a workload or the engine reports it
and the run goes on. Two of its kinds steer a run. A *conflict* is
contention that a retry is expected to clear (`isTransient`), and an
*exhausted* resource is the designed end of a workload (`isExhausted`).

A `Crash` is a broken assumption. The worker or the transaction it
happens in is abandoned, and nothing it did is kept.
-/

set_option autoImplicit false

namespace StoreBench

/-- Errors shared by drivers, workloads and the engine. -/
inductive BenchError
  /-- The backend could not be reached. -/
  | connection (message : String)
  /-- Contention, under the backend's own code for it. -/
  | conflict (code message : String)
  /-- A contended resource reached its designed end. -/
  | exhausted (resource : String)
  /-- The backend rejected an operation for good. -/
  | backend (message : String)
  /-- An expected row or document is absent. -/
  | notFound (entity id : String)
  /-- A value is not of the type asked for. -/
  | decode (message : String)
  /-- The driver does not speak this kind of statement. -/
  | unsupported (message : String)
  /-- Run parameters that make no run. -/
  | invalidConfig (message : String)
  /-- A workload could not be set up. -/
  | setupFailed (source : BenchError)
  /-- A workload could not be torn down. -/
  | teardownFailed (source : BenchError)
  /-- A failure inside the benchmark itself. -/
  | internal (message : String)
  /-- A file could not be read or written. -/
  | io (message : String)
  /-- A value could not be written as text. -/
  | serialization (message : String)
deriving DecidableEq, Repr, Inhabited

namespace BenchError

/-- The text of an error. -/
def message : BenchError → String
  | connection m => s!"connection error: {m}"
  | conflict code m => s!"transient conflict [{code}]: {m}"
  | exhausted resource => s!"{resource} exhausted"
  | backend m => s!"backend error: {m}"
  | notFound entity id => s!"{entity} `{id}` was not found"
  | decode m => s!"decode error: {m}"
  | unsupported m => s!"unsupported: {m}"
  | invalidConfig m => s!"invalid configuration: {m}"
  | setupFailed source => s!"setup failed: {source.message}"
  | teardownFailed source => s!"teardown failed: {source.message}"
  | internal m => s!"internal error: {m}"
  | io m => s!"I/O error: {m}"
  | serialization m => s!"serialization error: {m}"

/-- The texts of the causes of an error, nearest first. A file error is
caused by the failure that its message describes. -/
def causes : BenchError → List String
  | setupFailed source => source.message :: source.causes
  | teardownFailed source => source.message :: source.causes
  | io m => [m]
  | _ => []

/-- Worth another try. -/
def isTransient : BenchError → Bool
  | conflict _ _ => true
  | _ => false

/-- The designed end of a workload. -/
def isExhausted : BenchError → Bool
  | exhausted _ => true
  | _ => false

/-- A document text that does not hold what was asked for. -/
def ofReadError (e : Json.ReadError) : BenchError := decode e.message

end BenchError

/-- Assumptions that an input can break. -/
inductive Crash
  | sumOverflow
  | differenceOverflow
  | instantOverflow
  | rowLengths (columns values : Nat)
  | scripted
deriving DecidableEq, Repr, Inhabited

/-- The text that a computation breaks off with. -/
def Crash.message : Crash → String
  | sumOverflow => "attempt to add with overflow"
  | differenceOverflow => "attempt to subtract with overflow"
  | instantOverflow => "`DateTime - TimeDelta` overflowed"
  | rowLengths columns values =>
    s!"assertion `left == right` failed\n  left: {columns}\n right: {values}"
  | scripted => "scripted panic"

/-- How a computation fails: with an answer, or by breaking off. -/
inductive Failure
  | error (e : BenchError)
  | crash (c : Crash)
deriving DecidableEq, Repr, Inhabited

/-- The text of whichever it was. -/
def Failure.message : Failure → String
  | error e => e.message
  | crash c => c.message

/-- Computations that can fail in either way. -/
abbrev Attempted := Except Failure

instance : MonadLift (Except BenchError) Attempted where
  monadLift
    | .ok a => .ok a
    | .error e => .error (.error e)

instance : MonadLift (Except Crash) Attempted where
  monadLift
    | .ok a => .ok a
    | .error c => .error (.crash c)

/-- The sum of two words of 64 bits with sign. -/
def addWord (a b : Int) : Except Crash Int :=
  let sum := a + b
  if -2 ^ 63 ≤ sum ∧ sum < 2 ^ 63 then .ok sum else .error .sumOverflow

/-- Their difference. -/
def subWord (a b : Int) : Except Crash Int :=
  let difference := a - b
  if -2 ^ 63 ≤ difference ∧ difference < 2 ^ 63 then .ok difference else .error .differenceOverflow

end StoreBench
