import StoreBench.Json.Typed

/-!
# `StoreBench.Load.Stop`: why a run stops

A run stops for one cause, the first that was signalled. Later causes
change nothing.
-/

set_option autoImplicit false

namespace StoreBench

/-- Why a run was stopped. -/
inductive StopCause
  /-- The time of the run is over. -/
  | deadlineReached
  /-- A worker met the designed end of the workload. -/
  | terminalConditionMet
deriving DecidableEq, Repr, Inhabited

namespace StopCause

def all : List StopCause := [deadlineReached, terminalConditionMet]

/-- The name of a cause in a report. -/
def name : StopCause → String
  | deadlineReached => "deadline_reached"
  | terminalConditionMet => "terminal_condition_met"

/-- A cause inside a document is its name. -/
def read : List Char → Json.Read (StopCause × List Char) :=
  Json.readChoice (all.map fun c => .unit c.name c)

end StopCause

/-- The signal that stops a run: the cause it was fired with, if it was. -/
structure StopSignal where
  cause : Option StopCause := none
deriving DecidableEq, Repr, Inhabited

namespace StopSignal

/-- A signal was fired if it has a cause. -/
def isFired (s : StopSignal) : Bool := s.cause.isSome

/-- Fires the signal, and says whether this gave it its cause. -/
def fire (s : StopSignal) (cause : StopCause) : StopSignal × Bool :=
  match s.cause with
  | none => (⟨some cause⟩, true)
  | some _ => (s, false)

end StopSignal

end StoreBench
