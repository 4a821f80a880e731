import StoreBench.Load.Attempt

/-!
# `StoreBench.Load.Tally`: counting outcomes

A tally counts what became of attempts, in words of 64 bits. The tallies of
several workers are added up, which may be done in any order.
-/

set_option autoImplicit false

namespace StoreBench

/-- What a worker counts. The counters are words. -/
structure Tally where
  operations : Nat := 0
  errors : Nat := 0
  transientRetries : Nat := 0
deriving DecidableEq, Repr, Inhabited

namespace Tally

/-- Counts one status. The end of a workload is not counted. -/
def observe (t : Tally) : Status → Tally
  | .success => { t with operations := t.operations + 1 }
  | .error => { t with errors := t.errors + 1 }
  | .retry => { t with transientRetries := t.transientRetries + 1 }
  | .terminal => t

/-- The sum of two tallies, each counter modulo the size of a word. -/
def add (s t : Tally) : Tally where
  operations := (s.operations + t.operations) % 2 ^ 64
  errors := (s.errors + t.errors) % 2 ^ 64
  transientRetries := (s.transientRetries + t.transientRetries) % 2 ^ 64

/-- Operations and errors together, which must fit a word. -/
def attempts (t : Tally) : Except Crash Nat :=
  if t.operations + t.errors < 2 ^ 64 then .ok (t.operations + t.errors)
  else .error .sumOverflow

end Tally

end StoreBench
