import StoreBench.Load.Attempt
import StoreBench.Program

/-!
# `StoreBench.Load.Workload`: what a run measures

A workload prepares its store, is attempted over and over by many workers,
then checks the store and cleans up. Its check answers whether the store
is as it should be, or nothing when there is nothing to check.
-/

set_option autoImplicit false

namespace StoreBench

/-- What is run against a store: its set-up, its attempts, its check and its teardown. -/
structure Workload (S : Signature) where
  name : String
  setup : Task S Unit
  attempt : Try → Task S Unit
  verify : Task S (Option Bool) := pure none
  teardown : Task S Unit
  /-- Takes the place of the retry policy of the engine. -/
  retryPolicy : Option RetryPolicy := none

end StoreBench
