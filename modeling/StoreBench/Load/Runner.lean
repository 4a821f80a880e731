import StoreBench.Load.Rehearsal

/-!
# `StoreBench.Load.Runner`: the phases of a run

A run sets the workload up, lets a pool attempt it, has it verified and
torn down, in this order, and reports. `Runner.plan` is that protocol as a
program whose requests are the phases. A failed set-up ends the run; a
failed check means no integrity; a failed tear-down is passed over.
-/

set_option autoImplicit false

namespace StoreBench

/-- The settings of the engine. -/
structure EngineConfig where
  grace : Span := .ofSeconds 5
  latency : LatencyConfig := {}
  retry : RetryPolicy := {}
deriving DecidableEq, Repr, Inhabited

/-- The size of a run: how many workers, and for how long at most. -/
structure RunConfig where
  concurrency : Nat
  duration : Option Span := none
deriving DecidableEq, Repr, Inhabited

namespace Runner

/-- The phases of a run. -/
inductive Stage
  | setup
  | attempts (config : PoolConfig) (template : Recorder)
  | verify
  | teardown

/-- What a stage comes to. -/
abbrev Stage.Reply : Stage → Type
  | .setup | .teardown => Attempted Unit
  | .attempts _ _ => PoolReport
  | .verify => Attempted (Option Bool)

/-- The stages as requests, so that a plan is a program. -/
abbrev stages : Signature := ⟨Stage, Stage.Reply⟩

def ask (stage : Stage) : Task stages stage.Reply := Task.ask (S := stages) stage

/-- Whether the store is as it should be, by the answer of a check. What
cannot be checked counts as unsound, what needs no check as sound. -/
def integrity : Attempted (Option Bool) → Except Crash Bool
  | .ok verdict => .ok (verdict.getD true)
  | .error (.error _) => .ok false
  | .error (.crash c) => .error c

/-- Passes errors over, but not crashes. -/
def tolerate : Attempted Unit → Except Crash Unit
  | .error (.crash c) => .error c
  | .ok () | .error (.error _) => .ok ()

/-- The protocol of a run, for a workload with a retry policy of its own
or none. -/
def plan (engine : EngineConfig) (retry : Option RetryPolicy) (size : RunConfig) :
    Task stages Report := do
  if size.concurrency = 0 then
    throw (.error (.invalidConfig "concurrency must be greater than zero"))
  let template ← Recorder.make engine.latency
  match ← ask .setup with
  | .ok () => pure ()
  | .error (.error e) => throw (.error (.setupFailed e))
  | .error (.crash c) => throw (.crash c)
  let config : PoolConfig :=
    { concurrency := size.concurrency, deadline := size.duration, grace := engine.grace
      retry := retry.getD engine.retry }
  let report ← ask (.attempts config template)
  let sound ← integrity (← ask .verify)
  tolerate (← ask .teardown)
  report.finish sound

variable {S : Signature} {σ γ : Type}

/-- One phase of a workload at a site, the attempts rehearsed with so much
fuel. -/
def stage (site : Site S σ γ) (w : Workload S) (fuel : Nat) (state : σ) :
    (s : Stage) → σ × s.Reply
  | .setup => site.run state w.setup.run
  | .attempts config template =>
    Rehearsal.perform site w.attempt fuel config template {} state
  | .verify => site.run state w.verify.run
  | .teardown => site.run state w.teardown.run

/-- A whole run of a workload at a site. -/
def run (site : Site S σ γ) (w : Workload S) (fuel : Nat) (engine : EngineConfig)
    (size : RunConfig) (state : σ) : σ × Attempted Report :=
  Program.run (S := stages) (stage site w fuel) state (plan engine w.retryPolicy size).run

end Runner

end StoreBench
