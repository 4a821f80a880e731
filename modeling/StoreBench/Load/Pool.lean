import StoreBench.Load.Report

/-!
# `StoreBench.Load.Pool`: workers and what they count

A pool is a number of workers and one stop signal. A worker goes round and
round: while the signal has not fired it begins a logical attempt, tries it
until it no longer meets contention or may not be retried, and counts what
became of it. Each worker keeps a tally and a recorder of its own and
merges them into the common ones when it ends, once, whether it leaves or
breaks off.

`Pool.step` is one event in the life of a pool. A worker looks at the signal
only when it goes on after a pause (`Event.proceed`) and when a try met
contention, so a try in flight when the signal fires is waited for, and
what it achieved still counts. The events of different workers may come
in any order.
-/

set_option autoImplicit false

namespace StoreBench

/-- The parameters of a pool. -/
structure PoolConfig where
  concurrency : Nat
  /-- When the signal is fired at the latest. -/
  deadline : Option Span := none
  /-- How long workers may take to end before that is worth a remark. -/
  grace : Span := .ofSeconds 5
  retry : RetryPolicy := {}
deriving DecidableEq, Repr, Inhabited

/-- What a worker is in the middle of. -/
inductive Phase
  /-- Between two logical attempts. -/
  | ready
  /-- In a try, after so many retries. -/
  | trying (retries : Nat)
  /-- In the pause before a retry, which will be the one of this number. -/
  | resting (retries : Nat)
  /-- At its regular end. -/
  | left
  /-- Broken off. -/
  | crashed
deriving DecidableEq, Repr, Inhabited

namespace Phase

/-- Whether a worker has ended. -/
def isOver : Phase → Bool
  | left | crashed => true
  | ready | trying _ | resting _ => false

end Phase

/-- One of the workers of a pool, with what it counted for itself. -/
structure Worker where
  phase : Phase := .ready
  /-- The logical attempts it has finished. -/
  iteration : Nat := 0
  /-- When the current logical attempt began. -/
  began : Span := .zero
  tally : Tally := {}
  recorder : Recorder

namespace Worker

/-- Goes on after a pause: leaves if the run has stopped, else begins a
logical attempt or the retry that it paused for. -/
def proceed (w : Worker) (stopped : Bool) (now : Span) : Worker :=
  match w.phase with
  | .ready =>
    if stopped then { w with phase := .left }
    else { w with phase := .trying 0, began := now }
  | .resting retries =>
    if stopped then { w with phase := .left } else { w with phase := .trying retries }
  | .trying _ | .left | .crashed => w

/-- Counts a logical attempt that ends with this status. -/
def finish (w : Worker) (status : Status) (now : Span) : Worker :=
  { w with
    phase := .ready
    iteration := w.iteration + 1
    tally := w.tally.observe status
    recorder := w.recorder.record ⟨now.nanos - w.began.nanos⟩ }

/-- Takes the status of a try. Contention after the run has stopped ends
the worker without counting; at the ceiling of retries it counts as an
error. -/
def answer (w : Worker) (policy : RetryPolicy) (stopped : Bool) (status : Status) (now : Span) :
    Worker :=
  match w.phase with
  | .trying retries =>
    match status with
    | .success | .error => w.finish status now
    | .terminal => { w with phase := .left }
    | .retry =>
      if stopped then { w with phase := .left }
      else if policy.allows retries then
        { w with
          tally := w.tally.observe .retry
          phase :=
            if policy.backoff.isZero then .trying (retries + 1) else .resting (retries + 1) }
      else w.finish .error now
  | .ready | .resting _ | .left | .crashed => w

/-- Breaks off in the middle of a try. -/
def crash (w : Worker) : Worker :=
  match w.phase with
  | .trying _ => { w with phase := .crashed }
  | .ready | .resting _ | .left | .crashed => w

end Worker

/-- Workers with the signal that stops them, and what those that have ended counted. -/
structure Pool where
  retry : RetryPolicy
  signal : StopSignal
  workers : List Worker
  /-- The tallies of the workers that have ended. -/
  totals : Tally := {}
  /-- Their latencies. -/
  latency : Recorder

/-- What happens in a pool. -/
inductive Pool.Event
  /-- A worker goes on after a pause. -/
  | proceed (worker : Nat) (now : Span)
  /-- The try of a worker is answered. -/
  | answer (worker : Nat) (status : Status) (now : Span)
  /-- The try of a worker breaks off. -/
  | crash (worker : Nat)
  /-- Somebody fires the signal. -/
  | fire (cause : StopCause)
deriving DecidableEq, Repr, Inhabited

namespace Pool

/-- A pool of workers that have done nothing yet. -/
def make (config : PoolConfig) (template : Recorder) (signal : StopSignal) : Pool where
  retry := config.retry
  signal
  workers := List.replicate config.concurrency { recorder := template.fresh }
  latency := template.fresh

/-- Merges what a worker kept for itself. -/
def flush (p : Pool) (w : Worker) : Pool :=
  { p with
    totals := p.totals.add w.tally
    latency := match p.latency.merge w.recorder with
      | .ok merged => merged
      | .error _ => p.latency }

/-- Changes one worker; one that ends thereby is merged. -/
def change (p : Pool) (i : Nat) (f : Worker → Worker) : Pool :=
  match p.workers[i]? with
  | none => p
  | some w =>
    if w.phase.isOver then p
    else
      let changed := f w
      let p := { p with workers := p.workers.set i changed }
      if changed.phase.isOver then p.flush changed else p

/-- Fires the signal, if nobody has. -/
def fire (p : Pool) (cause : StopCause) : Pool := { p with signal := (p.signal.fire cause).1 }

/-- Whether a worker is in a try. -/
def isTrying (p : Pool) (i : Nat) : Bool :=
  match p.workers[i]? with
  | some { phase := .trying _, .. } => true
  | _ => false

/-- One event. A try that met the end of the workload fires the signal. -/
def step (p : Pool) : Event → Pool
  | .proceed i now => p.change i fun w => w.proceed p.signal.isFired now
  | .answer i status now =>
    let changed := p.change i fun w => w.answer p.retry p.signal.isFired status now
    if p.isTrying i && status == .terminal then changed.fire .terminalConditionMet else changed
  | .crash i => p.change i Worker.crash
  | .fire cause => p.fire cause

/-- The events of a run, one after the other. -/
def run (p : Pool) (events : List Event) : Pool := events.foldl step p

/-- Whether every worker has ended. -/
def isOver (p : Pool) : Bool := p.workers.all fun w => w.phase.isOver

/-- How many workers broke off. -/
def panicked (p : Pool) : Nat := p.workers.countP fun w => w.phase == .crashed

end Pool

/-- What a pool leaves behind. -/
structure PoolReport where
  totals : Tally
  latency : Recorder
  total : Span
  panicked : Nat
  cause : Option StopCause

namespace PoolReport

/-- What a pool has to report, after so much time. -/
def ofPool (p : Pool) (total : Span) : PoolReport where
  totals := p.totals
  latency := p.latency
  total
  panicked := p.panicked
  cause := p.signal.cause

/-- The record of the run, with the verdict of the workload's check. -/
def finish (r : PoolReport) (integrity : Bool) : Except Crash Report :=
  Report.ofRun r.totals r.total r.latency integrity r.cause r.panicked

end PoolReport

end StoreBench
