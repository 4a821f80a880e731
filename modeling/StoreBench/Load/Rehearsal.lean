import StoreBench.Load.Pool
import StoreBench.Load.Site
import StoreBench.Load.Workload

/-!
# `StoreBench.Load.Rehearsal`: a pool on a single thread of virtual time

A rehearsal plays the workers of a pool against a site, one at a time. A
worker keeps the thread until it has to wait: for a delayed answer, in the
pause before a retry, or at the end of a logical attempt, after which it
queues behind the others. Nothing but waiting takes time. When everybody
waits, the clock jumps to the earliest of what they wait for, which may
also be the deadline. When the signal fires, workers in a pause are woken.

`step` is one small step, and `run` makes as many of them as its fuel
allows. A run that neither stops nor waits is cut off there; every other
run ends before.
-/

set_option autoImplicit false

namespace StoreBench

/-- What a worker has in hands during a try: the rest of it, what it holds
at the site, and whether the delay of its next request is over. -/
structure Hand (S : Signature) (γ : Type) where
  held : γ
  rest : Option (Program S (Attempted Unit)) := none
  waited : Bool := false

/-- Workers on one thread, of which the next one in the queue runs until it waits. -/
structure Rehearsal (S : Signature) (σ γ : Type) where
  pool : Pool
  state : σ
  hands : List (Hand S γ)
  now : Span := .zero
  deadline : Option Span
  /-- The workers that can go on, the next one first. -/
  queue : List Nat
  /-- The workers that wait, and until when. -/
  waiting : List (Span × Nat) := []

namespace Rehearsal

variable {S : Signature} {σ γ : Type}

/-- A rehearsal before anything has happened, with all workers in the queue. -/
def make (site : Site S σ γ) (config : PoolConfig) (template : Recorder) (signal : StopSignal)
    (state : σ) : Rehearsal S σ γ where
  pool := Pool.make config template signal
  state
  hands := List.replicate config.concurrency { held := site.idle }
  deadline := config.deadline
  queue := List.range config.concurrency

/-- Whether a worker is in the pause before a retry. -/
def isResting (p : Pool) (i : Nat) : Bool :=
  match p.workers[i]? with
  | some { phase := .resting _, .. } => true
  | _ => false

/-- Changes the pool; when that fires the signal, everybody who pauses is
woken. -/
def withPool (r : Rehearsal S σ γ) (event : Pool.Event) : Rehearsal S σ γ :=
  let pool := r.pool.step event
  if pool.signal.isFired && !r.pool.signal.isFired then
    let (woken, waiting) := r.waiting.partition fun entry => isResting pool entry.2
    { r with pool := pool, waiting := waiting, queue := r.queue ++ woken.map Prod.snd }
  else { r with pool := pool }

/-- Takes the worker at the head off the queue. -/
def leave (r : Rehearsal S σ γ) : Rehearsal S σ γ := { r with queue := r.queue.drop 1 }

/-- Lets the worker at the head of the queue wait. -/
def wait (r : Rehearsal S σ γ) (i : Nat) (time : Span) : Rehearsal S σ γ :=
  { r.leave with waiting := r.waiting ++ [(⟨r.now.nanos + time.nanos⟩, i)] }

/-- Lets an event happen to the worker at the head of the queue, then sees
what the worker does next: another try keeps it at the head, a pause lets
it wait, the end of an attempt sends it to the back. -/
def settle (attempt : Try → Task S Unit) (r : Rehearsal S σ γ) (i : Nat) (held : γ)
    (event : Pool.Event) : Rehearsal S σ γ :=
  let r := { r with hands := r.hands.set i { held := held } }.withPool event
  match r.pool.workers[i]? with
  | none => r.leave
  | some w =>
    match w.phase with
    | .ready => { r.leave with queue := r.leave.queue ++ [i] }
    | .trying retry =>
      let task := attempt { worker := i, iteration := w.iteration, retry := retry }
      { r with hands := r.hands.set i { held := held, rest := some task.run } }
    | .resting _ => r.wait i r.pool.retry.backoff
    | .left | .crashed => r.leave

/-- The event that the result of a try is. -/
def eventOf (i : Nat) (now : Span) : Attempted Unit → Pool.Event
  | .ok () => .answer i .success now
  | .error (.error e) => .answer i (.ofError e) now
  | .error (.crash _) => .crash i

/-- The next step of the worker at the head of the queue. -/
def advance (site : Site S σ γ) (attempt : Try → Task S Unit) (r : Rehearsal S σ γ) (i : Nat) :
    Rehearsal S σ γ :=
  match r.hands[i]? with
  | none => r.leave
  | some hand =>
    match hand.rest with
    | none => r.settle attempt i hand.held (.proceed i r.now)
    | some (.done result) => r.settle attempt i hand.held (eventOf i r.now result)
    | some (.ask request next) =>
      let delay := site.delay r.state hand.held request
      if delay.isZero || hand.waited then
        let (state, held, fired, reply) := site.answer r.state hand.held request
        let r := { r with
          state := state
          hands := r.hands.set i { held := held, rest := some (next reply) } }
        match fired with
        | some cause => r.withPool (.fire cause)
        | none => r
      else { r with hands := r.hands.set i { hand with waited := true } }.wait i delay

/-- The earliest time that somebody waits for. -/
def earliest : List (Span × Nat) → Option Span
  | [] => none
  | (time, _) :: rest => match earliest rest with
    | some other => some (if other.nanos < time.nanos then other else time)
    | none => some time

/-- Lets the time pass to a moment, and wakes those who wait for it. -/
def passTo (r : Rehearsal S σ γ) (time : Span) : Rehearsal S σ γ :=
  let (woken, waiting) := r.waiting.partition fun entry => entry.1.nanos ≤ time.nanos
  { r with now := time, waiting := waiting, queue := r.queue ++ woken.map Prod.snd }

/-- The deadline, once it is no later than a time. -/
def due (r : Rehearsal S σ γ) (time : Span) : Option Span :=
  r.deadline.filter fun deadline => deadline.nanos ≤ time.nanos

/-- One step, or none when every worker has ended. -/
def step (site : Site S σ γ) (attempt : Try → Task S Unit) (r : Rehearsal S σ γ) :
    Option (Rehearsal S σ γ) :=
  match r.due r.now, r.queue with
  | some _, _ => some ({ r with deadline := none }.withPool (.fire .deadlineReached))
  | none, i :: _ => some (r.advance site attempt i)
  | none, [] =>
    (earliest r.waiting).map fun time => r.passTo ((r.due time).getD time)

/-- Makes steps until there are none or the fuel is used up. -/
def run (site : Site S σ γ) (attempt : Try → Task S Unit) :
    Nat → Rehearsal S σ γ → Rehearsal S σ γ
  | 0, r => r
  | fuel + 1, r => match r.step site attempt with
    | some next => run site attempt fuel next
    | none => r

/-- The shortest time that a run takes. -/
def tick : Span := ⟨1⟩

/-- Rehearses a pool from its start, and gives the state of the site at its
end. -/
def perform (site : Site S σ γ) (attempt : Try → Task S Unit) (fuel : Nat) (config : PoolConfig)
    (template : Recorder) (signal : StopSignal) (state : σ) : σ × PoolReport :=
  let r := run site attempt fuel (make site config template signal state)
  (r.state, .ofPool r.pool ⟨max r.now.nanos tick.nanos⟩)

end Rehearsal

end StoreBench
