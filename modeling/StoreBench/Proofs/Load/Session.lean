import StoreBench.Proofs.Load.Calls

/-!
# `StoreBench.Proofs.Load.Session`: a pool from its start to its report

A `Session` is a pool in time, with the timer of its deadline and with whoever
waits for its report. The one who waits goes by `Watch`: at first for the
workers or the signal, whichever comes first; after the signal for as long as
the grace allows; then without limit. It reports when every worker has ended,
whichever it is waiting for.

`Session.step` is one event at an await point: a worker's, the timer's,
somebody's who fires the signal, or one of the wait itself. Any list of events
is an interleaving. `pool_run` says that a session's pool goes through the
events of its workers and signals and no others, and `log_eq` that nothing else
is observed of it, so that what is shown for runs of a pool holds for sessions.
-/

set_option autoImplicit false

namespace StoreBench

/-- What the one who waits for a report is waiting for. -/
inductive Watch
  /-- The workers, or the signal. -/
  | either
  /-- The workers, until the grace is over. -/
  | grace (limit : Span)
  /-- The workers, however long it takes. -/
  | overtime
  /-- Nothing any more. -/
  | over (report : PoolReport)

/-- A pool, the time, and where whoever waits for the report has got to. -/
structure Session where
  pool : Pool
  now : Span := .zero
  /-- When the deadline is reached, as long as the timer has not gone off. -/
  timer : Option Span
  /-- How long the workers may take after the signal. -/
  grace : Span
  watch : Watch := .either

namespace Session

/-- What happens in a session. Time passes by an event of its own, so that everything
else may happen at one moment. -/
inductive Event
  | pass (time : Span)
  | proceed (worker : Nat)
  | answer (worker : Nat) (status : Status)
  | crash (worker : Nat)
  /-- Somebody outside fires the signal. -/
  | fire (cause : StopCause)
  /-- The timer goes off, if it is time. -/
  | alarm
  /-- The wait goes on from the signal. -/
  | notice
  /-- The grace is over, if it is time. -/
  | lapse
  /-- The wait is over, if every worker has ended. -/
  | join

/-- A session before anything has happened. The timer counts from here, and the wait
begins with both, the workers and the signal. -/
def start (config : PoolConfig) (template : Recorder) (signal : StopSignal) : Session where
  pool := Pool.make config template signal
  timer := config.deadline
  grace := config.grace

/-- The report, once there is one. It is made once and never changed. -/
def report? (s : Session) : Option PoolReport :=
  match s.watch with
  | .over report => some report
  | .either | .grace _ | .overtime => none

/-- Whether the timer has not gone off and it is time that it does. -/
def isDue (s : Session) : Bool :=
  match s.timer with
  | some deadline => deadline.nanos ≤ s.now.nanos
  | none => false

/-- The event of the pool that an event is, if it is one. -/
def poolEvent? (s : Session) : Event → Option Pool.Event
  | .proceed i => some (.proceed i s.now)
  | .answer i status => some (.answer i status s.now)
  | .crash i => some (.crash i)
  | .fire cause => some (.fire cause)
  | .alarm => if s.isDue then some (.fire .deadlineReached) else none
  | .pass _ | .notice | .lapse | .join => none

/-- What the wait does at an event. Only the wait's own events move it, and only
forward. -/
def attend (s : Session) : Event → Watch
  | .notice => match s.watch with
    | .either => if s.pool.signal.isFired then .grace ⟨s.now.nanos + s.grace.nanos⟩ else .either
    | other => other
  | .lapse => match s.watch with
    | .grace limit => if limit.nanos ≤ s.now.nanos then .overtime else .grace limit
    | other => other
  | .join => if s.pool.isOver then .over (.ofPool s.pool s.now) else s.watch
  | _ => s.watch

/-- One event. After the report nothing happens, as the workers are gone and the timer
is dropped. -/
def step (s : Session) (e : Event) : Session :=
  if s.report?.isSome then s else
    { s with
      pool := match s.poolEvent? e with
        | some event => s.pool.step event
        | none => s.pool
      now := match e with
        | .pass time => ⟨s.now.nanos + time.nanos⟩
        | _ => s.now
      timer := match e with
        | .alarm => if s.isDue then none else s.timer
        | _ => s.timer
      watch := s.attend e }

/-- The events of a run, one after the other. -/
def run (s : Session) (events : List Event) : Session := events.foldl step s

/-- What is observed of an event, which is what its pool observes. -/
def notes (s : Session) (e : Event) : List Note :=
  if s.report?.isSome then [] else
    match s.poolEvent? e with
    | some event => s.pool.notes event
    | none => []

/-- What is observed of a run, event by event from the state of each moment. -/
def log (s : Session) : List Event → List Note
  | [] => []
  | e :: rest => s.notes e ++ log (s.step e) rest

/-- The events of the pool in a run. -/
def trace (s : Session) : List Event → List Pool.Event
  | [] => []
  | e :: rest =>
    (if s.report?.isSome then [] else (s.poolEvent? e).toList) ++ trace (s.step e) rest

variable {s : Session} {report : PoolReport}

/-- There is a report just when the wait is over with it. -/
theorem report?_eq_some : s.report? = some report ↔ s.watch = .over report := by
  unfold report?
  cases s.watch <;> simp

/-- A session begins with the pool as it is made. -/
theorem pool_start (config : PoolConfig) (template : Recorder) (signal : StopSignal) :
    (start config template signal).pool = Pool.make config template signal := rfl

/-- A session begins without a report, whatever the configuration. -/
theorem report?_start (config : PoolConfig) (template : Recorder) (signal : StopSignal) :
    (start config template signal).report? = none := rfl

/-! ### The pool of a session -/

/-- After the report nothing happens. So a run is said to have a report wherever it
stops. -/
theorem step_of_reported (h : s.report?.isSome = true) (e : Event) : s.step e = s := if_pos h

/-- The pool goes through the events of its workers and signals. -/
theorem pool_step (s : Session) (e : Event) :
    (s.step e).pool
      = s.pool.run (if s.report?.isSome then [] else (s.poolEvent? e).toList) := by
  unfold step
  split
  · rfl
  · cases s.poolEvent? e <;> rfl

/-- A session's pool goes through the trace of the session and nothing else. So what
holds of every run of a pool holds in sessions. -/
theorem pool_run (s : Session) (events : List Event) :
    (s.run events).pool = s.pool.run (s.trace events) := by
  induction events generalizing s with
  | nil => rfl
  | cons e rest ih =>
      rw [trace, Pool.run, List.foldl_append]
      exact (ih (s.step e)).trans (by rw [pool_step]; rfl)

/-- A run in two parts is one after the other. -/
theorem run_append (s : Session) (first rest : List Event) :
    s.run (first ++ rest) = (s.run first).run rest := List.foldl_append

/-- What is observed of a run in two parts. -/
theorem log_append (s : Session) (first rest : List Event) :
    s.log (first ++ rest) = s.log first ++ (s.run first).log rest := by
  induction first generalizing s with
  | nil => rfl
  | cons e first ih =>
      rw [List.cons_append, log, log, ih, List.append_assoc]
      rfl

/-- What is observed of a session is observed of its pool. -/
theorem log_eq (s : Session) (events : List Event) :
    s.log events = s.pool.log (s.trace events) := by
  induction events generalizing s with
  | nil => rfl
  | cons e rest ih =>
      rw [log, trace, ih, pool_step, notes]
      split
      · rfl
      · cases s.poolEvent? e with
        | none => rfl
        | some event => rfl

/-! ### The time of a session -/

/-- No event takes time back. -/
theorem now_le_step (s : Session) (e : Event) : s.now.nanos ≤ (s.step e).now.nanos := by
  unfold step
  split
  · exact Nat.le_refl _
  · cases e <;> simp

/-- No run takes time back, so that what is measured between two moments is never
negative. -/
theorem now_le_run (s : Session) (events : List Event) :
    s.now.nanos ≤ (s.run events).now.nanos := by
  induction events generalizing s with
  | nil => exact Nat.le_refl _
  | cons e rest ih => exact Nat.le_trans (s.now_le_step e) (ih (s.step e))

/-- What happens in the pool happens now at the latest. -/
theorem time_poolEvent {e : Event} {event : Pool.Event} (h : s.poolEvent? e = some event) :
    event.time.nanos ≤ s.now.nanos := by
  cases e with
  | proceed | answer | crash | fire =>
      cases h
      simp [Pool.Event.time, Span.zero]
  | alarm =>
      simp only [poolEvent?] at h
      split at h
      · cases h
        exact Nat.zero_le _
      · cases h
  | pass | notice | lapse | join => cases h

/-- No event of the pool happens later than the end of the run. -/
theorem time_trace (s : Session) (events : List Event) :
    ∀ event ∈ s.trace events, event.time.nanos ≤ (s.run events).now.nanos := by
  induction events generalizing s with
  | nil => nofun
  | cons e rest ih =>
      intro event hevent
      rw [trace, List.mem_append] at hevent
      rcases hevent with hfirst | hrest
      · -- It happens now, and time does not go back until the end.
        have hle := Nat.le_trans (s.now_le_step e) ((s.step e).now_le_run rest)
        split at hfirst
        · cases hfirst
        · exact Nat.le_trans (time_poolEvent (Option.mem_toList.mp hfirst)) hle
      · exact ih (s.step e) event hrest

/-! ### The report -/

/-- A report tells of the pool as it is, whose workers have ended. -/
def Settled (s : Session) : Prop :=
  ∀ report, s.report? = some report → s.pool.isOver = true ∧ report = .ofPool s.pool s.now

/-- The wait goes over to a report at a join only, and only when every worker
has ended. -/
theorem attend_over {e : Event} (hopen : s.report? = none) (h : s.attend e = .over report) :
    e = .join ∧ s.pool.isOver = true ∧ report = .ofPool s.pool s.now := by
  have hwatch (other : PoolReport) : s.watch ≠ .over other := by
    intro hover
    rw [report?_eq_some.mpr hover] at hopen
    cases hopen
  -- Every other event leaves the wait where it was, or moves it on to another limit.
  cases e with
  | join =>
      simp only [attend] at h
      split at h
      · rename_i hover
        exact ⟨rfl, hover, (Watch.over.inj h).symm⟩
      · exact absurd h (hwatch report)
  | notice =>
      simp only [attend] at h
      split at h
      · split at h <;> cases h
      · exact absurd h (hwatch report)
  | lapse =>
      simp only [attend] at h
      split at h
      · split at h <;> cases h
      · exact absurd h (hwatch report)
  | pass | proceed | answer | crash | fire | alarm => exact absurd h (hwatch report)

/-- Nothing unsettles a session: the wait is only over when all workers have ended. -/
theorem Settled.step (h : Settled s) (e : Event) : Settled (s.step e) := by
  cases hreported : s.report? with
  | some reported => rwa [step_of_reported (by rw [hreported]; rfl)]
  | none =>
      intro report hreport
      have hstep : s.step e = _ := if_neg (Option.not_isSome_iff_eq_none.mpr hreported)
      have hover : s.attend e = .over report := by
        rw [report?_eq_some, hstep] at hreport
        exact hreport
      obtain ⟨rfl, hpool, rfl⟩ := attend_over hreported hover
      rw [hstep]
      exact ⟨hpool, rfl⟩

/-- So a run from a settled session is settled, by induction on the events. -/
theorem Settled.run (h : Settled s) (events : List Event) : Settled (s.run events) := by
  induction events generalizing s with
  | nil => exact h
  | cons e rest ih => exact ih (h.step e)

/-- The report of a session is that of its pool, once every worker has
ended, with the time until then. -/
theorem report_run (hopen : s.report? = none) {events : List Event}
    (h : (s.run events).report? = some report) :
    (s.run events).pool.isOver = true ∧
    report = .ofPool (s.run events).pool (s.run events).now := by
  -- A session without a report is settled for nothing.
  have hsettled : Settled s := by
    intro report hreport
    rw [hopen] at hreport
    cases hreport
  exact hsettled.run events report h

end Session

end StoreBench
