import StoreBench.Load.Rehearsal
import StoreBench.Load.Script
import StoreBench.Proofs.Load.Stopping

/-!
# `StoreBench.Proofs.Load.Yielding`: when a worker gives way

A call that returns leaves its worker between two calls, waiting to be
scheduled again, or else in the next call already. In the first case the timer
and the other workers have their turns before that worker makes another call. In
the second case they have none, unless the call itself waits for something.

`gives_way` says which it is. A worker goes straight on at contention before the
signal, when a retry is left and no pause is set before it
(`RetryPolicy.retriesAtOnce`), and gives way after every other call. So there
are pools in which workers always give way, and the theorem says which: those
that pause before a retry, those that never retry, and those in which no call is
made. The default policy retries for ever and without a pause.

What comes of that is `Rehearsal.starved`. On one thread, under such a policy,
attempts that are answered at once and always meet contention keep the first
worker busy for ever. No time passes, the deadline is not reached, and no other
worker begins.
-/

set_option autoImplicit false

namespace StoreBench

/-- Whether a worker whose call returned makes the next one at once: at
contention before the signal, with a retry left and no pause before it. -/
def RetryPolicy.retriesAtOnce (p : RetryPolicy) (t : Try) (status : Status) (stopped : Bool) :
    Bool :=
  status == .retry && !stopped && p.allows t.retry && p.backoff.isZero

/-- The next try of the same logical attempt. -/
def Try.again (t : Try) : Try := { t with retry := t.retry + 1 }

variable {i : Nat} {t : Try} {status : Status} {stopped : Bool}

/-- The call that a worker is in after one has returned. -/
theorem Worker.current_answer {w : Worker} (hcurrent : w.current i = some t)
    (policy : RetryPolicy) (stopped : Bool) (status : Status) (now : Span) :
    (w.answer policy stopped status now).current i
      = if policy.retriesAtOnce t status stopped then some t.again else none := by
  unfold current at hcurrent
  split at hcurrent
  · rename_i retries hphase
    cases hcurrent
    -- Only contention before the signal, within the ceiling, comes to the pause.
    cases status <;> cases stopped <;> cases hallows : policy.allows retries <;>
      cases hzero : policy.backoff.isZero <;>
      simp [answer, hphase, hallows, hzero, RetryPolicy.retriesAtOnce, current, finish, Try.again]
  all_goals cases hcurrent

/-- A policy that retries for ever and without a pause retries at once. -/
theorem RetryPolicy.retriesAtOnce_of_unbounded {policy : RetryPolicy}
    (hunbounded : policy.maxRetries = none) (hzero : policy.backoff.isZero = true) (t : Try) :
    policy.retriesAtOnce t .retry false = true := by
  simp [retriesAtOnce, allows, hunbounded, hzero]

namespace Pool

variable {p : Pool} {e : Event}

/-- A worker that is in a call. -/
theorem exists_of_current (h : p.current i = some t) :
    ∃ w, p.workers[i]? = some w ∧ w.current i = some t ∧ w.phase.isOver = false ∧
      t.worker = i := by
  obtain ⟨w, hw, hcurrent⟩ := Option.bind_eq_some_iff.mp h
  refine ⟨w, hw, hcurrent, ?_⟩
  unfold Worker.current at hcurrent
  split at hcurrent
  · rename_i retries hphase
    cases hcurrent
    exact ⟨by rw [hphase]; rfl, rfl⟩
  all_goals cases hcurrent

/-- A pool with a worker in a call is not over. -/
theorem isOver_of_current (h : p.current i = some t) : p.isOver = false := by
  obtain ⟨w, hw, -, hawake, -⟩ := exists_of_current h
  exact List.all_eq_false.mpr ⟨w, List.mem_of_getElem? hw, by rw [hawake]; nofun⟩

/-- After an answer a worker is in the same try again just when it retries at once, and
otherwise in none. -/
theorem current_answer (h : p.current i = some t) (status : Status) (now : Span) :
    (p.step (.answer i status now)).current i
      = if p.retry.retriesAtOnce t status p.signal.isFired then some t.again else none := by
  obtain ⟨w, hw, hcurrent, hawake, -⟩ := exists_of_current h
  have hchange := current_change (f := fun w => w.answer p.retry p.signal.isFired status now)
    hw hawake
  rw [← Worker.current_answer hcurrent p.retry p.signal.isFired status now, ← hchange, step]
  -- Firing the signal leaves the workers where they are.
  split <;> rfl

/-- Contention does not touch the signal. -/
theorem signal_answer_retry (h : p.current i = some t) (now : Span) :
    (p.step (.answer i .retry now)).signal = p.signal := by
  obtain ⟨w, hw, -, hawake, -⟩ := exists_of_current h
  have hstatus : (Status.retry == Status.terminal) = false := rfl
  rw [step, hstatus, Bool.and_false]
  exact signal_change hw hawake

/-- The first worker of a new pool begins its first call when it goes on, if the
signal was not fired before. -/
theorem proceed_make {config : PoolConfig} (hpositive : 0 < config.concurrency)
    {signal : StopSignal} (hopen : signal.isFired = false) (template : Recorder) (now : Span) :
    ((make config template signal).step (.proceed 0 now)).current 0 = some ⟨0, 0, 0⟩ ∧
    ((make config template signal).step (.proceed 0 now)).signal = signal := by
  have hw : (make config template signal).workers[0]? = some { recorder := template.fresh } := by
    simp [make, hpositive]
  have hsignal : (make config template signal).signal = signal := rfl
  rw [step, current_change hw rfl, signal_change hw rfl, Worker.proceed, hsignal, hopen]
  exact ⟨rfl, rfl⟩

/-- A call is observed to return when its reply comes in, and what it returned
after is what the signal was then. -/
theorem eq_answer_of_returned (h : .returned t status stopped ∈ p.notes e) :
    ∃ now, e = .answer t.worker status now ∧ p.current t.worker = some t ∧
      stopped = p.signal.isFired := by
  -- That a call begins is another note.
  have hbegun (before after : Option Try) : .returned t status stopped ∉ begun before after := by
    unfold begun
    split
    · split <;> simp
    · simp
  cases e with
  | proceed j now =>
      rw [notes, ended, List.nil_append] at h
      exact absurd h (hbegun _ _)
  | fire cause =>
      rw [notes, ended] at h
      simp at h
  | crash j =>
      rw [notes, ended, List.mem_append, or_iff_left (hbegun _ _)] at h
      split at h <;> simp at h
  | answer j actual now =>
      rw [notes, ended, List.mem_append, or_iff_left (hbegun _ _)] at h
      split at h
      · rename_i u hu
        obtain ⟨-, -, -, -, hworker⟩ := exists_of_current hu
        rcases List.mem_cons.mp h with hreturned | hfired
        · cases hreturned
          subst hworker
          exact ⟨now, rfl, hu, rfl⟩
        · split at hfired <;> simp at hfired
      · cases h

end Pool

namespace Session

variable {s : Session} {e : Event}

/-- A worker whose call returns at an event is in no call after it. Before it
makes another, the timer and the other workers have their turns. -/
def GivesWay (s : Session) (e : Event) : Prop :=
  ∀ t status stopped, .returned t status stopped ∈ s.notes e →
    (s.step e).pool.current t.worker = none

/-- The call that a worker was in when it returned, and the one that it is in
after that. -/
theorem current_of_returned (h : .returned t status stopped ∈ s.notes e) :
    s.pool.current t.worker = some t ∧ stopped = s.pool.signal.isFired ∧
    (s.step e).pool.current t.worker
      = if s.pool.retry.retriesAtOnce t status stopped then some t.again else none := by
  rw [pool_step]
  unfold notes at h
  split at h
  · cases h
  · rename_i hopen
    rw [if_neg hopen]
    split at h
    · rename_i event hevent
      obtain ⟨now, rfl, hcurrent, rfl⟩ := Pool.eq_answer_of_returned h
      rw [hevent]
      exact ⟨hcurrent, rfl, Pool.current_answer hcurrent status now⟩
    · cases h

/-- An answer that a worker waits for is observed, with whether the signal was fired. -/
theorem returned_mem_notes (hopen : s.report? = none) (h : s.pool.current i = some t)
    (status : Status) : .returned t status s.pool.signal.isFired ∈ s.notes (.answer i status) := by
  simp [notes, hopen, poolEvent?, Pool.notes, Pool.ended, h]

section Run

variable (config : PoolConfig) (template : Recorder) (signal : StopSignal)

/-- A session retries as it is configured, at any time. -/
theorem retry_run (events : List Event) :
    ((start config template signal).run events).pool.retry = config.retry := by
  rw [pool_run, Pool.retry_run]
  rfl

/-- A worker that is in a call is one of those that the session began with. -/
theorem lt_of_current {events : List Event}
    (h : ((start config template signal).run events).pool.current i = some t) :
    i < config.concurrency := by
  obtain ⟨w, hw, -⟩ := Pool.exists_of_current h
  obtain ⟨hi, -⟩ := List.getElem?_eq_some_iff.mp hw
  rw [pool_run, Pool.length_run] at hi
  rwa [pool_start, Pool.make, List.length_replicate] at hi

/-- A signal that was fired before is fired throughout. -/
theorem isFired_run (hfired : signal.isFired = true) (events : List Event) :
    ((start config template signal).run events).pool.signal.isFired = true := by
  rw [pool_run, StopSignal.isFired, Pool.cause_run, Option.isSome_or]
  exact Bool.or_eq_true_iff.mpr (.inl hfired)

/-- A pool whose first worker does not give way at the first contention. -/
theorem not_givesWay (hzero : config.retry.backoff.isZero = true)
    (hceiling : config.retry.maxRetries ≠ some 0) (hpositive : 0 < config.concurrency)
    (hopen : signal.isFired = false) :
    ¬ GivesWay ((start config template signal).run [.proceed 0]) (.answer 0 .retry) := by
  intro hgives
  obtain ⟨hcurrent, hsignal⟩ := Pool.proceed_make hpositive hopen template .zero
  have hfired : ((start config template signal).run [.proceed 0]).pool.signal.isFired = false :=
    (congrArg StopSignal.isFired hsignal).trans hopen
  have hreturned := returned_mem_notes (s := (start config template signal).run [.proceed 0]) rfl
    hcurrent .retry
  rw [hfired] at hreturned
  -- A ceiling that is not zero leaves the first retry.
  have hallows : config.retry.allows 0 = true := by
    unfold RetryPolicy.allows
    split
    · rfl
    · rename_i most hmost
      refine decide_eq_true (Nat.pos_of_ne_zero ?_)
      rintro rfl
      exact hceiling hmost
  have hatOnce : config.retry.retriesAtOnce ⟨0, 0, 0⟩ .retry false = true := by
    simp [RetryPolicy.retriesAtOnce, hallows, hzero]
  obtain ⟨-, -, hagain⟩ := current_of_returned hreturned
  rw [retry_run, if_pos hatOnce, hgives _ _ _ hreturned] at hagain
  cases hagain

/-- **When a worker gives way.** For every pool, in whatever order its workers,
its timer and others take their steps: a worker whose call has returned is in no
call, unless it met contention before the signal, has a retry left and no pause
before it. In that case it is in the next call already.

So the workers of a pool give way after every call just when there is a pause
before a retry or there are never any retries, or else there is nobody to make a
call or no time to make one. -/
theorem gives_way :
    (∀ events e t status stopped,
      .returned t status stopped ∈ ((start config template signal).run events).notes e →
      (((start config template signal).run events).step e).pool.current t.worker
        = if config.retry.retriesAtOnce t status stopped then some t.again else none) ∧
    ((∀ events e, GivesWay ((start config template signal).run events) e) ↔
      config.retry.backoff.isZero = false ∨ config.retry.maxRetries = some 0 ∨
      config.concurrency = 0 ∨ signal.isFired = true) := by
  have hcurrent (events : List Event) (e : Event) (t : Try) (status : Status) (stopped : Bool)
      (h : .returned t status stopped ∈ ((start config template signal).run events).notes e) :
      (((start config template signal).run events).step e).pool.current t.worker
        = if config.retry.retriesAtOnce t status stopped then some t.again else none := by
    rw [← retry_run config template signal events]
    exact (current_of_returned h).2.2
  refine ⟨hcurrent, ?_, ?_⟩
  · intro hgives
    -- In every other pool the first worker can meet contention in its first call.
    cases hzero : config.retry.backoff.isZero with
    | false => exact .inl rfl
    | true =>
        refine .inr ?_
        by_cases hceiling : config.retry.maxRetries = some 0
        · exact .inl hceiling
        refine .inr ?_
        by_cases hnobody : config.concurrency = 0
        · exact .inl hnobody
        refine .inr ?_
        cases hopen : signal.isFired with
        | true => rfl
        | false =>
            have hpositive : 0 < config.concurrency := Nat.pos_of_ne_zero hnobody
            exact absurd (hgives _ _)
              (not_givesWay config template signal hzero hceiling hpositive hopen)
  · intro hcases events e t status stopped h
    rw [hcurrent events e t status stopped h, if_neg]
    obtain ⟨hworker, hstopped, -⟩ := current_of_returned h
    rcases hcases with hpause | hceiling | hnobody | hfired
    · simp [RetryPolicy.retriesAtOnce, hpause]
    · simp [RetryPolicy.retriesAtOnce, RetryPolicy.allows, hceiling]
    · have := lt_of_current config template signal hworker
      omega
    · rw [isFired_run config template signal hfired] at hstopped
      simp [RetryPolicy.retriesAtOnce, hstopped]

end Run

/-- After contention a worker is in no call if there is a pause before the retry,
and in the next one if there is none. -/
theorem gives_way_lone :
    ((start { concurrency := 1, retry := { backoff := .ofSeconds 1 } } roughRecorder {}).run
      [.proceed 0, .answer 0 .retry]).pool.current 0 = none ∧
    ((start { concurrency := 1 } roughRecorder {}).run
      [.proceed 0, .answer 0 .retry]).pool.current 0 = some ⟨0, 0, 1⟩ := by
  have hpause := (gives_way { concurrency := 1, retry := { backoff := .ofSeconds 1 } }
    roughRecorder {}).1 [.proceed 0] (.answer 0 .retry) ⟨0, 0, 0⟩ .retry false (by decide)
  have hnone := (gives_way { concurrency := 1 } roughRecorder {}).1 [.proceed 0]
    (.answer 0 .retry) ⟨0, 0, 0⟩ .retry false (by decide)
  exact ⟨hpause, hnone⟩

/-- An attempt that meets contention once and then the end of the workload, and
one that would succeed. -/
def greedyScript : Script :=
  { items := [{ ending := .exhausted, retries := 1 }, { ending := .success }] }

/-- Under the default policy workers do not always give way. So the second of two
workers makes no call at all where the first meets contention, tries again and
ends the run, although each of its two calls had returned and another attempt
would have succeeded. -/
theorem not_always_gives_way :
    (¬ ∀ config template signal events e,
      GivesWay ((start config template signal).run events) e) ∧
    let config : PoolConfig := { concurrency := 2, deadline := some (.ofSeconds 1) }
    let ended := Rehearsal.run Script.site Script.attempt 20
      (.make Script.site config roughRecorder {} greedyScript)
    ended.pool.isOver = true ∧ ended.state.tries = [⟨0, 0, 1⟩, ⟨0, 0, 0⟩] ∧
      ended.pool.totals = { operations := 0, errors := 0, transientRetries := 1 } := by
  refine ⟨?_, rfl, rfl, rfl⟩
  intro hgives
  exact not_givesWay { concurrency := 1 } roughRecorder {} rfl nofun Nat.one_pos rfl
    (hgives _ _ _ _ _)

end Session

/-! ### Starvation -/

namespace Rehearsal

variable {S : Signature} {σ γ : Type} {site : Site S σ γ} {attempt : Try → Task S Unit}
  {r : Rehearsal S σ γ} {i : Nat}

/-- Attempts whose requests are answered at once, fire no signal, and come to
contention. `I` relates the state of the site, what the worker holds there and
what is left of the attempt. -/
structure Hopeless (site : Site S σ γ) (attempt : Try → Task S Unit)
    (I : σ → γ → Program S (Attempted Unit) → Prop) : Prop where
  ask : ∀ {state held request next}, I state held (.ask request next) →
    (site.delay state held request).isZero = true ∧
    ∃ state' held' reply, site.answer state held request = (state', held', none, reply) ∧
      I state' held' (next reply)
  done : ∀ {state held result}, I state held (.done result) →
    (∃ code message, result = .error (.error (.conflict code message))) ∧
    ∀ t, I state held (attempt t).run

/-- Attempts that do nothing but fail with a conflict are hopeless at any site. -/
theorem hopeless_fail (site : Site S σ γ) (code message : String) :
    Hopeless site (fun _ => Task.fail (.conflict code message))
      fun _ _ rest => rest = .done (.error (.error (.conflict code message))) where
  ask := nofun
  done {state held result} h := by
    cases h
    exact ⟨⟨code, message, rfl⟩, fun _ => rfl⟩

/-- An event that does not touch the signal wakes nobody. -/
theorem withPool_of_signal {e : Pool.Event} (h : (r.pool.step e).signal = r.pool.signal) :
    r.withPool e = { r with pool := r.pool.step e } := by
  simp [withPool, h]

/-- A worker that is in a call after an event keeps its place at the head of the
queue. -/
theorem settle_of_current {e : Pool.Event} {t : Try}
    (hsignal : (r.pool.step e).signal = r.pool.signal)
    (hcurrent : (r.pool.step e).current i = some t) (held : γ) :
    r.settle attempt i held e = { r with
      pool := r.pool.step e
      hands := r.hands.set i { held := held, rest := some (attempt t).run } } := by
  obtain ⟨w, hw, hw', -⟩ := Pool.exists_of_current hcurrent
  have hpool := withPool_of_signal
    (r := { r with hands := r.hands.set i { held := held } }) hsignal
  simp only [settle, hpool, hw]
  unfold Worker.current at hw'
  split at hw'
  · rename_i retries hphase
    cases hw'
    simp [hphase]
  all_goals cases hw'

/-- The worker at the head of a queue keeps the thread to itself: where it is in
a rehearsal that has gone on from `r₀`, nothing has moved but the worker and the
site. -/
structure Hogs (I : σ → γ → Program S (Attempted Unit) → Prop) (i : Nat)
    (r₀ r : Rehearsal S σ γ) : Prop where
  now : r.now = r₀.now
  deadline : r.deadline = r₀.deadline
  queue : r.queue = r₀.queue
  waiting : r.waiting = r₀.waiting
  signal : r.pool.signal = r₀.pool.signal
  retry : r.pool.retry = r₀.pool.retry
  others : ∀ j, j ≠ i → r.pool.workers[j]? = r₀.pool.workers[j]?
  calling : ∃ t, r.pool.current i = some t
  hand : ∃ held rest waited, r.hands[i]? = some ⟨held, some rest, waited⟩ ∧ I r.state held rest

section Hogs

variable {I : σ → γ → Program S (Attempted Unit) → Prop} {r₀ : Rehearsal S σ γ}
  (hhopeless : Hopeless site attempt I) (hopen : r₀.pool.signal.isFired = false)
  (hunbounded : r₀.pool.retry.maxRetries = none) (hzero : r₀.pool.retry.backoff.isZero = true)
include hhopeless hopen hunbounded hzero

/-- One more step of the worker at the head: a request is answered, or a conflict has it
try again without a pause. -/
theorem Hogs.advance (h : Hogs I i r₀ r) : Hogs I i r₀ (r.advance site attempt i) := by
  obtain ⟨held, rest, waited, hhand, hI⟩ := h.hand
  obtain ⟨hi, -⟩ := List.getElem?_eq_some_iff.mp hhand
  obtain ⟨t, ht⟩ := h.calling
  cases rest with
  | ask request next =>
      -- The answer comes at once, and the worker goes on with it.
      obtain ⟨hdelay, state, held', reply, hanswer, hI'⟩ := hhopeless.ask hI
      simp only [Rehearsal.advance, hhand, hdelay, Bool.true_or, if_true, hanswer]
      exact ⟨h.now, h.deadline, h.queue, h.waiting, h.signal, h.retry, h.others, ⟨t, ht⟩,
        held', _, false, List.getElem?_set_self hi, hI'⟩
  | done result =>
      -- Contention, and the next try is in the worker's hands at once.
      obtain ⟨⟨code, message, rfl⟩, hI'⟩ := hhopeless.done hI
      have hadvance : r.advance site attempt i
          = r.settle attempt i held (.answer i .retry r.now) := by
        simp only [Rehearsal.advance, hhand]
        rfl
      have hsignal := Pool.signal_answer_retry ht r.now
      have hcurrent := Pool.current_answer ht .retry r.now
      rw [h.signal, h.retry, hopen,
        if_pos (RetryPolicy.retriesAtOnce_of_unbounded hunbounded hzero t)] at hcurrent
      rw [hadvance, settle_of_current hsignal hcurrent]
      refine ⟨h.now, h.deadline, h.queue, h.waiting, hsignal.trans h.signal,
        (Pool.retry_step _ _).trans h.retry, ?_, ⟨_, hcurrent⟩,
        held, _, false, List.getElem?_set_self hi, hI' _⟩
      intro j hj
      have hne : (Pool.Event.answer i .retry r.now).worker? ≠ some j := by
        intro hsame
        exact hj (Option.some.inj hsame).symm
      exact (Pool.worker_step_of_ne hne).trans (h.others j hj)

/-- As long as the deadline is not due where it began, the worker goes on. -/
theorem Hogs.run (h : Hogs I i r₀ r) {others : List Nat} (hhead : r₀.queue = i :: others)
    (hdue : r₀.due r₀.now = none) (fuel : Nat) : Hogs I i r₀ (run site attempt fuel r) := by
  induction fuel generalizing r with
  | zero => exact h
  | succ fuel ih =>
      -- The clock and the queue are those of the beginning, so it is this worker's turn again.
      have hstep : r.step site attempt = some (r.advance site attempt i) := by
        have hdue' : r.due r.now = none := by
          rw [due, h.deadline, h.now]
          exact hdue
        simp only [step, hdue', h.queue, hhead]
      simp only [Rehearsal.run, hstep]
      exact ih (h.advance hhopeless hopen hunbounded hzero)

end Hogs

section Make

variable {config : PoolConfig} (template : Recorder) (state : σ)

/-- A deadline that is not now is not due at the beginning. -/
theorem due_make (hdeadline : ∀ d, config.deadline = some d → 0 < d.nanos) :
    (make site config template {} state).due .zero = none := by
  rw [due, Option.filter_eq_none_iff]
  intro d hd
  have hlate := Nat.ne_of_gt (hdeadline d hd)
  simpa [Span.zero] using hlate

/-- The first worker is at the head of the queue. -/
theorem queue_make (site : Site S σ γ) (hpositive : 0 < config.concurrency) :
    ∃ others, (make site config template {} state).queue = 0 :: others := by
  obtain ⟨n, hn⟩ := Nat.exists_eq_succ_of_ne_zero (Nat.ne_of_gt hpositive)
  refine ⟨(List.range n).map Nat.succ, ?_⟩
  simp only [make, hn, List.range_succ_eq_map]

/-- In its first step a rehearsal whose deadline is not due at once has the first
worker begin its first call. -/
theorem hogs_make {I : σ → γ → Program S (Attempted Unit) → Prop}
    (hpositive : 0 < config.concurrency) (hdeadline : ∀ d, config.deadline = some d → 0 < d.nanos)
    (hfirst : I state site.idle (attempt ⟨0, 0, 0⟩).run) :
    ∃ r, (make site config template {} state).step site attempt = some r ∧
      Hogs I 0 (make site config template {} state) r := by
  have hdue : (make site config template {} state).due (make site config template {} state).now
      = none := due_make template state hdeadline
  obtain ⟨others, hqueue⟩ := queue_make template state site hpositive
  have hhand : (make site config template {} state).hands[0]? = some { held := site.idle } := by
    simp [make, hpositive]
  have hopen : ({} : StopSignal).isFired = false := rfl
  obtain ⟨hcurrent, hsignal⟩ := Pool.proceed_make hpositive hopen template .zero
  -- The first worker takes the first step, as nothing is due.
  have hstep : (make site config template {} state).step site attempt
      = some ((make site config template {} state).settle attempt 0 site.idle
        (.proceed 0 .zero)) := by
    simp only [step, hdue, hqueue, advance, hhand]
    rfl
  refine ⟨_, hstep, ?_⟩
  rw [settle_of_current (i := 0) hsignal hcurrent]
  refine ⟨rfl, rfl, rfl, rfl, hsignal, Pool.retry_step _ _, ?_, ⟨_, hcurrent⟩,
    site.idle, _, false, List.getElem?_set_self (List.getElem?_eq_some_iff.mp hhand).1, hfirst⟩
  -- Nobody else is touched by it.
  intro j hj
  refine Pool.worker_step_of_ne ?_
  intro hsame
  exact hj (Option.some.inj hsame).symm

end Make

/-- **Starvation.** On one thread, under a policy that retries for ever and
without a pause, attempts that are answered at once and always meet contention
keep the first worker busy however long the rehearsal goes on. No time passes, so
that a deadline is never reached and the signal never fires; no other worker
begins a call, and the pool does not come to its end. -/
theorem starved {I : σ → γ → Program S (Attempted Unit) → Prop}
    (hhopeless : Hopeless site attempt I) {config : PoolConfig}
    (hpositive : 0 < config.concurrency) (hunbounded : config.retry.maxRetries = none)
    (hzero : config.retry.backoff.isZero = true)
    (hdeadline : ∀ d, config.deadline = some d → 0 < d.nanos) (template : Recorder) (state : σ)
    (hfirst : I state site.idle (attempt ⟨0, 0, 0⟩).run) (fuel : Nat) :
    let r := run site attempt fuel (make site config template {} state)
    r.now = .zero ∧ r.pool.signal.isFired = false ∧ r.pool.isOver = false ∧
      ∀ j, j ≠ 0 → r.pool.workers[j]? = (Pool.make config template {}).workers[j]? := by
  obtain _ | fuel := fuel
  · -- Nobody has begun yet.
    refine ⟨rfl, rfl, ?_, fun _ _ => rfl⟩
    simp [run, make, Pool.make, Pool.isOver, Phase.isOver, Nat.ne_of_gt hpositive]
  · obtain ⟨first, hstep, hfirst⟩ := hogs_make template state hpositive hdeadline hfirst
    obtain ⟨others, hqueue⟩ := queue_make template state site hpositive
    have hlast := hfirst.run hhopeless rfl hunbounded hzero hqueue
      (due_make template state hdeadline) fuel
    simp only [run, hstep]
    refine ⟨hlast.now, ?_, ?_, hlast.others⟩
    · rw [hlast.signal]
      rfl
    · obtain ⟨t, ht⟩ := hlast.calling
      exact Pool.isOver_of_current ht

/-- The plainest case needs nothing of the site: attempts that make no request and only
fail with a conflict starve the others under the default policy, whatever the
deadline. -/
theorem starved_fail (site : Site S σ γ) (code message : String) {config : PoolConfig}
    (hpositive : 0 < config.concurrency) (hpolicy : config.retry = {})
    (hdeadline : ∀ d, config.deadline = some d → 0 < d.nanos) (template : Recorder) (state : σ)
    (fuel : Nat) :
    let r := run site (fun _ => Task.fail (.conflict code message)) fuel
      (make site config template {} state)
    r.now = .zero ∧ r.pool.signal.isFired = false ∧ r.pool.isOver = false ∧
      ∀ j, j ≠ 0 → r.pool.workers[j]? = (Pool.make config template {}).workers[j]? := by
  refine starved (hopeless_fail site code message) hpositive ?_ ?_ hdeadline template state rfl fuel
  · rw [hpolicy]
  · rw [hpolicy]
    rfl

end Rehearsal

end StoreBench
