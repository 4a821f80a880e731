import StoreBench.Load.Pool

/-!
# `StoreBench.Proofs.Load.Calls`: the calls that a pool makes

A pool calls its attempt function once for every try. What can be observed of
a pool from outside is when a call begins, what it returns or that it breaks
off, and when somebody fires the signal: these are the notes of `Pool.log`.
The notes of an event are read off the tries that the workers are in before
and after it, and say nothing of what is counted.

`step_cases` says once and for all what an event can do: nothing, fire the
signal, or move one worker that has not ended. `Move` lists the ten ways in
which a worker moves on, each with the notes it leaves. The invariants of
the other modules are proved by going through these cases.
-/

set_option autoImplicit false

namespace StoreBench

/-- What is observed of a pool: the calls, how they ended, and the signal. -/
inductive Note
  /-- The call of a try begins. -/
  | began (t : Try)
  /-- It returns, before or after the signal was fired. -/
  | returned (t : Try) (status : Status) (stopped : Bool)
  /-- It breaks off. -/
  | panicked (t : Try)
  /-- Somebody fires the signal, be it the first or not. -/
  | fired (cause : StopCause)
deriving DecidableEq, Repr

/-- The try that a worker is in, if it is in one. -/
def Worker.current (w : Worker) (i : Nat) : Option Try :=
  match w.phase with
  | .trying retries => some { worker := i, iteration := w.iteration, retry := retries }
  | .ready | .resting _ | .left | .crashed => none

/-- Fires the signal as a note says. The log alone tells whether it was fired. -/
def StopSignal.hear (s : StopSignal) : Note → StopSignal
  | .fired cause => (s.fire cause).1
  | .began _ | .returned _ _ _ | .panicked _ => s

/-- The time at which an event of a pool happens, if it matters. -/
def Pool.Event.time : Pool.Event → Span
  | .proceed _ now | .answer _ _ now => now
  | .crash _ | .fire _ => .zero

namespace Pool

/-- The try that a worker of the pool is in. -/
def current (p : Pool) (i : Nat) : Option Try := (p.workers[i]?).bind fun w => w.current i

/-- What an event ends, and the signal that is fired with it. -/
def ended (p : Pool) : Event → List Note
  | .proceed _ _ => []
  | .answer i status _ => match p.current i with
    | some t => .returned t status p.signal.isFired ::
        (if status = .terminal then [.fired .terminalConditionMet] else [])
    | none => []
  | .crash i => match p.current i with
    | some t => [.panicked t]
    | none => []
  | .fire cause => [.fired cause]

/-- The call that a worker begins from one state to the next: that of the try
it is in then, if it was not in it before. -/
def begun (before after : Option Try) : List Note :=
  match after with
  | some t => if before = some t then [] else [.began t]
  | none => []

/-- What is observed of an event, seen from the state before it. -/
def notes (p : Pool) (e : Event) : List Note :=
  p.ended e ++ match e with
    | .proceed i _ | .answer i _ _ | .crash i => begun (p.current i) ((p.step e).current i)
    | .fire _ => []

/-- What is observed of a run, each event from the state of its moment. -/
def log (p : Pool) : List Event → List Note
  | [] => []
  | e :: rest => p.notes e ++ log (p.step e) rest

end Pool

/-! ### How a worker moves -/

/-- A worker's moves under a retry policy, before or after the signal was
fired, at a time, with the notes they leave. -/
inductive Move (policy : RetryPolicy) (stopped : Bool) (now : Span) (i : Nat) :
    Worker → Worker → List Note → Prop
  /-- A logical attempt begins. -/
  | begin (w : Worker) (hphase : w.phase = .ready) (hstop : stopped = false) :
      Move policy stopped now i w { w with phase := .trying 0, began := now }
        [.began ⟨i, w.iteration, 0⟩]
  /-- The retry after a pause begins. -/
  | resume (w : Worker) (retries : Nat) (hphase : w.phase = .resting retries)
      (hstop : stopped = false) :
      Move policy stopped now i w { w with phase := .trying retries }
        [.began ⟨i, w.iteration, retries⟩]
  /-- After a pause the worker sees the signal. -/
  | leave (w : Worker) (htry : w.current i = none) (hstop : stopped = true) :
      Move policy stopped now i w { w with phase := .left } []
  /-- A call ends a logical attempt. -/
  | finish (w : Worker) (retries : Nat) (status : Status)
      (hphase : w.phase = .trying retries) (hcounted : status.isCounted = true) :
      Move policy stopped now i w (w.finish status now)
        [.returned ⟨i, w.iteration, retries⟩ status stopped]
  /-- A call meets the end of the workload. -/
  | terminal (w : Worker) (retries : Nat) (hphase : w.phase = .trying retries) :
      Move policy stopped now i w { w with phase := .left }
        [.returned ⟨i, w.iteration, retries⟩ .terminal stopped, .fired .terminalConditionMet]
  /-- A call meets contention after the signal was fired. -/
  | drop (w : Worker) (retries : Nat) (hphase : w.phase = .trying retries)
      (hstop : stopped = true) :
      Move policy stopped now i w { w with phase := .left }
        [.returned ⟨i, w.iteration, retries⟩ .retry stopped]
  /-- Contention, and the retry begins at once. -/
  | again (w : Worker) (retries : Nat) (hphase : w.phase = .trying retries)
      (hstop : stopped = false) (hallows : policy.allows retries = true) :
      Move policy stopped now i w
        { w with tally := w.tally.observe .retry, phase := .trying (retries + 1) }
        [.returned ⟨i, w.iteration, retries⟩ .retry stopped, .began ⟨i, w.iteration, retries + 1⟩]
  /-- Contention, and a pause before the retry. -/
  | rest (w : Worker) (retries : Nat) (hphase : w.phase = .trying retries)
      (hstop : stopped = false) (hallows : policy.allows retries = true) :
      Move policy stopped now i w
        { w with tally := w.tally.observe .retry, phase := .resting (retries + 1) }
        [.returned ⟨i, w.iteration, retries⟩ .retry stopped]
  /-- Contention, and no retry is left. -/
  | giveUp (w : Worker) (retries : Nat) (hphase : w.phase = .trying retries)
      (hstop : stopped = false) (hallows : policy.allows retries = false) :
      Move policy stopped now i w (w.finish .error now)
        [.returned ⟨i, w.iteration, retries⟩ .retry stopped]
  /-- A call breaks off. -/
  | crash (w : Worker) (retries : Nat) (hphase : w.phase = .trying retries) :
      Move policy stopped now i w { w with phase := .crashed } [.panicked ⟨i, w.iteration, retries⟩]

namespace Pool

variable {p q : Pool} {i : Nat} {w moved : Worker}

/-- One worker has moved, and was merged if it ended by that. -/
structure Moved (p q : Pool) (now : Span) (i : Nat) (w moved : Worker) (notes : List Note) :
    Prop where
  here : p.workers[i]? = some w
  awake : w.phase.isOver = false
  move : Move p.retry p.signal.isFired now i w moved notes
  workers : q.workers = p.workers.set i moved
  totals : q.totals = if moved.phase.isOver then p.totals.add moved.tally else p.totals
  latency : q.latency = if moved.phase.isOver then (p.flush moved).latency else p.latency
  retry : q.retry = p.retry
  signal : q.signal = notes.foldl StopSignal.hear p.signal

/-! ### Changing a worker -/

/-- A worker that has ended is not changed. -/
theorem change_of_over {f : Worker → Worker}
    (h : ∀ w, p.workers[i]? = some w → w.phase.isOver = true) : p.change i f = p := by
  unfold change
  cases hw : p.workers[i]? with
  | none => rfl
  | some w => simp [h w hw]

/-- A worker that a function leaves as it is is not changed. -/
theorem change_of_eq {f : Worker → Worker} (hw : p.workers[i]? = some w)
    (hawake : w.phase.isOver = false) (hf : f w = w) : p.change i f = p := by
  obtain ⟨hi, rfl⟩ := List.getElem?_eq_some_iff.mp hw
  simp [change, hw, hawake, hf]

section Change

variable {f : Worker → Worker} (hw : p.workers[i]? = some w) (hawake : w.phase.isOver = false)
include hw hawake

/-- A change of one worker is made in its place. -/
theorem workers_change : (p.change i f).workers = p.workers.set i (f w) := by
  simp only [change, hw, hawake, Bool.false_eq_true, if_false]
  split <;> rfl

/-- The tally of a worker that ends is added up. -/
theorem totals_change : (p.change i f).totals
    = if (f w).phase.isOver then p.totals.add (f w).tally else p.totals := by
  simp only [change, hw, hawake, Bool.false_eq_true, if_false]
  split <;> rfl

/-- The latencies of a worker that ends are merged. -/
theorem latency_change : (p.change i f).latency
    = if (f w).phase.isOver then (p.flush (f w)).latency else p.latency := by
  simp only [change, hw, hawake, Bool.false_eq_true, if_false]
  split <;> rfl

/-- What changes one worker leaves the policy of the pool alone. -/
theorem retry_change : (p.change i f).retry = p.retry := by
  simp only [change, hw, hawake, Bool.false_eq_true, if_false]
  split <;> rfl

/-- What changes one worker leaves the signal alone, so that only notes fire it. -/
theorem signal_change : (p.change i f).signal = p.signal := by
  simp only [change, hw, hawake, Bool.false_eq_true, if_false]
  split <;> rfl

/-- A worker that has not ended moves, and the signal is fired with that or
not. -/
theorem moved_change {now : Span} {notes : List Note} {signal : StopSignal}
    (hmove : Move p.retry p.signal.isFired now i w (f w) notes)
    (hsignal : signal = notes.foldl StopSignal.hear p.signal) :
    Moved p { p.change i f with signal := signal } now i w (f w) notes where
  here := hw
  awake := hawake
  move := hmove
  workers := workers_change hw hawake
  totals := totals_change hw hawake
  latency := latency_change hw hawake
  retry := retry_change hw hawake
  signal := hsignal

end Change

/-! ### What an event can do -/

/-- The try of a worker is found through the pool. -/
theorem current_of_worker (hw : p.workers[i]? = some w) : p.current i = w.current i := by
  rw [current, hw]
  rfl

/-- The try that a worker is in once it is changed. -/
theorem current_change {f : Worker → Worker} (hw : p.workers[i]? = some w)
    (hawake : w.phase.isOver = false) : (p.change i f).current i = (f w).current i := by
  obtain ⟨hi, -⟩ := List.getElem?_eq_some_iff.mp hw
  refine current_of_worker ?_
  rw [workers_change hw hawake, List.getElem?_set_self hi]

/-- A worker that has ended is in no try. -/
theorem current_of_over (h : ∀ w, p.workers[i]? = some w → w.phase.isOver = true) :
    p.current i = none := by
  cases hw : p.workers[i]? with
  | none => rw [current, hw]; rfl
  | some w =>
      rw [current_of_worker hw, Worker.current]
      have hover := h w hw
      cases hphase : w.phase <;> simp_all [Phase.isOver]

end Pool

namespace Worker

variable {w : Worker} {i retries : Nat} {policy : RetryPolicy} {stopped : Bool}

/-- A worker that goes on moves, unless it is in a try. -/
theorem proceed_cases (w : Worker) (i : Nat) (policy : RetryPolicy) (stopped : Bool) (now : Span)
    (hawake : w.phase.isOver = false) :
    w.proceed stopped now = w ∨
    Move policy stopped now i w (w.proceed stopped now)
      (Pool.begun (w.current i) ((w.proceed stopped now).current i)) := by
  -- The signal is looked at before each call, the first of an attempt or a retry.
  cases hphase : w.phase with
  | ready =>
      right
      cases stopped with
      | true =>
          simp only [proceed, hphase, if_true, current, Pool.begun]
          exact .leave w (by simp [current, hphase]) rfl
      | false =>
          simp only [proceed, hphase, current, Pool.begun]
          exact .begin w hphase rfl
  | trying retries =>
      left
      simp only [proceed, hphase]
  | resting retries =>
      right
      cases stopped with
      | true =>
          simp only [proceed, hphase, if_true, current, Pool.begun]
          exact .leave w (by simp [current, hphase]) rfl
      | false =>
          simp only [proceed, hphase, current, Pool.begun]
          exact .resume w retries hphase rfl
  | left | crashed => simp [hphase, Phase.isOver] at hawake

/-- A worker whose call returns moves: to a new try, to the same one again, or to its
end. -/
theorem answer_cases (hphase : w.phase = .trying retries) (i : Nat) (policy : RetryPolicy)
    (stopped : Bool) (status : Status) (now : Span) :
    Move policy stopped now i w (w.answer policy stopped status now)
      ((.returned ⟨i, w.iteration, retries⟩ status stopped ::
        if status = .terminal then [.fired .terminalConditionMet] else []) ++
        Pool.begun (w.current i) ((w.answer policy stopped status now).current i)) := by
  cases status with
  | success =>
      simp only [answer, hphase]
      exact .finish w retries .success hphase rfl
  | error =>
      simp only [answer, hphase]
      exact .finish w retries .error hphase rfl
  | terminal =>
      simp only [answer, hphase]
      exact .terminal w retries hphase
  | retry =>
      cases stopped with
      | true =>
          simp only [answer, hphase, if_true]
          exact .drop w retries hphase rfl
      | false =>
          cases hallows : policy.allows retries with
          | false =>
              simp only [answer, hphase, hallows, Bool.false_eq_true, if_false]
              exact .giveUp w retries hphase rfl hallows
          | true =>
              -- Without a pause the next call begins in the same move.
              cases hzero : policy.backoff.isZero with
              | false =>
                  simp only [answer, hphase, hallows, hzero, Bool.false_eq_true, if_false, if_true]
                  exact .rest w retries hphase rfl hallows
              | true =>
                  simp only [answer, hphase, hallows, hzero, Bool.false_eq_true, if_false, if_true]
                  have hnew : (some ⟨i, w.iteration, retries⟩ : Option Try)
                      ≠ some ⟨i, w.iteration, retries + 1⟩ := by simp
                  simp only [current, hphase, Pool.begun, if_neg hnew]
                  exact .again w retries hphase rfl hallows

/-- A worker that breaks off in a call. -/
theorem crash_cases (hphase : w.phase = .trying retries) (i : Nat) (policy : RetryPolicy)
    (stopped : Bool) (now : Span) :
    Move policy stopped now i w w.crash
      ([.panicked ⟨i, w.iteration, retries⟩] ++ Pool.begun (w.current i) (w.crash.current i)) := by
  simp only [crash, hphase]
  exact .crash w retries hphase

end Worker

namespace Pool

variable {p q : Pool} {i : Nat} {w moved : Worker}

/-- Calls that begin do not fire the signal. -/
theorem hear_begun (before after : Option Try) (s : StopSignal) :
    (begun before after).foldl StopSignal.hear s = s := by
  unfold begun
  split
  · split <;> rfl
  · rfl

/-- A state that lasts begins no call, so that calls begin only when a worker moves. -/
theorem begun_self (t : Option Try) : begun t t = [] := by
  unfold begun
  split <;> simp

/-- There is a worker that has not ended, or what there is has. -/
theorem awake_or_over (p : Pool) (i : Nat) :
    (∃ w, p.workers[i]? = some w ∧ w.phase.isOver = false) ∨
    ∀ w, p.workers[i]? = some w → w.phase.isOver = true := by
  cases hw : p.workers[i]? with
  | none => exact .inr nofun
  | some w =>
      cases hover : w.phase.isOver with
      | false => exact .inl ⟨w, rfl, hover⟩
      | true =>
          right
          intro w' hw'
          rw [← Option.some.inj hw', hover]

/-- A worker is trying when it is in a try. -/
theorem isTrying_eq (p : Pool) (i : Nat) : p.isTrying i = (p.current i).isSome := by
  unfold isTrying current
  cases p.workers[i]? with
  | none => rfl
  | some w =>
      obtain ⟨phase, iteration, start, tally, recorder⟩ := w
      cases phase <;> rfl

/-- A worker is in a call, or nothing comes of a change that is made in calls
only. -/
theorem trying_or_idle (p : Pool) (i : Nat) :
    (∃ w retries, p.workers[i]? = some w ∧ w.phase = .trying retries) ∨
    (p.current i = none ∧
      ∀ f : Worker → Worker, (∀ w, w.current i = none → f w = w) → p.change i f = p) := by
  rcases p.awake_or_over i with ⟨w, hw, hawake⟩ | hover
  · cases hphase : w.phase with
    | trying retries => exact .inl ⟨w, retries, hw, hphase⟩
    | ready | resting retries | left | crashed =>
        have hnone : w.current i = none := by simp [Worker.current, hphase]
        refine .inr ⟨by rw [current_of_worker hw, hnone], ?_⟩
        intro f hf
        exact change_of_eq hw hawake (hf w hnone)
  · exact .inr ⟨current_of_over hover, fun f _ => change_of_over hover⟩

/-- A call that returns moves its worker. At the end of the workload the
signal is fired as well. -/
theorem step_answer {retries : Nat} (hw : p.workers[i]? = some w)
    (hphase : w.phase = .trying retries) (status : Status) (now : Span) :
    ∃ moved, Moved p (p.step (.answer i status now)) now i w moved
      (p.notes (.answer i status now)) := by
  have hmove := Worker.answer_cases hphase i p.retry p.signal.isFired status now
  have hawake : w.phase.isOver = false := by rw [hphase]; rfl
  have hcurrent : w.current i = some ⟨i, w.iteration, retries⟩ := by
    simp only [Worker.current, hphase]
  refine ⟨w.answer p.retry p.signal.isFired status now, ?_⟩
  rw [notes, ended, current_of_worker hw]
  simp only [hcurrent] at hmove ⊢
  -- Only the end of the workload fires the signal, after the worker has moved.
  by_cases hterminal : status = .terminal
  · have hstep : p.step (.answer i status now)
        = (p.change i fun w => w.answer p.retry p.signal.isFired status now).fire
          .terminalConditionMet := by
      simp [step, isTrying_eq, current_of_worker hw, hcurrent, hterminal]
    have hmoved : (p.step (.answer i status now)).current i
        = (w.answer p.retry p.signal.isFired status now).current i := by
      rw [hstep]
      exact current_change hw hawake
    rw [hmoved, hstep]
    refine moved_change hw hawake hmove ?_
    rw [List.foldl_append, hear_begun, if_pos hterminal, signal_change hw hawake]
    rfl
  · have hstep : p.step (.answer i status now)
        = p.change i fun w => w.answer p.retry p.signal.isFired status now := by
      simp [step, hterminal]
    rw [hstep, current_change hw hawake]
    refine moved_change hw hawake hmove ((signal_change hw hawake).trans ?_)
    rw [List.foldl_append, hear_begun, if_neg hterminal]
    rfl

/-- What an event can do: nothing at all, fire the signal, or move one
worker. -/
theorem step_cases (p : Pool) (e : Event) :
    (p.step e = p ∧ p.notes e = []) ∨
    (∃ cause, p.step e = p.fire cause ∧ p.notes e = [.fired cause]) ∨
    ∃ i w moved, Moved p (p.step e) e.time i w moved (p.notes e) := by
  cases e with
  | fire cause => exact .inr (.inl ⟨cause, rfl, rfl⟩)
  | proceed i now =>
      -- A worker in a call and one that has ended do not go on.
      rcases p.awake_or_over i with ⟨w, hw, hawake⟩ | hover
      · rcases w.proceed_cases i p.retry p.signal.isFired now hawake with hsame | hmove
        · have hstep : p.step (.proceed i now) = p := change_of_eq hw hawake hsame
          exact .inl ⟨hstep, by rw [notes, ended, hstep, begun_self]; rfl⟩
        · refine .inr (.inr ⟨i, w, w.proceed p.signal.isFired now, ?_⟩)
          rw [notes, ended, List.nil_append, step, current_of_worker hw, current_change hw hawake]
          exact moved_change hw hawake hmove
            ((signal_change hw hawake).trans (hear_begun _ _ _).symm)
      · have hstep : p.step (.proceed i now) = p := change_of_over hover
        exact .inl ⟨hstep, by rw [notes, ended, hstep, begun_self]; rfl⟩
  | answer i status now =>
      rcases p.trying_or_idle i with ⟨w, retries, hw, hphase⟩ | ⟨hnone, hf⟩
      · exact .inr (.inr ⟨i, w, step_answer hw hphase status now⟩)
      · -- Nobody waits for this reply.
        have hstep : p.step (.answer i status now) = p := by
          simp only [step, isTrying_eq, hnone, Option.isSome_none, Bool.false_and,
            Bool.false_eq_true, if_false]
          refine hf _ ?_
          intro w hw
          simp only [Worker.current] at hw
          simp only [Worker.answer]
          split at hw <;> simp_all
        exact .inl ⟨hstep, by rw [notes, ended, hnone, hstep, hnone]; rfl⟩
  | crash i =>
      rcases p.trying_or_idle i with ⟨w, retries, hw, hphase⟩ | ⟨hnone, hf⟩
      · have hmove := Worker.crash_cases hphase i p.retry p.signal.isFired .zero
        have hawake : w.phase.isOver = false := by rw [hphase]; rfl
        have hcurrent : w.current i = some ⟨i, w.iteration, retries⟩ := by
          simp only [Worker.current, hphase]
        refine .inr (.inr ⟨i, w, w.crash, ?_⟩)
        rw [notes, ended, step, current_of_worker hw, current_change hw hawake]
        simp only [hcurrent] at hmove ⊢
        exact moved_change hw hawake hmove ((signal_change hw hawake).trans (hear_begun _ _ _).symm)
      · have hstep : p.step (.crash i) = p := by
          refine hf _ ?_
          intro w hw
          simp only [Worker.current] at hw
          simp only [Worker.crash]
          split at hw <;> simp_all
        exact .inl ⟨hstep, by rw [notes, ended, hnone, hstep, hnone]; rfl⟩

/-- The worker that an event is about. Firing the signal is about none. -/
def Event.worker? : Event → Option Nat
  | .proceed i _ | .answer i _ _ | .crash i => some i
  | .fire _ => none

/-- An event changes no worker but the one that it is about. -/
theorem worker_step_of_ne {e : Event} (hne : e.worker? ≠ some i) :
    (p.step e).workers[i]? = p.workers[i]? := by
  have hchange {j : Nat} (hj : j ≠ i) (f : Worker → Worker) :
      (p.change j f).workers[i]? = p.workers[i]? := by
    rcases p.awake_or_over j with ⟨w, hw, hawake⟩ | hover
    · rw [workers_change hw hawake, List.getElem?_set_ne hj]
    · rw [change_of_over hover]
  cases e with
  | proceed j now => exact hchange (fun h => hne (congrArg some h)) _
  | crash j => exact hchange (fun h => hne (congrArg some h)) _
  | answer j status now =>
      rw [step]
      split <;> exact hchange (fun h => hne (congrArg some h)) _
  | fire cause => rfl

/-- An event leaves the workers in their tries that it is not about. -/
theorem current_step_of_ne {e : Event} (hne : e.worker? ≠ some i) :
    (p.step e).current i = p.current i := by
  rw [current, worker_step_of_ne hne, current]

/-- No worker comes or goes. Those that have ended keep their places. -/
theorem length_step (p : Pool) (e : Event) : (p.step e).workers.length = p.workers.length := by
  rcases p.step_cases e with ⟨hstep, -⟩ | ⟨cause, hstep, -⟩ | ⟨i, w, moved, hmoved⟩
  · rw [hstep]
  · rw [hstep]
    rfl
  · rw [hmoved.workers, List.length_set]

/-- No worker comes or goes in a run, however many of them end. -/
theorem length_run (p : Pool) (events : List Event) :
    (p.run events).workers.length = p.workers.length := by
  induction events generalizing p with
  | nil => rfl
  | cons e rest ih => exact (ih (p.step e)).trans (p.length_step e)

/-- The policy stays as it was configured. -/
theorem retry_step (p : Pool) (e : Event) : (p.step e).retry = p.retry := by
  rcases p.step_cases e with ⟨hstep, -⟩ | ⟨cause, hstep, -⟩ | ⟨i, w, moved, hmoved⟩
  · rw [hstep]
  · rw [hstep]
    rfl
  · exact hmoved.retry

/-- The policy is the configured one in any state of a run. -/
theorem retry_run (p : Pool) (events : List Event) : (p.run events).retry = p.retry := by
  induction events generalizing p with
  | nil => rfl
  | cons e rest ih => exact (ih (p.step e)).trans (p.retry_step e)

end Pool

end StoreBench
