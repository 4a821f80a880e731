import StoreBench.Load.Rehearsal
import StoreBench.Proofs.Load.Accounting

/-!
# `StoreBench.Proofs.Load.Crew`: the workers of a session at a site

A `Crew` is a session whose workers run programs at one site. At a turn a
worker makes one step: it goes on after a pause, has one request answered, or
hands in the result of its attempt. Any worker may have the next turn, time
may pass in between, and the timer and the wait take part, so the lists of
events are all the ways in which attempts can interleave, request by request.
What was asked and answered is kept in `log`.

`step_cases` says what an event can do to a crew. `Staffed` is the invariant
that ties hands to workers: a worker has a program in hands just when it is in
a try.
-/

set_option autoImplicit false

namespace StoreBench

/-- A session whose workers run programs at a site. -/
structure Crew (S : Signature) (σ γ : Type) where
  session : Session
  state : σ
  hands : List (Hand S γ)
  /-- The requests that were answered so far, and the replies. -/
  log : List ((r : S.Request) × S.Reply r) := []

namespace Crew

/-- What happens in a crew. Whatever a worker does it does at its turn. -/
inductive Event
  /-- A worker makes its next step. -/
  | turn (worker : Nat)
  | pass (time : Span)
  | alarm
  | notice
  | lapse
  | join

variable {S : Signature} {σ γ : Type}

/-- A crew before anything has happened: a hand for each worker, with nothing in it. -/
def start (site : Site S σ γ) (config : PoolConfig) (template : Recorder) (signal : StopSignal)
    (state : σ) : Crew S σ γ where
  session := .start config template signal
  state
  hands := List.replicate config.concurrency { held := site.idle }

/-- The event that the result of an attempt is. -/
def eventOf (i : Nat) : Attempted Unit → Session.Event
  | .ok () => .answer i .success
  | .error (.error e) => .answer i (.ofError e)
  | .error (.crash _) => .crash i

/-- Lets an event happen to a worker, which takes the program of a new try in
hands if it is in one then. -/
def settle (attempt : Try → Task S Unit) (c : Crew S σ γ) (i : Nat) (held : γ)
    (e : Session.Event) : Crew S σ γ :=
  let session := c.session.step e
  { c with
    session := session
    hands := c.hands.set i
      { held := held, rest := (session.pool.current i).map fun t => (attempt t).run } }

/-- Has a request of a worker answered. The request and its reply are kept in the log. -/
def exchange (site : Site S σ γ) (c : Crew S σ γ) (i : Nat) (held : γ) (r : S.Request)
    (next : S.Reply r → Program S (Attempted Unit)) : Crew S σ γ :=
  let (state, held, fired, reply) := site.answer c.state held r
  { session := match fired with
      | some cause => c.session.step (.fire cause)
      | none => c.session
    state := state
    hands := c.hands.set i { held := held, rest := some (next reply) }
    log := c.log ++ [⟨r, reply⟩] }

/-- The next step of a worker: a request, or the result of its attempt, or the step
after a pause. -/
def turn (site : Site S σ γ) (attempt : Try → Task S Unit) (c : Crew S σ γ) (i : Nat) :
    Crew S σ γ :=
  match c.hands[i]? with
  | none => c
  | some hand => match hand.rest with
    | none => c.settle attempt i hand.held (.proceed i)
    | some (.done result) => c.settle attempt i hand.held (eventOf i result)
    | some (.ask r next) => c.exchange site i hand.held r next

/-- One event. After the report nothing happens, also at the site. -/
def step (site : Site S σ γ) (attempt : Try → Task S Unit) (c : Crew S σ γ) (e : Event) :
    Crew S σ γ :=
  if c.session.report?.isSome then c else match e with
    | .turn i => c.turn site attempt i
    | .pass time => { c with session := c.session.step (.pass time) }
    | .alarm => { c with session := c.session.step .alarm }
    | .notice => { c with session := c.session.step .notice }
    | .lapse => { c with session := c.session.step .lapse }
    | .join => { c with session := c.session.step .join }

/-- The events of a run, one after the other. -/
def run (site : Site S σ γ) (attempt : Try → Task S Unit) (c : Crew S σ γ)
    (events : List Event) : Crew S σ γ := events.foldl (step site attempt) c

variable {site : Site S σ γ} {attempt : Try → Task S Unit} {c : Crew S σ γ}

/-- A schedule in two parts is one after the other. -/
theorem run_append (c : Crew S σ γ) (first rest : List Event) :
    c.run site attempt (first ++ rest) = (c.run site attempt first).run site attempt rest :=
  List.foldl_append

/-! ### What an event can do -/

/-- What a worker without a request hands in at its turn: that it goes on, or
the result of its attempt. -/
def HandsIn (i : Nat) : Option (Program S (Attempted Unit)) → Session.Event → Prop
  | none, event => event = .proceed i
  | some (.done result), event => event = eventOf i result
  | some (.ask _ _), _ => False

/-- An event of a session that is nobody's: it fires the signal at most, and
for no other cause than the deadline. -/
def Idle (s : Session) (event : Session.Event) : Prop :=
  ∀ e, s.poolEvent? event = some e → e = .fire .deadlineReached

/-- What an event can do: nothing; something in the session that is nobody's;
an exchange with the site; or a step of a worker in the session. -/
theorem step_cases (site : Site S σ γ) (attempt : Try → Task S Unit) (c : Crew S σ γ)
    (e : Event) :
    c.step site attempt e = c ∨
    (∃ event, Idle c.session event ∧
      c.step site attempt e = { c with session := c.session.step event }) ∨
    (∃ i hand r next, c.hands[i]? = some hand ∧ hand.rest = some (.ask r next) ∧
      c.session.report? = none ∧ c.step site attempt e = c.exchange site i hand.held r next) ∨
    ∃ i hand event, c.hands[i]? = some hand ∧ HandsIn i hand.rest event ∧
      c.session.report? = none ∧ c.step site attempt e = c.settle attempt i hand.held event := by
  unfold step
  cases hreported : c.session.report? with
  | some report =>
      -- There is a report already.
      exact .inl rfl
  | none =>
      cases e with
      | pass time => exact .inr (.inl ⟨.pass time, nofun, rfl⟩)
      | notice => exact .inr (.inl ⟨.notice, nofun, rfl⟩)
      | lapse => exact .inr (.inl ⟨.lapse, nofun, rfl⟩)
      | join => exact .inr (.inl ⟨.join, nofun, rfl⟩)
      | alarm =>
          refine .inr (.inl ⟨.alarm, fun event hevent => ?_, rfl⟩)
          simp only [Session.poolEvent?] at hevent
          split at hevent
          · exact (Option.some.inj hevent).symm
          · cases hevent
      | turn i =>
          cases hhand : c.hands[i]? with
          | none =>
              left
              simp [turn, hhand]
          | some hand =>
              right; right
              cases hrest : hand.rest with
              | none =>
                  refine .inr ⟨i, hand, .proceed i, hhand, ?_, rfl, ?_⟩
                  · rw [hrest]
                    rfl
                  · simp [turn, hhand, hrest]
              | some program =>
                  cases program with
                  | done result =>
                      refine .inr ⟨i, hand, eventOf i result, hhand, ?_, rfl, ?_⟩
                      · rw [hrest]
                        rfl
                      · simp [turn, hhand, hrest]
                  | ask r next =>
                      refine .inl ⟨i, hand, r, next, hhand, hrest, rfl, ?_⟩
                      simp [turn, hhand, hrest]

/-- What a worker hands in is an event of the pool about that worker. -/
theorem HandsIn.poolEvent {i : Nat} {rest : Option (Program S (Attempted Unit))}
    {event : Session.Event} (h : HandsIn i rest event) (s : Session) :
    ∃ e, s.poolEvent? event = some e ∧ e.worker? = some i := by
  cases rest with
  | none =>
      obtain rfl : event = .proceed i := h
      exact ⟨_, rfl, rfl⟩
  | some program =>
      cases program with
      | ask r next => cases h
      | done result =>
          obtain rfl : event = eventOf i result := h
          match result with
          | .ok () | .error (.error _) | .error (.crash _) => exact ⟨_, rfl, rfl⟩

/-- The pool after a step of a worker. -/
theorem pool_step_of_open {s : Session} (hopen : s.report? = none) {event : Session.Event}
    {e : Pool.Event} (he : s.poolEvent? event = some e) : (s.step event).pool = s.pool.step e := by
  rw [Session.pool_step, hopen, he]
  rfl

/-- An event that is nobody's leaves the workers as they are. -/
theorem Idle.workers {s : Session} {event : Session.Event} (h : Idle s event) :
    (s.step event).pool.workers = s.pool.workers := by
  rw [Session.pool_step]
  split
  · rfl
  · cases he : s.poolEvent? event with
    | none => rfl
    | some e =>
        rw [h e he]
        rfl

/-- An event that is nobody's is observed as the deadline, if at all. -/
theorem Idle.notes {s : Session} {event : Session.Event} (h : Idle s event) {note : Note}
    (hnote : note ∈ s.notes event) : note = .fired .deadlineReached := by
  unfold Session.notes at hnote
  split at hnote
  · cases hnote
  · cases he : s.poolEvent? event with
    | none =>
        rw [he] at hnote
        cases hnote
    | some e =>
        rw [he, h e he] at hnote
        exact List.mem_singleton.mp hnote

/-- An exchange leaves the pool as it is, but for a signal that is fired. -/
theorem current_exchange (site : Site S σ γ) (c : Crew S σ γ) (hopen : c.session.report? = none)
    (i : Nat) (held : γ) (r : S.Request) (next : S.Reply r → Program S (Attempted Unit)) :
    (c.exchange site i held r next).session.pool = { c.session.pool with
      signal := (c.exchange site i held r next).session.pool.signal } := by
  rcases hanswer : site.answer c.state held r with ⟨state, held', fired, reply⟩
  simp only [exchange, hanswer]
  cases fired with
  | none => rfl
  | some cause =>
      have hpool : (c.session.step (.fire cause)).pool = c.session.pool.step (.fire cause) :=
        pool_step_of_open hopen rfl
      simp only [hpool]
      rfl

/-- A step of a crew is some steps of its session. -/
theorem session_step (site : Site S σ γ) (attempt : Try → Task S Unit) (c : Crew S σ γ)
    (e : Event) : ∃ events, (c.step site attempt e).session = c.session.run events := by
  rcases c.step_cases site attempt e with hstep | ⟨event, -, hstep⟩ |
    ⟨i, hand, r, next, -, -, -, hstep⟩ | ⟨i, hand, event, -, -, -, hstep⟩
  · exact ⟨[], by rw [hstep]; rfl⟩
  · exact ⟨[event], by rw [hstep]; rfl⟩
  · -- An exchange with the site is none, unless it fires the signal.
    rcases hanswer : site.answer c.state hand.held r with ⟨state, held, fired, reply⟩
    rw [hstep]
    simp only [exchange, hanswer]
    cases fired with
    | none => exact ⟨[], rfl⟩
    | some cause => exact ⟨[.fire cause], rfl⟩
  · exact ⟨[event], by rw [hstep]; rfl⟩

/-- The session of a crew is one that went through some events, so that what holds of
every session holds of it. -/
theorem session_run (site : Site S σ γ) (attempt : Try → Task S Unit) (c : Crew S σ γ)
    (schedule : List Event) :
    ∃ events, (c.run site attempt schedule).session = c.session.run events := by
  induction schedule generalizing c with
  | nil => exact ⟨[], rfl⟩
  | cons e rest ih =>
      obtain ⟨first, hfirst⟩ := c.session_step site attempt e
      obtain ⟨later, hlater⟩ := ih (c.step site attempt e)
      refine ⟨first ++ later, ?_⟩
      rw [Session.run_append, ← hfirst]
      exact hlater

/-- A worker has a program in hands just when it is in a try. -/
structure Staffed (c : Crew S σ γ) : Prop where
  length_eq : c.hands.length = c.session.pool.workers.length
  rest_eq : ∀ i hand, c.hands[i]? = some hand →
    hand.rest.isSome = (c.session.pool.current i).isSome

/-- At the beginning nobody is in a try, and nobody has a program. -/
theorem staffed_start (site : Site S σ γ) (config : PoolConfig) (template : Recorder)
    (signal : StopSignal) (state : σ) : Staffed (start site config template signal state) where
  length_eq := by
    simp [start, Session.start, Pool.make]
  rest_eq i hand hhand := by
    obtain ⟨hi, rfl⟩ := List.getElem?_eq_some_iff.mp hhand
    simp [start, Session.start, Pool.make, Pool.current, List.getElem?_replicate, Worker.current]

/-- A worker whose request is answered goes on with the rest of its program, in the same
try. -/
theorem Staffed.exchange (h : Staffed c) (site : Site S σ γ) (hopen : c.session.report? = none)
    {i : Nat} {hand : Hand S γ} (hhand : c.hands[i]? = some hand) {r : S.Request}
    {next : S.Reply r → Program S (Attempted Unit)} (hrest : hand.rest = some (.ask r next)) :
    Staffed (c.exchange site i hand.held r next) := by
  have hpool := current_exchange site c hopen i hand.held r next
  constructor
  · rw [hpool]
    exact (List.length_set ..).trans h.length_eq
  · intro j other hother
    rw [hpool]
    show other.rest.isSome = (c.session.pool.current j).isSome
    rcases getElem?_set_cases hother with ⟨rfl, rfl⟩ | ⟨-, hother⟩
    · rw [← h.rest_eq i hand hhand, hrest]
      rfl
    · exact h.rest_eq j other hother

/-- A worker that hands in is in a new try with a new program, or in none without one. -/
theorem Staffed.settle (h : Staffed c) (attempt : Try → Task S Unit)
    (hopen : c.session.report? = none) {i : Nat} {hand : Hand S γ} {event : Session.Event}
    (hevent : HandsIn i hand.rest event) : Staffed (c.settle attempt i hand.held event) := by
  obtain ⟨e, he, hworker⟩ := hevent.poolEvent c.session
  have hpool := pool_step_of_open hopen he
  constructor
  · show (c.hands.set i _).length = (c.session.step event).pool.workers.length
    rw [hpool, Pool.length_step, List.length_set]
    exact h.length_eq
  · intro j other hother
    show other.rest.isSome = ((c.session.step event).pool.current j).isSome
    rcases getElem?_set_cases hother with ⟨rfl, rfl⟩ | ⟨hj, hother⟩
    · -- The worker has the program of the try that it is in after the step.
      exact Option.isSome_map
    · have hne : e.worker? ≠ some j := by
        rw [hworker]
        intro hsame
        exact hj (Option.some.inj hsame)
      rw [hpool, Pool.current_step_of_ne hne]
      exact h.rest_eq j other hother

/-- Any event keeps hands and workers together. -/
theorem Staffed.step (h : Staffed c) (site : Site S σ γ) (attempt : Try → Task S Unit)
    (e : Event) : Staffed (c.step site attempt e) := by
  rcases c.step_cases site attempt e with hstep | ⟨event, hidle, hstep⟩ |
    ⟨i, hand, r, next, hhand, hrest, hopen, hstep⟩ | ⟨i, hand, event, hhand, hin, hopen, hstep⟩ <;>
    rw [hstep]
  · exact h
  · constructor
    · rw [hidle.workers]
      exact h.length_eq
    · intro i hand hhand
      rw [Pool.current, hidle.workers]
      exact h.rest_eq i hand hhand
  · exact h.exchange site hopen hhand hrest
  · exact h.settle attempt hopen hin

/-! ### What is observed of a worker that hands in -/

/-- Whether all that is left of an attempt is to hand in its success. -/
def succeeds : Program S (Attempted Unit) → Bool
  | .done (.ok ()) => true
  | _ => false

/-- A worker that hands in is in a try just when it has a result. -/
theorem HandsIn.current {i : Nat} {hand : Hand S γ} {event : Session.Event}
    (h : HandsIn i hand.rest event) (hstaffed : Staffed c) (hhand : c.hands[i]? = some hand) :
    (event = .proceed i ∧ hand.rest = none) ∨
    ∃ result t, hand.rest = some (.done result) ∧ event = eventOf i result ∧
      c.session.pool.current i = some t := by
  have hrest := hstaffed.rest_eq i hand hhand
  match hcase : hand.rest, h with
  | none, h => exact .inl ⟨h, rfl⟩
  | some (.done result), h =>
      rw [hcase, Option.isSome_some] at hrest
      obtain ⟨t, ht⟩ := Option.isSome_iff_exists.mp hrest.symm
      exact .inr ⟨result, t, rfl, h, ht⟩

/-- What is observed of a worker that hands in: first what its call came to,
then at most that another begins. -/
theorem HandsIn.notes {i : Nat} {hand : Hand S γ} {event : Session.Event}
    (h : HandsIn i hand.rest event) (hopen : c.session.report? = none) :
    ∃ e before after, c.session.poolEvent? event = some e ∧
      c.session.notes event = c.session.pool.ended e ++ Pool.begun before after := by
  rw [Session.notes, hopen]
  generalize hand.rest = rest at h
  cases rest with
  | none =>
      obtain rfl : event = .proceed i := h
      exact ⟨_, _, _, rfl, rfl⟩
  | some program =>
      cases program with
      | ask r next => cases h
      | done result =>
          obtain rfl : event = eventOf i result := h
          obtain (e | x) | ok := result <;> exact ⟨_, _, _, rfl, rfl⟩

/-- A worker that hands in a success is observed to return one, and no other
worker is. -/
theorem HandsIn.countP_success {i : Nat} {hand : Hand S γ} {event : Session.Event}
    (h : HandsIn i hand.rest event) (hstaffed : Staffed c) (hhand : c.hands[i]? = some hand)
    (hopen : c.session.report? = none) :
    (c.session.notes event).countP (Note.returns .success)
      = (hand.rest.any succeeds).toNat := by
  obtain ⟨e, before, after, he, hnotes⟩ := h.notes hopen
  have hbegun : (Pool.begun before after).countP (Note.returns .success) = 0 := by
    unfold Pool.begun
    split
    · split <;> rfl
    · rfl
  rw [hnotes, List.countP_append, hbegun, Nat.add_zero]
  -- So what counts is what ended: nothing where the worker goes on, its call otherwise.
  rcases h.current hstaffed hhand with ⟨rfl, hrest⟩ | ⟨result, t, hrest, rfl, ht⟩
  · cases he
    rw [hrest]
    rfl
  · rw [hrest]
    match result with
    | .ok () =>
        cases he
        simp only [Pool.ended, ht]
        rfl
    | .error (.error failure) =>
        cases he
        simp only [Pool.ended, ht]
        cases failure <;> rfl
    | .error (.crash x) =>
        cases he
        simp only [Pool.ended, ht]
        rfl

/-- A worker that hands in a result fires the signal only with the end of the workload. -/
theorem HandsIn.terminal {i : Nat} {hand : Hand S γ} {event : Session.Event} {cause : StopCause}
    (h : HandsIn i hand.rest event) (hstaffed : Staffed c) (hhand : c.hands[i]? = some hand)
    (hopen : c.session.report? = none) (hfired : .fired cause ∈ c.session.notes event) :
    ∃ e, hand.rest = some (.done (.error (.error e))) ∧ Status.ofError e = .terminal := by
  obtain ⟨e, before, after, he, hnotes⟩ := h.notes hopen
  have hbegun : .fired cause ∉ Pool.begun before after := by
    unfold Pool.begun
    split
    · split <;> simp
    · simp
  rw [hnotes, List.mem_append, or_iff_left hbegun] at hfired
  -- It was fired with the end of a call, which only the end of the workload does.
  rcases h.current hstaffed hhand with ⟨rfl, hrest⟩ | ⟨result, t, hrest, rfl, ht⟩
  · cases he
    cases hfired
  · match result with
    | .ok () =>
        cases he
        simp [Pool.ended, ht] at hfired
    | .error (.error failure) =>
        cases he
        simp only [Pool.ended, ht, List.mem_cons, reduceCtorEq, false_or] at hfired
        split at hfired
        · rename_i hterminal
          exact ⟨failure, hrest, hterminal⟩
        · cases hfired
    | .error (.crash x) =>
        cases he
        simp [Pool.ended, ht] at hfired

end Crew

end StoreBench
