import StoreBench.Proofs.Load.Phases

/-!
# `StoreBench.Proofs.Load.Rehearsal`: a rehearsal is one of the ways

A rehearsal plays the workers of a pool in one order, under virtual time. Each
of its steps is a step of a crew, or some time that passes, or nothing that a
crew would notice (`Follows.step`). So what is shown for crews in every order
holds for rehearsals (`Follows.run`), and a run of the phases whose attempts
are rehearsed to their end is one of those that `Runner.Passes` allows
(`plays_plan`).
-/

set_option autoImplicit false

namespace StoreBench

/-- A step of a worker in a session, or a signal from outside, changes the pool
and nothing else. -/
theorem Session.step_of_poolEvent {s : Session} (hopen : s.report? = none) {event : Session.Event}
    {e : Pool.Event} (he : s.poolEvent? event = some e) (halarm : event ≠ .alarm) :
    s.step event = { s with pool := s.pool.step e } := by
  have hstep : s.step event = _ := if_neg (Option.not_isSome_iff_eq_none.mpr hopen)
  rw [hstep]
  cases event with
  | proceed | answer | crash | fire =>
      cases he
      rfl
  | alarm => exact absurd rfl halarm
  | pass | notice | lapse | join => cases he

namespace Rehearsal

variable {S : Signature} {σ γ : Type}

/-- A hand without the mark of its delay. -/
def unmarked (hand : Hand S γ) : Hand S γ := { hand with waited := false }

/-- A crew that is where a rehearsal is. Nobody in the rehearsal waits for a
time that is over. -/
structure Follows (r : Rehearsal S σ γ) (c : Crew S σ γ) : Prop where
  pool : c.session.pool = r.pool
  now : c.session.now = r.now
  timer : c.session.timer = r.deadline
  watch : c.session.watch = .either
  state : c.state = r.state
  hands : c.hands = r.hands.map unmarked
  ahead : ∀ entry ∈ r.waiting, r.now.nanos ≤ entry.1.nanos

variable {site : Site S σ γ} {attempt : Try → Task S Unit} {r : Rehearsal S σ γ}
  {c : Crew S σ γ}

/-- At the beginning a rehearsal and a crew are in the same state. -/
theorem follows_make (site : Site S σ γ) (config : PoolConfig) (template : Recorder)
    (signal : StopSignal) (state : σ) :
    Follows (make site config template signal state)
      (Crew.start site config template signal state) where
  pool := rfl
  now := rfl
  timer := rfl
  watch := rfl
  state := rfl
  hands := by
    rw [make, List.map_replicate]
    rfl
  ahead := nofun

/-- A crew that is followed has no report as yet, as a rehearsal only follows one that
goes on. -/
theorem Follows.open (h : Follows r c) : c.session.report? = none := by
  rw [Session.report?, h.watch]

/-- The session of the crew is not over, so its steps change something. -/
theorem Follows.not_reported (h : Follows r c) : ¬ c.session.report?.isSome :=
  Option.not_isSome_iff_eq_none.mpr h.open

/-! ### The pool -/

/-- An event changes the pool; of those who wait, some may be woken. -/
theorem withPool_eq (r : Rehearsal S σ γ) (e : Pool.Event) :
    ∃ waiting queue, r.withPool e
        = { r with pool := r.pool.step e, waiting := waiting, queue := queue } ∧
      ∀ entry ∈ waiting, entry ∈ r.waiting := by
  simp only [withPool, List.partition_eq_filter_filter]
  split
  · exact ⟨_, _, rfl, fun entry hentry => (List.mem_filter.mp hentry).1⟩
  · exact ⟨_, _, rfl, fun _ hentry => hentry⟩

/-- The pool of a crew goes with that of the rehearsal. -/
theorem Follows.withPool (h : Follows r c) (e : Pool.Event) {session : Session}
    (hsession : session = { c.session with pool := c.session.pool.step e }) :
    Follows (r.withPool e) { c with session := session } := by
  obtain ⟨waiting, queue, he, hwaiting⟩ := r.withPool_eq e
  rw [he, hsession]
  exact ⟨congrArg (·.step e) h.pool, h.now, h.timer, h.watch, h.state, h.hands,
    fun entry hentry => h.ahead entry (hwaiting entry hentry)⟩

/-- What a step of a worker in the pool comes to. -/
theorem settle_eq (attempt : Try → Task S Unit) (r : Rehearsal S σ γ) (i : Nat) (held : γ)
    (e : Pool.Event) :
    ∃ waiting queue, r.settle attempt i held e = { r with
        pool := r.pool.step e
        hands := r.hands.set i
          { held := held, rest := ((r.pool.step e).current i).map fun t => (attempt t).run }
        waiting := waiting
        queue := queue } ∧
      ∀ entry ∈ waiting, entry ∈ r.waiting ∨ r.now.nanos ≤ entry.1.nanos := by
  obtain ⟨waiting, queue, he, hwaiting⟩ :=
    ({ r with hands := r.hands.set i { held := held } } : Rehearsal S σ γ).withPool_eq e
  have hkept : ∀ entry ∈ waiting, entry ∈ r.waiting ∨ r.now.nanos ≤ entry.1.nanos :=
    fun entry hentry => .inl (hwaiting entry hentry)
  simp only [settle, he, Pool.current]
  -- Where the worker goes next shows in the queue and in who waits, which a crew has not.
  cases hworker : (r.pool.step e).workers[i]? with
  | none => exact ⟨_, _, rfl, hkept⟩
  | some w =>
      simp only [Option.bind_some, Worker.current]
      cases hphase : w.phase with
      | trying retry =>
          simp only [List.set_set]
          exact ⟨_, _, rfl, hkept⟩
      | resting retry =>
          refine ⟨_, _, rfl, ?_⟩
          intro entry hentry
          rcases List.mem_append.mp hentry with hold | hnew
          · exact hkept entry hold
          · obtain rfl := List.mem_singleton.mp hnew
            exact .inr (Nat.le_add_right _ _)
      | ready | left | crashed => exact ⟨_, _, rfl, hkept⟩

/-- A worker of a crew hands in what the worker of the rehearsal does. -/
theorem Follows.settle (h : Follows r c) (attempt : Try → Task S Unit) (i : Nat) (held : γ)
    {event : Session.Event} {e : Pool.Event} (he : c.session.poolEvent? event = some e)
    (halarm : event ≠ .alarm) :
    Follows (r.settle attempt i held e) (c.settle attempt i held event) := by
  obtain ⟨waiting, queue, hsettle, hwaiting⟩ := r.settle_eq attempt i held e
  have hsession := Session.step_of_poolEvent h.open he halarm
  rw [hsettle, Crew.settle, hsession, h.pool]
  refine ⟨rfl, h.now, h.timer, h.watch, h.state, ?_, ?_⟩
  · rw [h.hands, List.map_set]
    rfl
  · intro entry hentry
    exact (hwaiting entry hentry).elim (h.ahead entry) id

/-- A signal that is fired at the site is fired in the session of the crew. -/
theorem Follows.fire (h : Follows r c) (cause : StopCause) :
    Follows (r.withPool (.fire cause)) { c with session := c.session.step (.fire cause) } := by
  refine h.withPool (.fire cause) (Session.step_of_poolEvent h.open rfl ?_)
  rintro ⟨⟩

/-! ### The hands -/

/-- A request that is answered leaves the same behind in both: the state of the
site, and the worker's hand. -/
theorem Follows.reply (h : Follows r c) (state : σ) (i : Nat) (hand : Hand S γ)
    (hmark : hand.waited = false) (entry : (request : S.Request) × S.Reply request) :
    Follows { r with state := state, hands := r.hands.set i hand }
      { c with state := state, hands := c.hands.set i hand, log := c.log ++ [entry] } := by
  refine ⟨h.pool, h.now, h.timer, h.watch, rfl, ?_, h.ahead⟩
  have hunmarked : unmarked hand = hand := by
    rw [unmarked, ← hmark]
  show c.hands.set i hand = (r.hands.set i hand).map unmarked
  rw [h.hands, List.map_set, hunmarked]

/-- A worker that waits for its delay keeps what it has in hands, but for the
mark. -/
theorem Follows.wait (h : Follows r c) {i : Nat} {hand : Hand S γ}
    (hhand : r.hands[i]? = some hand) (delay : Span) :
    Follows ({ r with hands := r.hands.set i { hand with waited := true } }.wait i delay) c := by
  refine ⟨h.pool, h.now, h.timer, h.watch, h.state, ?_, ?_⟩
  · have hmapped : (r.hands.map unmarked)[i]? = some (unmarked hand) := by
      rw [List.getElem?_map, hhand]
      rfl
    obtain ⟨hi, hsame⟩ := List.getElem?_eq_some_iff.mp hmapped
    have hset := List.set_getElem_self hi
    rw [hsame] at hset
    show c.hands = (r.hands.set i _).map unmarked
    rw [List.map_set, h.hands]
    exact hset.symm
  · intro entry hentry
    rcases List.mem_append.mp hentry with hold | hnew
    · exact h.ahead entry hold
    · -- The time that the worker waits for is the delay from now.
      obtain rfl := List.mem_singleton.mp hnew
      exact Nat.le_add_right _ _

/-- The next step of a worker is one of the crew, or is not noticed. -/
theorem Follows.advance (h : Follows r c) (site : Site S σ γ) (attempt : Try → Task S Unit)
    (i : Nat) : ∃ events, Follows (r.advance site attempt i) (c.run site attempt events) := by
  have hhands : c.hands[i]? = (r.hands[i]?).map unmarked := by
    rw [h.hands, List.getElem?_map]
  cases hhand : r.hands[i]? with
  | none =>
      simp only [Rehearsal.advance, hhand]
      exact ⟨[], h.pool, h.now, h.timer, h.watch, h.state, h.hands, h.ahead⟩
  | some hand =>
      rw [hhand] at hhands
      have hturn : c.run site attempt [.turn i] = c.turn site attempt i :=
        if_neg h.not_reported
      obtain ⟨held, rest, waited⟩ := hand
      obtain _ | result | ⟨request, next⟩ := rest
      · -- Between two calls.
        refine ⟨[.turn i], ?_⟩
        simp only [hturn, Rehearsal.advance, Crew.turn, hhand, hhands, Option.map_some, unmarked]
        exact h.settle attempt i held (by rw [← h.now]; rfl) (by rintro ⟨⟩)
      · -- At the end of a try.
        refine ⟨[.turn i], ?_⟩
        simp only [hturn, Rehearsal.advance, Crew.turn, hhand, hhands, Option.map_some, unmarked]
        obtain (e | x) | ok := result
        · exact h.settle attempt i held (by rw [← h.now]; rfl) (by rintro ⟨⟩)
        · exact h.settle attempt i held rfl (by rintro ⟨⟩)
        · exact h.settle attempt i held (by rw [← h.now]; rfl) (by rintro ⟨⟩)
      · -- At a request.
        simp only [Rehearsal.advance, hhand]
        split
        · -- The delay is over.
          rcases hanswer : site.answer r.state held request with ⟨state, held', fired, reply⟩
          refine ⟨[.turn i], ?_⟩
          simp only [hturn, Crew.turn, hhands, Option.map_some, unmarked, Crew.exchange, h.state,
            hanswer]
          have hreply := h.reply state i { held := held', rest := some (next reply) } rfl
            ⟨request, reply⟩
          cases fired with
          | none => exact hreply
          | some cause => exact hreply.fire cause
        · -- The delay begins, of which the crew knows nothing.
          exact ⟨[], h.wait hhand _⟩

/-! ### Steps -/

/-- The earliest time that somebody waits for is one of those. -/
theorem earliest_mem {waiting : List (Span × Nat)} {time : Span}
    (h : earliest waiting = some time) : ∃ i, (time, i) ∈ waiting := by
  induction waiting generalizing time with
  | nil => cases h
  | cons entry rest ih =>
      obtain ⟨first, i⟩ := entry
      simp only [earliest] at h
      split at h
      · rename_i other hother
        split at h
        · obtain ⟨j, hj⟩ := ih (hother.trans h)
          exact ⟨j, List.mem_cons_of_mem _ hj⟩
        · cases h
          exact ⟨i, List.mem_cons_self⟩
      · cases h
        exact ⟨i, List.mem_cons_self⟩

/-- Time that passes in the rehearsal passes for the crew. -/
theorem Follows.passTo (h : Follows r c) (site : Site S σ γ) (attempt : Try → Task S Unit)
    {time : Span} (hle : r.now.nanos ≤ time.nanos) :
    Follows (r.passTo time) (c.run site attempt [.pass ⟨time.nanos - r.now.nanos⟩]) := by
  have hpass : c.run site attempt [.pass ⟨time.nanos - r.now.nanos⟩] = _ :=
    if_neg h.not_reported
  have hsession : c.session.step (.pass ⟨time.nanos - r.now.nanos⟩)
      = { c.session with now := time } := by
    have hstep : c.session.step (.pass ⟨time.nanos - r.now.nanos⟩) = _ :=
      if_neg h.not_reported
    have hnow : c.session.now.nanos + (time.nanos - r.now.nanos) = time.nanos := by
      rw [h.now]
      omega
    rw [hstep]
    simp only [hnow]
    rfl
  simp only [hpass, hsession, Rehearsal.passTo, List.partition_eq_filter_filter]
  refine ⟨h.pool, rfl, h.timer, h.watch, h.state, h.hands, ?_⟩
  intro entry hentry
  have hlater := (List.mem_filter.mp hentry).2
  simp only [Function.comp_apply, Bool.not_eq_true', decide_eq_false_iff_not] at hlater
  exact Nat.le_of_not_le hlater

/-- A deadline that is due is one that is no later. -/
theorem due_eq_some {time deadline : Span} (h : r.due time = some deadline) :
    r.deadline = some deadline ∧ deadline.nanos ≤ time.nanos := by
  have hfilter := Option.filter_eq_some_iff.mp h
  exact ⟨hfilter.1, of_decide_eq_true hfilter.2⟩

/-- A deadline that is due goes off for the crew as well. -/
theorem Follows.alarm (h : Follows r c) (site : Site S σ γ) (attempt : Try → Task S Unit)
    {deadline : Span} (hdue : r.due r.now = some deadline) :
    Follows ({ r with deadline := none }.withPool (.fire .deadlineReached))
      (c.run site attempt [.alarm]) := by
  obtain ⟨htimer, hle⟩ := due_eq_some hdue
  have halarm : c.run site attempt [.alarm] = _ := if_neg h.not_reported
  have hisDue : c.session.isDue = true := by
    rw [Session.isDue, h.timer, htimer, h.now]
    exact decide_eq_true hle
  have hsession : c.session.step .alarm = { c.session with
      pool := c.session.pool.step (.fire .deadlineReached), timer := none } := by
    have hstep : c.session.step .alarm = _ := if_neg h.not_reported
    rw [hstep]
    simp only [Session.poolEvent?, hisDue, if_true]
    rfl
  have hoff : Follows { r with deadline := none }
      { c with session := { c.session with timer := none } } :=
    ⟨h.pool, h.now, rfl, h.watch, h.state, h.hands, h.ahead⟩
  rw [halarm]
  exact hoff.withPool (.fire .deadlineReached) hsession

/-- A step of the rehearsal is a step of the crew, or is not noticed. -/
theorem Follows.step (h : Follows r c) (site : Site S σ γ) (attempt : Try → Task S Unit)
    {next : Rehearsal S σ γ} (hstep : r.step site attempt = some next) :
    ∃ events, Follows next (c.run site attempt events) := by
  unfold Rehearsal.step at hstep
  split at hstep
  · -- The deadline goes first, then the head of the queue, then time passes.
    rename_i deadline hdue
    cases hstep
    exact ⟨[.alarm], h.alarm site attempt hdue⟩
  · cases hstep
    exact h.advance site attempt _
  · rename_i hnotDue hqueue
    obtain ⟨time, hearliest, rfl⟩ := Option.map_eq_some_iff.mp hstep
    obtain ⟨i, hi⟩ := earliest_mem hearliest
    refine ⟨_, h.passTo site attempt ?_⟩
    cases hdue : r.due time with
    | none => exact h.ahead _ hi
    | some deadline =>
        -- The deadline was not due before, so it is later than now.
        obtain ⟨htimer, -⟩ := due_eq_some hdue
        rw [Rehearsal.due, htimer] at hnotDue
        have hlate := Option.filter_eq_none_iff.mp hnotDue deadline rfl
        simp only [decide_eq_true_eq] at hlate
        exact Nat.le_of_not_le hlate

/-- What a rehearsal does, a crew can do. -/
theorem Follows.run (h : Follows r c) (site : Site S σ γ) (attempt : Try → Task S Unit)
    (fuel : Nat) :
    ∃ events, Follows (Rehearsal.run site attempt fuel r) (c.run site attempt events) := by
  induction fuel generalizing r c with
  | zero => exact ⟨[], h⟩
  | succ fuel ih =>
      rw [Rehearsal.run]
      cases hstep : r.step site attempt with
      | none => exact ⟨[], h⟩
      | some next =>
          obtain ⟨first, hnext⟩ := h.step site attempt hstep
          obtain ⟨rest, hrest⟩ := ih hnext
          exact ⟨first ++ rest, by rwa [Crew.run_append]⟩

/-- When every worker has ended, the wait for the crew is over. -/
theorem Follows.join (h : Follows r c) (site : Site S σ γ) (attempt : Try → Task S Unit)
    (hover : r.pool.isOver = true) :
    (c.run site attempt [.join]).session.report? = some (.ofPool r.pool r.now) ∧
      (c.run site attempt [.join]).state = r.state := by
  have hjoin : c.run site attempt [.join] = { c with session := c.session.step .join } :=
    if_neg h.not_reported
  have hstep : c.session.step .join = _ := if_neg h.not_reported
  have hwatch : c.session.attend .join = .over (.ofPool r.pool r.now) := by
    rw [← h.pool, ← h.now]
    exact if_pos (h.pool ▸ hover)
  rw [hjoin]
  refine ⟨?_, h.state⟩
  rw [Session.report?_eq_some, hstep]
  exact hwatch

end Rehearsal

namespace Runner

variable {S : Signature} {σ γ : Type}

/-- Attempts that are rehearsed to their end are one of the ways. -/
theorem passes_attempts (site : Site S σ γ) (w : Workload S) (fuel : Nat) (config : PoolConfig)
    (template : Recorder) (state : σ)
    (hover : (Rehearsal.run site w.attempt fuel
      (Rehearsal.make site config template {} state)).pool.isOver = true) :
    Passes site w state (.attempts config template)
      (Rehearsal.perform site w.attempt fuel config template {} state).2
      (Rehearsal.perform site w.attempt fuel config template {} state).1 := by
  obtain ⟨events, hend⟩ := (Rehearsal.follows_make site config template {} state).run site
    w.attempt fuel
  -- A run takes some time, so the crew waits for that before it reports.
  have hlast := (hend.passTo site w.attempt (Nat.le_max_left _ Rehearsal.tick.nanos)).join site
    w.attempt hover
  rw [← Crew.run_append, ← Crew.run_append] at hlast
  exact ⟨_, hlast⟩

/-- A run whose attempts are rehearsed to their end is one of those that may
come of its plan. -/
theorem plays_plan (site : Site S σ γ) (w : Workload S) (fuel : Nat) (engine : EngineConfig)
    (size : RunConfig) (state : σ)
    (hover : ∀ template prepared, Recorder.make engine.latency = .ok template →
      site.run state w.setup.run = (prepared, .ok ()) →
      (Rehearsal.run site w.attempt fuel (Rehearsal.make site
        (poolConfig engine w.retryPolicy size) template {} prepared)).pool.isOver = true) :
    Program.Plays (Passes site w) (stage site w fuel) state
      (plan engine w.retryPolicy size).run := by
  rw [plan_run]
  split
  · exact Program.plays_done _ _
  cases hmake : Recorder.make engine.latency with
  | error e => exact Program.plays_done _ _
  | ok template =>
      refine Program.plays_ask rfl ?_
      rcases hsetup : site.run state w.setup.run with ⟨prepared, reply⟩
      simp only [stage, hsetup]
      match reply with
      | .error (.error e) => exact Program.plays_done _ _
      | .error (.crash x) => exact Program.plays_done _ _
      | .ok () =>
          -- The attempts are those of a crew that has done what the rehearsal did.
          have hworked := passes_attempts site w fuel (poolConfig engine w.retryPolicy size)
            template prepared (hover template prepared hmake hsetup)
          refine Program.plays_ask hworked ?_
          refine Program.plays_ask rfl ?_
          dsimp only
          cases integrity _ with
          | error c => exact Program.plays_done _ _
          | ok sound =>
              refine Program.plays_ask rfl ?_
              dsimp only
              cases tolerate _ with
              | error c => exact Program.plays_done _ _
              | ok tolerated => exact Program.plays_done _ _

/-- So where such a run gives a report, this is a report that its plan may come to. -/
theorem passes_of_report (site : Site S σ γ) (w : Workload S) (fuel : Nat)
    (engine : EngineConfig) (size : RunConfig) (state : σ)
    (hover : ∀ template prepared, Recorder.make engine.latency = .ok template →
      site.run state w.setup.run = (prepared, .ok ()) →
      (Rehearsal.run site w.attempt fuel (Rehearsal.make site
        (poolConfig engine w.retryPolicy size) template {} prepared)).pool.isOver = true)
    {report : Report} (hreport : (run site w fuel engine size state).2.toOption = some report) :
    (run site w fuel engine size state).2 = .ok report ∧
      ∃ passed after, Program.Passes (Passes site w) state
        (plan engine w.retryPolicy size).run passed after (.ok report) := by
  obtain ⟨passed, hpasses⟩ := plays_plan site w fuel engine size state hover
  change Program.Passes _ _ _ _ _ (run site w fuel engine size state).2 at hpasses
  cases hresult : (run site w fuel engine size state).2 with
  | error failure =>
      rw [hresult] at hreport
      cases hreport
  | ok other =>
      rw [hresult] at hreport hpasses
      cases hreport
      exact ⟨rfl, passed, _, hpasses⟩

end Runner

end StoreBench
