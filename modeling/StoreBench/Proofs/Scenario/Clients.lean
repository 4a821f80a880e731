import StoreBench.Proofs.Load.Crew
import StoreBench.Proofs.Load.Rehearsal
import StoreBench.Proofs.Load.Stopping
import StoreBench.Proofs.Scenario.Conduct

/-!
# `StoreBench.Proofs.Scenario.Clients`: what many clients keep up together

Any number of clients run the attempts of one workload, with their requests
mixed in any order. What they do to the store is stated once, of one request:
an `Upkeep` is a conduct of the attempts together with what holds of the world
and of the points at which the clients are, and each request that the conduct
allows keeps it. `Kept` is the invariant that follows, with two accounts beside
it: so many commits succeeded, by the log of the requests, and so many successes
are handed in, by that of the pool.

`Kept.run` leads through a whole run. `Upkeep.shared_run` reads off it what holds at
every moment, and `Upkeep.passes_plan` what holds once there is a report.
-/

set_option autoImplicit false

namespace StoreBench.Scenario

/-- Clients of the built-in store at work, each with the transaction that it holds. -/
abbrev Clients := Crew requests (World Server) (Option Transaction)

namespace Clients

/-- How many attempts succeeded so far, by the tallies of the workers. -/
def successes (c : Clients) : Nat := (c.session.pool.workers.map fun w => w.tally.operations).sum

/-- How many commits succeeded so far, by the log of requests and replies. -/
def commits (c : Clients) : Nat := c.log.countP isCommit

/-- Nobody is in an attempt, so that nothing is half done. -/
def Quiet (c : Clients) : Prop := ∀ hand ∈ c.hands, hand.rest = none

variable {c : Clients} {attempt : Try → Task Unit}

/-- An exchange changes the world and one hand, and adds itself to the log. -/
theorem exchange_eq {after : World Server} {held held' : Option Transaction} {r : Request}
    {reply : r.Reply} (hanswer : c.state.answer held r = (after, held', reply)) (i : Nat)
    (next : r.Reply → Program requests (Attempted Unit)) :
    c.exchange World.site i held r next = { c with
      state := after
      hands := c.hands.set i { held := held', rest := some (next reply) }
      log := c.log ++ [⟨r, reply⟩] } := by
  simp only [Crew.exchange, World.site, hanswer]

/-- An exchange counts as a commit where it is one that succeeded. -/
theorem commits_exchange {after : World Server} {held held' : Option Transaction} {r : Request}
    {reply : r.Reply} (hanswer : c.state.answer held r = (after, held', reply)) (i : Nat)
    (next : r.Reply → Program requests (Attempted Unit)) :
    commits (c.exchange World.site i held r next) = c.commits + (isCommit ⟨r, reply⟩).toNat := by
  rw [exchange_eq hanswer, commits, commits, List.countP_append, List.countP_singleton]
  cases isCommit ⟨r, reply⟩ <;> rfl

/-- The clients neither connect the store nor close it, as no attempt asks for either. -/
theorem connected_run (schedule : List Crew.Event) :
    (c.run World.site attempt schedule).state.driver.connected = c.state.driver.connected := by
  induction schedule generalizing c with
  | nil => rfl
  | cons e rest ih =>
      refine (ih (c := c.step World.site attempt e)).trans ?_
      rcases c.step_cases World.site attempt e with
        hstep | ⟨event, -, hstep⟩ | ⟨i, hand, r, next, -, -, -, hstep⟩ |
        ⟨i, hand, event, -, -, -, hstep⟩ <;> rw [hstep]
      · -- Only an exchange changes the world at all.
        rcases hanswer : c.state.answer hand.held r with ⟨after, held, reply⟩
        rw [exchange_eq hanswer]
        have hsame := connected_answer c.state hand.held r
        rwa [hanswer] at hsame
      · rfl

/-- Once all have ended nobody is in an attempt: who has ended has nothing in hand. -/
theorem quiet_of_isOver (h : c.Staffed) (hover : c.session.pool.isOver = true) : c.Quiet := by
  intro hand hhand
  obtain ⟨i, hi, rfl⟩ := List.getElem_of_mem hhand
  have hrest := h.rest_eq i _ (List.getElem?_eq_getElem hi)
  -- A worker that has ended is in no try, so its hand is empty.
  rw [Pool.current_of_over fun w hw =>
    List.all_eq_true.mp hover w (List.mem_of_getElem? hw)] at hrest
  exact Option.isNone_iff_eq_none.mp (Option.isSome_eq_false_iff.mp hrest)

end Clients

/-- Only an exhausted resource ends a workload, among all the errors that an attempt may
come to. -/
theorem isExhausted_of_terminal {e : BenchError} (h : Status.ofError e = .terminal) :
    e.isExhausted = true := by
  cases e with
  | exhausted resource => rfl
  | _ => cases h

/-! ### What a workload keeps up -/

/-- The clients of a workload keep to a conduct, and thereby keep up what they
share. -/
structure Upkeep (G : Type) (attempt : Try → Task Unit) extends Conduct G where
  /-- What holds of the world where the clients are at these points, so many commits
  succeeded, and so many successes are handed in. -/
  Shared : World Server → List G → (commits successes : Nat) → Prop
  /-- What holds of the world from the end of the workload on. -/
  Spent : World Server → Prop
  meets_attempt : ∀ t, toConduct.Meets (fun g _ result => ends g result) start none (attempt t).run
  /-- What a client may ask keeps up what is shared. -/
  shared_exchange : ∀ {w after : World Server} {minds : List G} {commits successes i : Nat}
    {g : G} {known : Standing} {held held' : Option Transaction} {r : Request} {reply : r.Reply},
    Shared w minds commits successes → minds[i]? = some g → asks g known r →
    Holds w.driver.store held known → w.answer held r = (after, held', reply) →
    Shared after (minds.set i (next g r reply)) (commits + (isCommit ⟨r, reply⟩).toNat)
      successes ∧ (Spent w → Spent after)
  /-- So does a client that hands in a success. -/
  shared_ok : ∀ {w : World Server} {minds : List G} {commits successes i : Nat} {g : G},
    Shared w minds commits successes → minds[i]? = some g → ends g (.ok ()) →
    Shared w (minds.set i start) commits (successes + 1)
  /-- So does a client that failed. -/
  shared_error : ∀ {w : World Server} {minds : List G} {commits successes i : Nat} {g : G}
    {failure : Failure}, Shared w minds commits successes → minds[i]? = some g →
    ends g (.error failure) → Shared w (minds.set i start) commits successes
  /-- An attempt meets the end of the workload only where it is spent. -/
  spent_of_terminal : ∀ {w : World Server} {minds : List G} {commits successes i : Nat} {g : G}
    {e : BenchError}, Shared w minds commits successes → minds[i]? = some g →
    ends g (.error (.error e)) → Status.ofError e = .terminal → Spent w

/-- A client is at a point of its conduct: at the beginning between its
attempts, and else where its program goes on from. -/
structure Conduct.At {G : Type} (c : Conduct G) (s : Store) (g : G)
    (hand : Hand requests (Option Transaction)) : Prop where
  idle : hand.rest = none → g = c.start
  busy : ∀ p, hand.rest = some p → ∃ known, Holds s hand.held known ∧
    c.Meets (fun g _ result => c.ends g result) g known p

/-- Whatever others do to the store, a client stays where it is. -/
theorem Conduct.At.since {G : Type} {c : Conduct G} {s t : Store} {g : G}
    {hand : Hand requests (Option Transaction)} (h : c.At s g hand) (hst : s.Since t) :
    c.At t g hand where
  idle := h.idle
  busy p hp := by
    obtain ⟨known, hholds, hmeets⟩ := h.busy p hp
    exact ⟨known, hholds.since hst, hmeets⟩

variable {G : Type} {attempt : Try → Task Unit}

/-- The invariant of clients that keep something up: each is at its point, and
what is shared holds of the world with the commits in the log and the successes
that were observed. -/
structure Kept (u : Upkeep G attempt) (config : PoolConfig) (template : Recorder) (c : Clients)
    (minds : List G) (events : List Session.Event) : Prop where
  staffed : c.Staffed
  sound : c.state.driver.store.Sound
  length_eq : minds.length = c.hands.length
  placed : ∀ (i : Nat) (g : G) (hand), minds[i]? = some g → c.hands[i]? = some hand →
    u.At c.state.driver.store g hand
  session : c.session = (Session.start config template {}).run events
  shared : u.Shared c.state minds c.commits
    (((Session.start config template {}).log events).countP (Note.returns .success))
  terminal : .fired .terminalConditionMet ∈ (Session.start config template {}).log events →
    u.Spent c.state

variable {u : Upkeep G attempt} {config : PoolConfig} {template : Recorder} {c : Clients}
  {minds : List G} {events : List Session.Event}

/-- Clients that have asked for nothing keep up what they begin with. -/
theorem kept_start (u : Upkeep G attempt) (config : PoolConfig) (template : Recorder)
    {w : World Server} (hsound : w.driver.store.Sound)
    (hshared : u.Shared w (List.replicate config.concurrency u.start) 0 0) :
    Kept u config template (Crew.start World.site config template {} w)
      (List.replicate config.concurrency u.start) [] where
  staffed := Crew.staffed_start _ _ _ _ _
  sound := hsound
  length_eq := by
    rw [List.length_replicate]
    exact List.length_replicate.symm
  placed i g hand hg hhand := by
    obtain rfl := List.eq_of_mem_replicate (List.mem_of_getElem? hg)
    obtain rfl := List.eq_of_mem_replicate (List.mem_of_getElem? hhand)
    exact ⟨fun _ => rfl, nofun⟩
  session := rfl
  shared := hshared
  terminal := nofun

/-- What is observed of one event more, after what was observed before it. -/
theorem Kept.log_append (h : Kept u config template c minds events) (event : Session.Event) :
    (Session.start config template {}).log (events ++ [event])
      = (Session.start config template {}).log events ++ c.session.notes event := by
  rw [Session.log_append, ← h.session, Session.log, Session.log, List.append_nil]

/-- The session after one event more. It is still a session of these clients from the
start. -/
theorem Kept.session_step (h : Kept u config template c minds events) (event : Session.Event) :
    c.session.step event = (Session.start config template {}).run (events ++ [event]) := by
  rw [Session.run_append, ← h.session]
  rfl

/-- A client that is at work is at some point. -/
theorem Kept.exists_mind (h : Kept u config template c minds events) {i : Nat}
    {hand : Hand requests (Option Transaction)} (hhand : c.hands[i]? = some hand) :
    ∃ g, minds[i]? = some g ∧ u.At c.state.driver.store g hand := by
  obtain ⟨hi, -⟩ := List.getElem?_eq_some_iff.mp hhand
  have hmind := List.getElem?_eq_getElem (l := minds) (h.length_eq ▸ hi)
  exact ⟨_, hmind, h.placed i _ hand hmind hhand⟩

/-- After one client moved to another point, each is at its point. -/
theorem Kept.placed_set (h : Kept u config template c minds events) {t : Store}
    (hsince : c.state.driver.store.Since t) {i : Nat} {g : G}
    {hand : Hand requests (Option Transaction)} (hat : u.At t g hand) :
    ∀ (j : Nat) (g' : G) (other), (minds.set i g)[j]? = some g' →
      (c.hands.set i hand)[j]? = some other → u.At t g' other := by
  intro j g' other hg hother
  rcases getElem?_set_cases hg with ⟨rfl, rfl⟩ | ⟨hne, hg⟩
  · rcases getElem?_set_cases hother with ⟨-, rfl⟩ | ⟨hne, -⟩
    · exact hat
    · exact absurd rfl hne
  · rcases getElem?_set_cases hother with ⟨rfl, -⟩ | ⟨-, hother⟩
    · exact absurd rfl hne
    · exact (h.placed j g' other hg hother).since hsince

/-- Something in the session that is nobody's, such as time that passes, leaves
everything else alone. -/
theorem Kept.idle (h : Kept u config template c minds events) {event : Session.Event}
    (hidle : Crew.Idle c.session event)
    (hstaffed : Crew.Staffed { c with session := c.session.step event }) :
    Kept u config template { c with session := c.session.step event } minds
      (events ++ [event]) where
  staffed := hstaffed
  sound := h.sound
  length_eq := h.length_eq
  placed := h.placed
  session := h.session_step event
  shared := by
    have hquiet : (c.session.notes event).countP (Note.returns .success) = 0 := by
      refine List.countP_eq_zero.mpr ?_
      intro note hnote
      rw [hidle.notes hnote]
      exact Bool.false_ne_true
    rw [h.log_append, List.countP_append, hquiet]
    exact h.shared
  terminal hfired := by
    rw [h.log_append, List.mem_append] at hfired
    rcases hfired with hbefore | hnow
    · exact h.terminal hbefore
    · cases hidle.notes hnow

/-- A client that has one request answered is at its next point, and what is shared goes
along. -/
theorem Kept.exchange (h : Kept u config template c minds events) {i : Nat}
    {hand : Hand requests (Option Transaction)} {r : Request}
    {next : r.Reply → Program requests (Attempted Unit)} (hhand : c.hands[i]? = some hand)
    (hrest : hand.rest = some (.ask r next)) (hopen : c.session.report? = none) :
    ∃ minds, Kept u config template (c.exchange World.site i hand.held r next) minds events := by
  have hstaffed := h.staffed.exchange World.site hopen hhand hrest
  obtain ⟨g, hg, hat⟩ := h.exists_mind hhand
  obtain ⟨known, hholds, hasks, hnext⟩ := hat.busy _ hrest
  rcases hanswer : c.state.answer hand.held r with ⟨after, held, reply⟩
  obtain ⟨hshared, hspent⟩ := u.shared_exchange h.shared hg hasks hholds hanswer
  have hcommits := Clients.commits_exchange hanswer i next
  rw [Clients.exchange_eq hanswer] at hstaffed hcommits ⊢
  have hbecomes := becomes_answer hanswer
  refine ⟨minds.set i (u.next g r reply), hstaffed, hbecomes.sound h.sound, ?_, ?_,
    h.session, ?_, fun hfired => hspent (h.terminal hfired)⟩
  · rw [List.length_set, List.length_set]
    exact h.length_eq
  · refine h.placed_set hbecomes.since ⟨nofun, ?_⟩
    intro p hp
    obtain rfl := Option.some.inj hp
    exact ⟨_, hholds.answer h.sound hanswer, hnext _ reply⟩
  · rw [hcommits]
    exact hshared

/-- A client that hands in what came of its attempt, or goes on. -/
theorem Kept.settle (h : Kept u config template c minds events) {i : Nat}
    {hand : Hand requests (Option Transaction)} {event : Session.Event}
    (hhand : c.hands[i]? = some hand) (hin : Crew.HandsIn i hand.rest event)
    (hopen : c.session.report? = none) :
    ∃ minds, Kept u config template (c.settle attempt i hand.held event) minds
      (events ++ [event]) := by
  obtain ⟨g, hg, hat⟩ := h.exists_mind hhand
  refine ⟨minds.set i u.start, h.staffed.settle _ hopen hin, h.sound, ?_, ?_,
    h.session_step event, ?_, ?_⟩
  · show _ = (c.hands.set i _).length
    rw [List.length_set, List.length_set]
    exact h.length_eq
  · -- The worker begins anew, with a new program or with none.
    refine h.placed_set (.refl _) ⟨fun _ => rfl, ?_⟩
    intro p hp
    obtain ⟨t, -, rfl⟩ := Option.map_eq_some_iff.mp hp
    exact ⟨none, holds_none _ _, u.meets_attempt t⟩
  · -- A success that is handed in is observed now; all else leaves their number as it is.
    rw [h.log_append, List.countP_append, hin.countP_success h.staffed hhand hopen]
    rcases hin.current h.staffed hhand with ⟨-, hrest⟩ | ⟨result, t, hrest, -, -⟩
    · obtain ⟨hi, rfl⟩ := List.getElem?_eq_some_iff.mp hg
      rw [hrest, ← hat.idle hrest, List.set_getElem_self]
      exact h.shared
    · obtain ⟨known, -, hends⟩ := hat.busy _ hrest
      rw [hrest]
      match result with
      | .ok () => exact u.shared_ok h.shared hg hends
      | .error failure => exact u.shared_error h.shared hg hends
  · intro hfired
    rw [h.log_append, List.mem_append] at hfired
    -- The workload ends by a worker that hands in the end of it.
    rcases hfired with hbefore | hnow
    · exact h.terminal hbefore
    · obtain ⟨e, hrest, hterminal⟩ := hin.terminal h.staffed hhand hopen hnow
      obtain ⟨known, -, hends⟩ := hat.busy _ hrest
      exact u.spent_of_terminal h.shared hg hends hterminal

/-- One event: whoever has the turn is at the next point afterwards, and what is shared
has gone along. -/
theorem Kept.step (h : Kept u config template c minds events) (e : Crew.Event) :
    ∃ minds events, Kept u config template (c.step World.site attempt e) minds events := by
  have hstaffed := h.staffed.step World.site attempt e
  rcases c.step_cases World.site attempt e with
    hstep | ⟨event, hidle, hstep⟩ | ⟨i, hand, r, next, hhand, hrest, hopen, hstep⟩ |
    ⟨i, hand, event, hhand, hin, hopen, hstep⟩ <;> rw [hstep]
  · exact ⟨minds, events, h⟩
  · rw [hstep] at hstaffed
    exact ⟨minds, _, h.idle hidle hstaffed⟩
  · obtain ⟨minds, hkept⟩ := h.exchange hhand hrest hopen
    exact ⟨minds, events, hkept⟩
  · obtain ⟨minds, hkept⟩ := h.settle hhand hin hopen
    exact ⟨minds, _, hkept⟩

/-- What clients share is kept up on any schedule, by induction on its events. -/
theorem Kept.run (h : Kept u config template c minds events) (schedule : List Crew.Event) :
    ∃ minds events, Kept u config template (c.run World.site attempt schedule) minds events := by
  induction schedule generalizing c minds events with
  | nil => exact ⟨minds, events, h⟩
  | cons e rest ih =>
      -- Points and events of the session change with the steps, so they are not fixed beforehand.
      obtain ⟨_, _, hstep⟩ := h.step e
      exact ih hstep

/-! ### What is read off -/

/-- There is a point for each worker, also for those that have ended. -/
theorem Kept.length_minds (h : Kept u config template c minds events) :
    minds.length = config.concurrency := by
  rw [h.length_eq, h.staffed.length_eq, h.session, Session.pool_run, Pool.length_run]
  exact List.length_replicate

/-- What the workers have in their tallies is what was observed. -/
theorem Kept.successes_eq (h : Kept u config template c minds events) :
    c.successes
      = ((Session.start config template {}).log events).countP (Note.returns .success) := by
  have haccounts := (Pool.accounts_make config template {}).run
    ((Session.start config template {}).trace events)
  have hpool : c.session.pool
      = (Pool.make config template {}).run ((Session.start config template {}).trace events) := by
    rw [h.session, Session.pool_run, Session.pool_start]
  rw [← hpool, List.nil_append] at haccounts
  rw [Session.log_eq, Session.pool_start]
  exact haccounts.tallies .operations

/-- What is shared holds with the successes in the tallies. -/
theorem Kept.shared_successes (h : Kept u config template c minds events) :
    u.Shared c.state minds c.commits c.successes := by
  rw [h.successes_eq]
  exact h.shared

/-- Where nobody is in an attempt, everybody is at the beginning. -/
theorem Kept.minds_of_quiet (h : Kept u config template c minds events) (hquiet : c.Quiet) :
    minds = List.replicate config.concurrency u.start := by
  refine List.eq_replicate_iff.mpr ⟨h.length_minds, ?_⟩
  intro g hg
  obtain ⟨i, hi, rfl⟩ := List.getElem_of_mem hg
  have hhand := List.getElem?_eq_getElem (l := c.hands) (h.length_eq ▸ hi)
  have hat := h.placed i _ _ (List.getElem?_eq_getElem hi) hhand
  exact hat.idle (hquiet _ (List.getElem_mem _))

/-- Once there is a report everybody is at the beginning, and the operations
are the successes, in a word. -/
theorem Kept.report (h : Kept u config template c minds events) {report : PoolReport}
    (hreport : c.session.report? = some report) :
    u.Shared c.state (List.replicate config.concurrency u.start) c.commits c.successes ∧
      report.totals.operations = c.successes % 2 ^ 64 ∧
      (report.cause = some .terminalConditionMet → u.Spent c.state) := by
  have hshared := h.shared_successes
  rw [h.session] at hreport
  obtain ⟨hover, -⟩ := Session.report_run (Session.report?_start config template {}) hreport
  rw [h.minds_of_quiet (Clients.quiet_of_isOver h.staffed (h.session ▸ hover))] at hshared
  refine ⟨hshared, ?_, ?_⟩
  · rw [h.successes_eq]
    exact Session.totals_report_mod hreport .operations
  · intro hcause
    refine h.terminal ?_
    -- The signal was new, so its cause is one that was observed.
    have hfirst := (Session.cause_report hreport).symm.trans hcause
    obtain ⟨note, hnote, hfired⟩ := List.exists_of_findSome?_eq_some hfirst
    cases note with
    | fired cause =>
        obtain rfl := Option.some.inj hfired
        exact hnote
    | began | returned | panicked => cases hfired

/-- Whatever clients do keeps up what they share: any number of them, and any order of
their requests. -/
theorem Upkeep.shared_run (u : Upkeep G attempt) (config : PoolConfig) (template : Recorder)
    {w : World Server} (hsound : w.driver.store.Sound)
    (hshared : u.Shared w (List.replicate config.concurrency u.start) 0 0)
    (schedule : List Crew.Event) :
    let c : Clients :=
      (Crew.start World.site config template {} w).run World.site attempt schedule
    ∃ minds, u.Shared c.state minds c.commits c.successes ∧ minds.length = config.concurrency ∧
      (c.Quiet → minds = List.replicate config.concurrency u.start) := by
  obtain ⟨minds, events, hkept⟩ := (kept_start u config template hsound hshared).run schedule
  exact ⟨minds, hkept.shared_successes, hkept.length_minds, hkept.minds_of_quiet⟩

/-- The phases of a run that ends with a report, where the set-up leads to what
the clients keep up: the check comes to its verdict where everybody is at the
beginning again. -/
theorem Upkeep.passes_plan {workload : Workload requests} (u : Upkeep G workload.attempt)
    {w after : World Server} {engine : EngineConfig} {size : RunConfig}
    {passed : List (Passed Runner.stages (World Server))} {report : Report}
    (hsetup : ∀ prepared, World.site.run w workload.setup.run = (prepared, .ok ()) →
      prepared.driver.store.Sound ∧
        u.Shared prepared (List.replicate size.concurrency u.start) 0 0)
    (hpasses : Program.Passes (Runner.Passes World.site workload) w
      (Runner.plan engine workload.retryPolicy size).run passed after (.ok report)) :
    ∃ prepared config template pool worked verdict checked cleared commits successes,
      passed = [⟨.setup, .ok (), prepared⟩, ⟨.attempts config template, pool, worked⟩,
        ⟨.verify, verdict, checked⟩, ⟨.teardown, cleared, after⟩] ∧
      World.site.run w workload.setup.run = (prepared, .ok ()) ∧
      worked.driver.connected = prepared.driver.connected ∧
      u.Shared worked (List.replicate size.concurrency u.start) commits successes ∧
      report.operations = successes % 2 ^ 64 ∧
      (report.stopCause = some .terminalConditionMet → u.Spent worked) ∧
      World.site.run worked workload.verify.run = (checked, verdict) ∧
      Runner.integrity verdict = .ok report.dataIntegrity := by
  -- A report is made of four phases, of which the attempts are the second.
  obtain ⟨template, prepared, rest, rfl, hprepared, hwork⟩ := Runner.passes_plan hpasses
  obtain ⟨pool, worked, verdict, checked, sound, cleared, rfl, hworked, hchecked, hsound,
    hfinish⟩ := Runner.passes_work hwork
  obtain ⟨hoperations, hstop, hintegrity⟩ := PoolReport.finish_ok hfinish
  obtain ⟨hstore, hshared⟩ := hsetup prepared hprepared
  obtain ⟨schedule, hreport, rfl⟩ := hworked
  -- What the clients keep up holds from the set-up on.
  obtain ⟨minds, events, hkept⟩ := (kept_start u
    (Runner.poolConfig engine workload.retryPolicy size) template hstore hshared).run schedule
  obtain ⟨hended, htotals, hspent⟩ := hkept.report hreport
  refine ⟨prepared, _, template, pool, _, verdict, checked, cleared, _, _, rfl, hprepared,
    Clients.connected_run schedule, hended, hoperations.trans htotals, ?_, hchecked, ?_⟩
  · rwa [hstop]
  · rwa [hintegrity]

end StoreBench.Scenario
