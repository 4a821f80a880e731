import StoreBench.Load.Script
import StoreBench.Proofs.Load.Rehearsal

/-!
# `StoreBench.Proofs.Load.Protocol`: the courses that a run can take

Whatever a workload does in its phases, a run takes one of three courses
(`Runner.Course`). It is rejected before the workload is asked for anything; or
the set-up fails and nothing follows; or the workload is set up, attempted,
verified and torn down, each once and in this order. In the last course the
check begins after every worker has ended, and the report is made of what the
pool counted and of the verdict of the check. `phase_protocol` says so for any
way for the phases to go that is `Steady`: outside of the attempts nothing
breaks off, and the attempts are a session in which workers may do anything in
any order.

Crews of workers whose programs interleave request by request are steady
(`steady_passes`), so that the theorem is about them, and about rehearsals,
which are one of their ways.

The sum of operations and errors has to fit a word for there to be a report. It
does as long as the calls that returned can be counted in one
(`Session.attempts_lt`).
-/

set_option autoImplicit false

namespace StoreBench

/-- Where every request has some answer, a program comes to an end. -/
theorem Program.exists_passes {S : Signature} {σ α : Type}
    {allowed : σ → (r : S.Request) → S.Reply r → σ → Prop}
    (htotal : ∀ s r, ∃ reply t, allowed s r reply t) (p : Program S α) (s : σ) :
    ∃ passed u a, Passes allowed s p passed u a := by
  induction p generalizing s with
  | done a => exact ⟨[], s, a, .done s a⟩
  | ask r next ih =>
      obtain ⟨reply, t, hallowed⟩ := htotal s r
      obtain ⟨passed, u, a, hrest⟩ := ih reply t
      exact ⟨_, u, a, .ask hallowed hrest⟩

/-! ### What the report says -/

/-- A report says of a pool what the pool counted. -/
structure Report.Tells (report : Report) (pool : PoolReport) : Prop where
  operations : report.operations = pool.totals.operations
  errors : report.errors = pool.totals.errors
  transientRetries : report.transientRetries = pool.totals.transientRetries
  totalTime : report.totalTime = pool.total
  stopCause : report.stopCause = pool.cause
  panickedWorkers : report.panickedWorkers = pool.panicked

/-- There is a report of a pool when the sum that the error rate is taken of fits
a word. -/
theorem PoolReport.exists_finish {pool : PoolReport}
    (hfits : pool.totals.operations + pool.totals.errors < 2 ^ 64) (sound : Bool) :
    ∃ report, pool.finish sound = .ok report ∧ report.Tells pool ∧
      report.dataIntegrity = sound := by
  have hattempts : pool.totals.attempts = .ok (pool.totals.operations + pool.totals.errors) :=
    if_pos hfits
  simp only [finish, Report.ofRun, hattempts, bind, Except.bind]
  exact ⟨_, rfl, ⟨rfl, rfl, rfl, rfl, rfl, rfl⟩, rfl⟩

/-- Operations and errors are counted among the calls that returned. -/
theorem Session.attempts_lt {config : PoolConfig} {template : Recorder} {signal : StopSignal}
    {events : List Session.Event} {pool : PoolReport}
    (hreport : ((start config template signal).run events).report? = some pool)
    (hcalls : ((start config template signal).log events).countP Note.isReturn < 2 ^ 64) :
    pool.totals.operations + pool.totals.errors < 2 ^ 64 := by
  have hsum := countP_isReturn config.retry ((start config template signal).log events)
  have hoperations := totals_report_mod hreport .operations
  have herrors := totals_report_mod hreport .errors
  -- Neither count has wrapped around, as each is at most the number of the calls.
  rw [Nat.mod_eq_of_lt (by omega)] at hoperations herrors
  simp only [Tally.at] at hoperations herrors
  omega

namespace Runner

/-- What a check says of the data: sound if it found nothing wrong or had
nothing to check. -/
theorem integrity_eq {verdict : Attempted (Option Bool)}
    (hreturns : ∀ c, verdict ≠ .error (.crash c)) :
    ∃ sound, integrity verdict = .ok sound ∧
      (sound = true ↔ verdict = .ok (some true) ∨ verdict = .ok none) := by
  match verdict with
  | .error (.crash c) => exact absurd rfl (hreturns c)
  | .error (.error e) => exact ⟨false, rfl, by simp⟩
  | .ok none => exact ⟨true, rfl, by simp⟩
  | .ok (some answer) => exact ⟨answer, rfl, by simp⟩

/-- A tear-down that does not break off is passed over. -/
theorem tolerate_eq {reply : Attempted Unit} (hreturns : ∀ c, reply ≠ .error (.crash c)) :
    tolerate reply = .ok () := by
  match reply with
  | .error (.crash c) => exact absurd rfl (hreturns c)
  | .ok () | .error (.error _) => rfl

/-- A recorder that cannot be made is a configuration that is not valid. -/
theorem make_error {limits : LatencyConfig} {e : BenchError}
    (h : Recorder.make limits = .error e) : ∃ message, e = .invalidConfig message := by
  unfold Recorder.make at h
  split at h
  · cases h
  · cases h
    exact ⟨_, rfl⟩

/-! ### Steady phases -/

/-- Ways for the phases of a workload to go in which nothing breaks off outside
of the attempts. The attempts are a session that has come to its report: its
workers may have succeeded, failed in any way, met contention and broken off, in
any order. -/
structure Steady {σ : Type} (allowed : σ → (s : Stage) → s.Reply → σ → Prop) : Prop where
  setup : ∀ {s reply t}, allowed s .setup reply t → ∀ c, reply ≠ .error (.crash c)
  attempts : ∀ {s t config template pool}, allowed s (.attempts config template) pool t →
    ∃ events, ((Session.start config template {}).run events).report? = some pool
  verify : ∀ {s verdict t}, allowed s .verify verdict t → ∀ c, verdict ≠ .error (.crash c)
  teardown : ∀ {s reply t}, allowed s .teardown reply t → ∀ c, reply ≠ .error (.crash c)

/-- The phases of a workload at a site are steady when its set-up, check and
tear-down never break off there, whatever its attempts do. -/
theorem steady_passes {S : Signature} {σ γ : Type} (site : Site S σ γ) (w : Workload S)
    (hsetup : ∀ s c, (site.run s w.setup.run).2 ≠ .error (.crash c))
    (hverify : ∀ s c, (site.run s w.verify.run).2 ≠ .error (.crash c))
    (hteardown : ∀ s c, (site.run s w.teardown.run).2 ≠ .error (.crash c)) :
    Steady (Passes site w) where
  setup {s reply t} h c hcrash := by
    have hrun : site.run s w.setup.run = (t, reply) := h
    exact hsetup s c (by rw [hrun]; exact hcrash)
  attempts {s t config template pool} h := by
    obtain ⟨schedule, hreport, -⟩ := h
    -- What the programs of the workers do is one of the things that a session may do.
    obtain ⟨events, hevents⟩ :=
      (Crew.start site config template {} s).session_run site w.attempt schedule
    exact ⟨events, by rw [← hreport, hevents]; rfl⟩
  verify {s verdict t} h c hcrash := by
    have hrun : site.run s w.verify.run = (t, verdict) := h
    exact hverify s c (by rw [hrun]; exact hcrash)
  teardown {s reply t} h c hcrash := by
    have hrun : site.run s w.teardown.run = (t, reply) := h
    exact hteardown s c (by rw [hrun]; exact hcrash)

/-! ### Courses -/

/-- The session of the attempts of a run, as it begins. -/
def opening (engine : EngineConfig) (retry : Option RetryPolicy) (size : RunConfig)
    (template : Recorder) : Session := .start (poolConfig engine retry size) template {}

/-- The courses of a run: the phases that it goes through, with what each came
to, and its result. -/
inductive Course {σ : Type} (engine : EngineConfig) (retry : Option RetryPolicy)
    (size : RunConfig) : List (Passed stages σ) → Attempted Report → Prop
  /-- The run is rejected, and the workload is not asked for anything. -/
  | rejected (message : String)
      (hrejected : size.concurrency = 0 ∨ ∃ e, Recorder.make engine.latency = .error e) :
      Course engine retry size [] (.error (.error (.invalidConfig message)))
  /-- The set-up failed, and the run with it. -/
  | unprepared (e : BenchError) (after : σ) (hpositive : size.concurrency ≠ 0)
      (hmake : ∃ template, Recorder.make engine.latency = .ok template) :
      Course engine retry size [⟨.setup, .error (.error e), after⟩]
        (.error (.error (.setupFailed e)))
  /-- The run went through all of its phases. The session of its attempts had no
  worker left when it reported `pool`.

  The result is stated of operations and errors whose sum is a word, as the rate of
  errors is computed from that sum. This excludes no run: both are counters of calls that
  returned, each counted once, so their sum is a word unless `2 ^ 64` calls returned
  (`hcounted`), for which one in every nanosecond would take five centuries. -/
  | worked (template : Recorder) (events : List Session.Event) (pool : PoolReport)
      (verdict : Attempted (Option Bool)) (cleared : Attempted Unit)
      (prepared attempted verified after : σ) (result : Attempted Report)
      (hpositive : size.concurrency ≠ 0) (hmake : Recorder.make engine.latency = .ok template)
      (hreport : ((opening engine retry size template).run events).report? = some pool)
      (hover : ((opening engine retry size template).run events).pool.isOver = true)
      (hcounted : ((opening engine retry size template).log events).countP Note.isReturn < 2 ^ 64 →
        pool.totals.operations + pool.totals.errors < 2 ^ 64)
      (hresult : pool.totals.operations + pool.totals.errors < 2 ^ 64 →
        ∃ report, result = .ok report ∧ report.Tells pool ∧
          (report.dataIntegrity = true ↔ verdict = .ok (some true) ∨ verdict = .ok none)) :
      Course engine retry size
        [⟨.setup, .ok (), prepared⟩,
          ⟨.attempts (poolConfig engine retry size) template, pool, attempted⟩,
          ⟨.verify, verdict, verified⟩, ⟨.teardown, cleared, after⟩] result

variable {σ : Type} {allowed : σ → (s : Stage) → s.Reply → σ → Prop} {before after : σ}
  {passed : List (Passed stages σ)} {result : Attempted Report}

/-- From the attempts on, a steady run goes through its other phases, whatever
they reply, and reports. -/
theorem Steady.work (h : Steady allowed) {config : PoolConfig} {template : Recorder}
    (hwork : Program.Passes allowed before (work config template) passed after result) :
    ∃ pool attempted verdict verified cleared events sound,
      passed = [⟨.attempts config template, pool, attempted⟩, ⟨.verify, verdict, verified⟩,
        ⟨.teardown, cleared, after⟩] ∧
      ((Session.start config template {}).run events).report? = some pool ∧
      (sound = true ↔ verdict = .ok (some true) ∨ verdict = .ok none) ∧
      result = (pool.finish sound).mapError Failure.crash := by
  -- Each phase is a request of the program, and its reply decides how that goes on.
  obtain ⟨pool, attempted, rest, hattempted, rfl, hcheck⟩ := hwork.of_ask
  obtain ⟨verdict, verified, rest, hverified, rfl, hclear⟩ := hcheck.of_ask
  obtain ⟨events, hreport⟩ := h.attempts hattempted
  obtain ⟨sound, hintegrity, hsound⟩ := integrity_eq (h.verify hverified)
  simp only [hintegrity] at hclear
  obtain ⟨cleared, gone, rest, hcleared, rfl, hend⟩ := hclear.of_ask
  simp only [tolerate_eq (h.teardown hcleared)] at hend
  obtain ⟨rfl, rfl, rfl⟩ := hend.of_done
  exact ⟨pool, attempted, verdict, verified, cleared, events, sound, rfl, hreport, hsound, rfl⟩

/-- **The phase protocol.** For every engine, retry policy of a workload and size
of a run, and for all phases that are steady, a run takes one of three courses.
It asks the workload for nothing, and results in an invalid configuration, when
there are to be no workers or no recorder can be made. It asks for the set-up
alone when that fails, and results in that very error, as the failure of a
set-up. Otherwise it asks for the set-up, for attempts, for the check when every
worker has ended, and for the tear-down, once each. Then it results in a report
of what the pool counted, which calls the data sound just when the check found
it so or had nothing to check. Neither the reply of the tear-down nor any reply
of an attempt makes a difference to that.

Phases that have some reply from every state come to such an end. -/
theorem phase_protocol (hsteady : Steady allowed) (engine : EngineConfig)
    (retry : Option RetryPolicy) (size : RunConfig) (before : σ) :
    ((∀ s (stage : Stage), ∃ reply t, allowed s stage reply t) →
      ∃ passed after result,
        Program.Passes allowed before (plan engine retry size).run passed after result) ∧
    ∀ passed after result,
      Program.Passes allowed before (plan engine retry size).run passed after result →
      Course engine retry size passed result := by
  refine ⟨fun htotal => Program.exists_passes (S := stages) htotal _ before, ?_⟩
  intro passed after result hrun
  rw [plan_run] at hrun
  -- The two guards come before the first request.
  split at hrun
  · rename_i hzero
    obtain ⟨rfl, rfl, rfl⟩ := hrun.of_done
    exact .rejected _ (.inl hzero)
  rename_i hpositive
  split at hrun
  · rename_i e hmake
    obtain ⟨rfl, rfl, rfl⟩ := hrun.of_done
    obtain ⟨message, rfl⟩ := make_error hmake
    exact .rejected message (.inr ⟨_, hmake⟩)
  rename_i template hmake
  obtain ⟨reply, prepared, rest, hprepared, rfl, hrest⟩ := hrun.of_ask
  match reply with
  | .error (.crash c) => exact absurd rfl (hsteady.setup hprepared c)
  | .error (.error e) =>
      obtain ⟨rfl, rfl, rfl⟩ := hrest.of_done
      exact .unprepared e _ hpositive ⟨template, hmake⟩
  | .ok () =>
      obtain ⟨pool, attempted, verdict, verified, cleared, events, sound, rfl, hreport, hsound,
        hresult⟩ := hsteady.work hrest
      obtain ⟨hover, -⟩ := Session.report_run (Session.report?_start _ _ _) hreport
      refine .worked template events pool verdict cleared prepared attempted verified after result
        hpositive hmake hreport hover (Session.attempts_lt hreport) fun hfits => ?_
      obtain ⟨report, hfinish, htells, hverdict⟩ := PoolReport.exists_finish hfits sound
      rw [hfinish] at hresult
      exact ⟨report, hresult, htells, hverdict ▸ hsound⟩

/-- Attempts of which one succeeds, one breaks off with its worker and one fails,
until there are no more; then a check that cannot be made, and a tear-down that
fails. -/
def roughWork : Workload Script.requests :=
  Script.workload (.ok ()) (.error (.error (.connection "gone")))
    (.error (.error (.backend "busy"))) none

/-- The script of these three attempts. -/
def roughScript : Script :=
  { items := [{ ending := .success }, { ending := .crash },
      { ending := .failure (.backend "refused") }] }

/-- A workload whose check cannot be made and whose teardown fails still gives a report,
with a check that failed. -/
theorem phase_protocol_rough :
    ∃ passed after result,
      Program.Passes (Passes Script.site roughWork) roughScript
        (plan {} none { concurrency := 2 }).run passed after result ∧
      Course {} none { concurrency := 2 } passed result ∧
      result.map (fun r => (r.operations, r.errors, r.panickedWorkers, r.dataIntegrity))
        = .ok (1, 1, 1, false) := by
  have hplays := plays_plan Script.site roughWork 40 {} { concurrency := 2 } roughScript
    fun template prepared hmake hsetup => by
      cases hmake
      cases hsetup
      rfl
  obtain ⟨passed, hpasses⟩ := hplays
  refine ⟨passed, _, _, hpasses, ?_, rfl⟩
  exact (phase_protocol (steady_passes Script.site roughWork nofun nofun nofun) {} none
    { concurrency := 2 } roughScript).2 _ _ _ hpasses

end Runner

end StoreBench
