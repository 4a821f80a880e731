import StoreBench.Load.Runner
import StoreBench.Proofs.Load.Crew

/-!
# `StoreBench.Proofs.Load.Phases`: the phases of a run, whatever the order of steps

`Runner.run` plays the attempts of a run in one order. `Runner.Passes` says what
a phase may come to when the workers can interleave in any way, and
`Program.Passes` what a program may come to whose requests may be answered in
several ways, with the list of what it passed through. A run of the phases is
`plan` under these answers.

`passes_plan` is the inversion: a run that ends with a report was set up,
attempted, verified and torn down, in this order.
-/

set_option autoImplicit false

namespace StoreBench

/-- A request of a program, the reply, and the state after it. -/
abbrev Passed (S : Signature) (σ : Type) := (r : S.Request) × S.Reply r × σ

/-- What a program may come to from a state, where each request may be answered
in any of the allowed ways. -/
inductive Program.Passes {S : Signature} {σ α : Type}
    (allowed : σ → (r : S.Request) → S.Reply r → σ → Prop) :
    σ → Program S α → List (Passed S σ) → σ → α → Prop
  | done (s : σ) (a : α) : Passes allowed s (.done a) [] s a
  | ask {s t u : σ} {r : S.Request} {reply : S.Reply r} {next : S.Reply r → Program S α}
      {rest : List (Passed S σ)} {a : α} (hallowed : allowed s r reply t)
      (hrest : Passes allowed t (next reply) rest u a) :
      Passes allowed s (.ask r next) (⟨r, reply, t⟩ :: rest) u a

namespace Program

variable {S : Signature} {σ α : Type} {allowed : σ → (r : S.Request) → S.Reply r → σ → Prop}
  {s u : σ} {passed : List (Passed S σ)} {a : α}

/-- A program that is done passes nothing. -/
theorem Passes.of_done {b : α} (h : Passes allowed s (.done b) passed u a) :
    passed = [] ∧ u = s ∧ a = b := by
  cases h
  exact ⟨rfl, rfl, rfl⟩

/-- A program that asks has its request answered first. -/
theorem Passes.of_ask {r : S.Request} {next : S.Reply r → Program S α}
    (h : Passes allowed s (.ask r next) passed u a) :
    ∃ reply t rest, allowed s r reply t ∧ passed = ⟨r, reply, t⟩ :: rest ∧
      Passes allowed t (next reply) rest u a := by
  cases h with
  | ask hallowed hrest => exact ⟨_, _, _, hallowed, rfl, hrest⟩

/-- What comes of running a program with these answers is allowed. -/
def Plays (allowed : σ → (r : S.Request) → S.Reply r → σ → Prop)
    (answer : σ → (r : S.Request) → σ × S.Reply r) (s : σ) (p : Program S α) : Prop :=
  ∃ passed, Passes allowed s p passed (run answer s p).1 (run answer s p).2

/-- A program that is done plays out with nothing asked. -/
theorem plays_done {answer : σ → (r : S.Request) → σ × S.Reply r} (s : σ) (a : α) :
    Plays allowed answer s (.done a) := ⟨[], .done s a⟩

/-- A program plays on after an answer that is allowed. -/
theorem plays_ask {answer : σ → (r : S.Request) → σ × S.Reply r} {r : S.Request}
    {next : S.Reply r → Program S α} (hallowed : allowed s r (answer s r).2 (answer s r).1)
    (hrest : Plays allowed answer (answer s r).1 (next (answer s r).2)) :
    Plays allowed answer s (.ask r next) := by
  obtain ⟨passed, hpasses⟩ := hrest
  exact ⟨_, .ask hallowed hpasses⟩

end Program

namespace Runner

variable {S : Signature} {σ γ : Type}

/-- What a phase of a workload may come to at a site. The attempts may go in
any order in which they end with a report. -/
def Passes (site : Site S σ γ) (w : Workload S) (state : σ) :
    (s : Stage) → s.Reply → σ → Prop
  | .setup, reply, after => site.run state w.setup.run = (after, reply)
  | .attempts config template, report, after =>
    ∃ schedule, let crew := (Crew.start site config template {} state).run site w.attempt schedule
      crew.session.report? = some report ∧ crew.state = after
  | .verify, reply, after => site.run state w.verify.run = (after, reply)
  | .teardown, reply, after => site.run state w.teardown.run = (after, reply)

/-- The parameters of the pool of a run. -/
def poolConfig (engine : EngineConfig) (retry : Option RetryPolicy) (size : RunConfig) :
    PoolConfig where
  concurrency := size.concurrency
  deadline := size.duration
  grace := engine.grace
  retry := retry.getD engine.retry

/-- The plan of a run from the attempts on. -/
def work (config : PoolConfig) (template : Recorder) : Program stages (Attempted Report) :=
  .ask (.attempts config template) fun report => .ask .verify fun verdict =>
    match integrity verdict with
    | .error c => .done (.error (.crash c))
    | .ok sound => .ask .teardown fun reply => match tolerate reply with
      | .error c => .done (.error (.crash c))
      | .ok () => .done ((report.finish sound).mapError Failure.crash)

/-- A run ends with its report, as a program. -/
theorem finish_run (r : Except Crash Report) :
    (liftM r : Task stages Report).run = .done (r.mapError Failure.crash) := by
  cases r <;> rfl

/-- The plan of a run, phase by phase. Nothing is set up before the concurrency and the
latencies are found valid. -/
theorem plan_run (engine : EngineConfig) (retry : Option RetryPolicy) (size : RunConfig) :
    (plan engine retry size).run =
      if size.concurrency = 0 then
        .done (.error (.error (.invalidConfig "concurrency must be greater than zero")))
      else match Recorder.make engine.latency with
        | .error e => .done (.error (.error e))
        | .ok template => .ask .setup fun reply => match reply with
          | .ok () => work (poolConfig engine retry size) template
          | .error (.error e) => .done (.error (.error (.setupFailed e)))
          | .error (.crash c) => .done (.error (.crash c)) := by
  unfold plan
  split
  · rfl
  cases hmake : Recorder.make engine.latency with
  | error e => rfl
  | ok template =>
      refine congrArg (Program.ask _) (funext ?_)
      intro reply
      match reply with
      | .error (.error e) => rfl
      | .error (.crash c) => rfl
      | .ok () =>
          refine congrArg (Program.ask _) (funext ?_)
          intro report
          refine congrArg (Program.ask _) (funext ?_)
          intro verdict
          -- The rest by what the check and the tear-down reply.
          match verdict with
          | .error (.crash c) => rfl
          | .ok _ | .error (.error _) =>
              refine congrArg (Program.ask _) (funext ?_)
              intro reply
              match reply with
              | .error (.crash c) => rfl
              | .ok () | .error (.error _) => exact finish_run _

variable {site : Site S σ γ} {w : Workload S} {state after : σ}
  {passed : List (Passed stages σ)} {report : Report}

/-- The attempts of a run that ends with a report are followed by the check,
whose verdict is in the report, and the tear-down. -/
theorem passes_phases {config : PoolConfig} {template : Recorder}
    (h : Program.Passes (Passes site w) state (work config template) passed after (.ok report)) :
    ∃ pool worked verdict checked sound cleared,
      passed = [⟨.attempts config template, pool, worked⟩, ⟨.verify, verdict, checked⟩,
        ⟨.teardown, cleared, after⟩] ∧
      Passes site w state (.attempts config template) pool worked ∧
      Passes site w worked .verify verdict checked ∧
      Passes site w checked .teardown cleared after ∧ integrity verdict = .ok sound ∧
      pool.finish sound = .ok report := by
  obtain ⟨pool, worked, rest, hworked, rfl, hcheck⟩ := h.of_ask
  obtain ⟨verdict, checked, rest, hchecked, rfl, hclear⟩ := hcheck.of_ask
  -- A check that crashed leaves no report, and neither does a tear-down that did.
  cases hsound : integrity verdict with
  | error c =>
      rw [hsound] at hclear
      cases hclear.of_done.2.2
  | ok sound =>
      rw [hsound] at hclear
      obtain ⟨cleared, gone, rest, hgone, rfl, hend⟩ := hclear.of_ask
      cases htolerate : tolerate cleared with
      | error c =>
          rw [htolerate] at hend
          cases hend.of_done.2.2
      | ok tolerated =>
          rw [htolerate] at hend
          obtain ⟨rfl, rfl, hreport⟩ := hend.of_done
          cases hfinish : pool.finish sound with
          | error c =>
              rw [hfinish] at hreport
              cases hreport
          | ok finished =>
              rw [hfinish] at hreport
              cases hreport
              exact ⟨pool, worked, verdict, checked, sound, cleared, rfl, hworked, hchecked,
                hgone, hsound, hfinish⟩

/-- The attempts of a run that ends with a report, and the check that follows them,
without what the tear-down did, which is not in the report. -/
theorem passes_work {config : PoolConfig} {template : Recorder}
    (h : Program.Passes (Passes site w) state (work config template) passed after (.ok report)) :
    ∃ pool worked verdict checked sound cleared,
      passed = [⟨.attempts config template, pool, worked⟩, ⟨.verify, verdict, checked⟩,
        ⟨.teardown, cleared, after⟩] ∧
      Passes site w state (.attempts config template) pool worked ∧
      Passes site w worked .verify verdict checked ∧ integrity verdict = .ok sound ∧
      pool.finish sound = .ok report := by
  obtain ⟨pool, worked, verdict, checked, sound, cleared, hpassed, hworked, hchecked, -, hsound,
    hfinish⟩ := passes_phases h
  exact ⟨pool, worked, verdict, checked, sound, cleared, hpassed, hworked, hchecked, hsound,
    hfinish⟩

/-- A run that ends with a report was set up before its attempts. -/
theorem passes_plan {engine : EngineConfig} {retry : Option RetryPolicy} {size : RunConfig}
    (h : Program.Passes (Passes site w) state (plan engine retry size).run passed after
      (.ok report)) :
    ∃ template prepared rest, passed = ⟨.setup, .ok (), prepared⟩ :: rest ∧
      Passes site w state .setup (.ok ()) prepared ∧
      Program.Passes (Passes site w) prepared (work (poolConfig engine retry size) template) rest
        after (.ok report) := by
  rw [plan_run] at h
  split at h
  · cases h.of_done.2.2
  split at h
  · cases h.of_done.2.2
  obtain ⟨reply, prepared, rest, hprepared, rfl, hwork⟩ := h.of_ask
  match reply with
  | .error (.error e) => cases hwork.of_done.2.2
  | .error (.crash c) => cases hwork.of_done.2.2
  | .ok () => exact ⟨_, prepared, rest, rfl, hprepared, hwork⟩

end Runner

/-- A report has the counts and the cause of its pool. -/
theorem PoolReport.finish_ok {pool : PoolReport} {sound : Bool} {report : Report}
    (h : pool.finish sound = .ok report) :
    report.operations = pool.totals.operations ∧ report.stopCause = pool.cause ∧
      report.dataIntegrity = sound := by
  simp only [finish, Report.ofRun, bind, Except.bind] at h
  split at h
  · cases h
  · cases h
    exact ⟨rfl, rfl, rfl⟩

end StoreBench
