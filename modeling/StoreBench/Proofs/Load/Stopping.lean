import StoreBench.Proofs.Load.Accounting

/-!
# `StoreBench.Proofs.Load.Stopping`: nothing begins after the signal

`stop_safety` is about the order of what is observed of a session. After the
signal was fired, by whomever, no call begins. Every call that has begun
returns or breaks off before there is a report, however long after the grace
that is. What returns after the signal is counted if it is a success or an
error, and not if it is contention. The cause in the report is the first that
was fired, and there is none only when every worker has broken off.

The log is a list, so "after" is a place in it. `log_split` leads from a place
in the log to the event that left the note there, and the two lemmas that
carry the theorem start from the state after that event: `late_log` (once the
signal was fired, all notes are late) and `ends_of_current` (a call that a
worker is in ends). That nothing begins behind the signal is said of every session
(`Session.late_of_signal`), also of one that has no report yet.
-/

set_option autoImplicit false

namespace StoreBench

variable {policy : RetryPolicy} {stopped : Bool} {now : Span} {i : Nat} {w moved : Worker}
  {notes log : List Note} {p q : Pool}

namespace Note

/-- A note that may follow the signal: no call begins, and those that return
return late. -/
def Late : Note → Prop
  | began _ => False
  | returned _ _ stopped => stopped = true
  | panicked _ | fired _ => True

/-- The cause that is fired with a note, if the note is about the signal. -/
def cause? : Note → Option StopCause
  | fired cause => some cause
  | began _ | returned _ _ _ | panicked _ => none

/-- The call of a try is over by this note. -/
def Ends (t : Try) : Note → Prop
  | returned u _ _ | panicked u => u = t
  | began _ | fired _ => False

end Note

/-! ### The signal -/

namespace StopSignal

/-- The first cause is kept. A signal that is fired again keeps the cause that it has. -/
theorem cause_hear (s : StopSignal) (note : Note) :
    (s.hear note).cause = s.cause.or note.cause? := by
  obtain ⟨cause⟩ := s
  cases note <;> cases cause <;> rfl

/-- The first cause that was fired stays. Those that come later are not heard. -/
theorem cause_foldl_hear (s : StopSignal) (log : List Note) :
    (log.foldl hear s).cause = s.cause.or (log.findSome? Note.cause?) := by
  induction log generalizing s with
  | nil => simp
  | cons note rest ih =>
      rw [List.foldl_cons, ih, cause_hear, Option.or_assoc, List.findSome?_cons]
      cases note.cause? <;> rfl

end StopSignal

namespace Pool

/-- The signal of a pool is fired as the log says. -/
theorem signal_step (p : Pool) (e : Event) :
    (p.step e).signal = (p.notes e).foldl StopSignal.hear p.signal := by
  rcases p.step_cases e with ⟨hstep, hnotes⟩ | ⟨cause, hstep, hnotes⟩ | ⟨i, w, moved, hmoved⟩
  · rw [hstep, hnotes]
    rfl
  · rw [hstep, hnotes]
    rfl
  · exact hmoved.signal

/-- The signal after a run is told by the log alone. -/
theorem signal_run (p : Pool) (events : List Event) :
    (p.run events).signal = (p.log events).foldl StopSignal.hear p.signal := by
  induction events generalizing p with
  | nil => rfl
  | cons e rest ih =>
      rw [log, List.foldl_append, ← signal_step]
      exact ih (p.step e)

/-- The cause of a pool is the one it began with, or the first that is
observed. -/
theorem cause_run (p : Pool) (events : List Event) :
    (p.run events).signal.cause
      = p.signal.cause.or ((p.log events).findSome? Note.cause?) := by
  rw [signal_run, StopSignal.cause_foldl_hear]

/-- A signal that was fired stays fired, whatever happens. -/
theorem isFired_step (h : p.signal.isFired = true) (e : Event) :
    (p.step e).signal.isFired = true := by
  have hcause := cause_run p [e]
  rw [StopSignal.isFired, show p.step e = p.run [e] from rfl, hcause, Option.isSome_or]
  exact Bool.or_eq_true_iff.mpr (.inl h)

end Pool

/-! ### After the signal -/

/-- A move after the signal leaves late notes only, and begins no call. -/
theorem Move.late (h : Move policy true now i w moved notes) : ∀ note ∈ notes, note.Late := by
  intro note hnote
  cases h with
  | begin hphase hstop | resume retries hphase hstop | again retries hphase hstop
  | rest retries hphase hstop | giveUp retries hphase hstop => cases hstop
  | leave => cases hnote
  | finish | drop | crash =>
      obtain rfl := List.mem_singleton.mp hnote
      first | rfl | trivial
  | terminal =>
      simp only [List.mem_cons, List.not_mem_nil, or_false] at hnote
      rcases hnote with rfl | rfl
      · rfl
      · trivial

/-- The signal is fired by the last note of a move. -/
theorem Move.last_of_fired (h : Move policy stopped now i w moved notes) {cause : StopCause}
    {before after : List Note} (hsplit : notes = before ++ .fired cause :: after) :
    after = [] := by
  cases h with
  | terminal =>
      -- Two notes: the signal cannot be the first, and is nothing behind the second.
      rcases before with _ | ⟨first, _ | ⟨second, rest⟩⟩ <;> simp_all
  | again =>
      rcases before with _ | ⟨first, _ | ⟨second, rest⟩⟩ <;> simp_all
  | leave => simp at hsplit
  | begin | resume | finish | drop | rest | giveUp | crash =>
      rcases before with _ | ⟨first, rest⟩ <;> simp at hsplit

/-- A worker that moves out of a call leaves a note that the call is over. -/
theorem Move.ends (h : Move policy stopped now i w moved notes) {t : Try}
    (hcurrent : w.current i = some t) : ∃ note ∈ notes, note.Ends t := by
  cases h with
  | begin hphase hstop | resume retries hphase hstop =>
      rw [Worker.current, hphase] at hcurrent
      cases hcurrent
  | leave htry hstop =>
      rw [htry] at hcurrent
      cases hcurrent
  | finish retries status hphase | terminal retries hphase | drop retries hphase
  | again retries hphase | rest retries hphase | giveUp retries hphase
  | crash retries hphase =>
      rw [Worker.current, hphase] at hcurrent
      exact ⟨_, List.mem_cons_self .., Option.some.inj hcurrent⟩

/-- The call that begins with a move is the one that the worker is in then. -/
theorem Move.current_of_began (h : Move policy stopped now i w moved notes) {t : Try}
    (hnote : .began t ∈ notes) : t.worker = i ∧ moved.current i = some t := by
  cases h with
  | begin | resume =>
      obtain rfl := Note.began.inj (List.mem_singleton.mp hnote)
      exact ⟨rfl, rfl⟩
  | again =>
      simp only [List.mem_cons, List.not_mem_nil, or_false, Note.began.injEq, reduceCtorEq,
        false_or] at hnote
      subst hnote
      exact ⟨rfl, rfl⟩
  | leave | finish | terminal | drop | rest | giveUp | crash => simp at hnote

/-- A worker leaves after the signal, or fires it as it leaves. -/
theorem Move.fired_of_left (h : Move policy stopped now i w moved notes)
    (hleft : moved.phase = .left) : stopped = true ∨ ∃ cause, .fired cause ∈ notes := by
  cases h with
  | leave htry hstop | drop retries hphase hstop => exact .inl hstop
  | terminal => exact .inr ⟨.terminalConditionMet, by simp⟩
  | begin | resume | finish | again | rest | giveUp | crash => cases hleft

namespace Pool

/-- Once the signal was fired, everything that is observed is late. -/
theorem late_log (h : p.signal.isFired = true) (events : List Event) :
    ∀ note ∈ p.log events, note.Late := by
  induction events generalizing p with
  | nil => nofun
  | cons e rest ih =>
      intro note hnote
      rcases List.mem_append.mp hnote with hfirst | hrest
      · rcases p.step_cases e with ⟨-, hnotes⟩ | ⟨cause, -, hnotes⟩ | ⟨i, w, moved, hmoved⟩
        · rw [hnotes] at hfirst
          cases hfirst
        · rw [hnotes] at hfirst
          obtain rfl := List.mem_singleton.mp hfirst
          trivial
        · exact (h ▸ hmoved.move).late note hfirst
      · exact ih (isFired_step h e) note hrest

/-- The event that left a note at a place in the log. -/
theorem log_split {events : List Event} {before after : List Note} {note : Note}
    (h : p.log events = before ++ note :: after) :
    ∃ sofar e rest first last, events = sofar ++ e :: rest ∧
      (p.run sofar).notes e = first ++ note :: last ∧
      after = last ++ ((p.run sofar).step e).log rest := by
  induction events generalizing p before with
  | nil => simp [log] at h
  | cons e rest ih =>
      -- The place lies in the notes of this event, or in what follows it.
      rw [log, List.append_eq_append_iff] at h
      have hlater (mid : List Note) (hmid : (p.step e).log rest = mid ++ note :: after) :
          ∃ sofar e' rest' first last, e :: rest = sofar ++ e' :: rest' ∧
            (p.run sofar).notes e' = first ++ note :: last ∧
            after = last ++ ((p.run sofar).step e').log rest' := by
        obtain ⟨sofar, e', rest', first, last, rfl, hnotes, hafter⟩ := ih hmid
        exact ⟨e :: sofar, e', rest', first, last, rfl, hnotes, hafter⟩
      rcases h with ⟨mid, -, hmid⟩ | ⟨mid, hnotes, hmid⟩
      · exact hlater mid hmid
      · rcases mid with _ | ⟨here, last⟩
        · -- All notes of this event come before the place.
          exact hlater [] hmid.symm
        · obtain ⟨rfl, rfl⟩ := List.cons.inj hmid
          exact ⟨[], e, rest, before, last, rfl, hnotes, rfl⟩

/-- The signal is fired by the last note of an event. -/
theorem last_of_fired {e : Event} {first last : List Note} {cause : StopCause}
    (h : p.notes e = first ++ .fired cause :: last) : last = [] := by
  rcases p.step_cases e with ⟨-, hnotes⟩ | ⟨cause, -, hnotes⟩ | ⟨i, w, moved, hmoved⟩
  · rw [hnotes] at h
    simp at h
  · rw [hnotes] at h
    rcases first with _ | ⟨note, rest⟩ <;> simp at h
    exact h.2
  · exact hmoved.move.last_of_fired h

/-- An event with such a note has fired the signal. -/
theorem isFired_of_fired {e : Event} {cause : StopCause} (h : .fired cause ∈ p.notes e) :
    (p.step e).signal.isFired = true := by
  rw [signal_step, StopSignal.isFired, StopSignal.cause_foldl_hear, Option.isSome_or,
    Bool.or_eq_true_iff]
  exact .inr (List.findSome?_isSome_iff.mpr ⟨_, h, rfl⟩)

/-- What follows the signal in a log is late, however much of it there is. -/
theorem late_of_fired {events : List Event} {before after : List Note} {cause : StopCause}
    (h : p.log events = before ++ .fired cause :: after) : ∀ note ∈ after, note.Late := by
  obtain ⟨sofar, e, rest, first, last, -, hnotes, rfl⟩ := log_split h
  have hmem : Note.fired cause ∈ (p.run sofar).notes e := by
    rw [hnotes]
    simp
  rw [last_of_fired hnotes, List.nil_append]
  exact late_log (isFired_of_fired hmem) rest

/-! ### Calls in flight -/

/-- A call that a worker is in is over before all workers are. -/
theorem ends_of_current {t : Try} (h : p.current i = some t) {events : List Event}
    (hover : (p.run events).isOver = true) : ∃ note ∈ p.log events, note.Ends t := by
  induction events generalizing p with
  | nil =>
      -- A worker that has ended is in no call.
      have hall : ∀ w, p.workers[i]? = some w → w.phase.isOver = true :=
        fun w hw => List.all_eq_true.mp hover w (List.mem_of_getElem? hw)
      rw [current_of_over hall] at h
      cases h
  | cons e rest ih =>
      have hlater (hstay : (p.step e).current i = some t) :
          ∃ note ∈ p.log (e :: rest), note.Ends t := by
        obtain ⟨note, hnote, hends⟩ := ih hstay hover
        exact ⟨note, List.mem_append_right _ hnote, hends⟩
      rcases p.step_cases e with ⟨hstep, -⟩ | ⟨cause, hstep, -⟩ | ⟨j, w, moved, hmoved⟩
      · exact hlater (by rwa [hstep])
      · exact hlater (by rw [hstep]; exact h)
      · by_cases hj : j = i
        · subst hj
          rw [current_of_worker hmoved.here] at h
          obtain ⟨note, hnote, hends⟩ := hmoved.move.ends h
          exact ⟨note, List.mem_append_left _ hnote, hends⟩
        · -- Another worker has moved, so this one is in its call still.
          refine hlater ?_
          rwa [current, hmoved.workers, List.getElem?_set_ne hj]

/-- The worker of a call that begins is in it afterwards. -/
theorem current_of_began {e : Event} {t : Try} (h : .began t ∈ p.notes e) :
    (p.step e).current t.worker = some t := by
  rcases p.step_cases e with ⟨-, hnotes⟩ | ⟨cause, -, hnotes⟩ | ⟨i, w, moved, hmoved⟩
  · rw [hnotes] at h
    cases h
  · rw [hnotes] at h
    simp at h
  · obtain ⟨hi, -⟩ := List.getElem?_eq_some_iff.mp hmoved.here
    obtain ⟨hworker, hcurrent⟩ := hmoved.move.current_of_began h
    rw [hworker, ← hcurrent]
    refine current_of_worker ?_
    rw [hmoved.workers, List.getElem?_set_self hi]

/-- A call that begins is over later in the log, once all workers are. -/
theorem ends_of_began {events : List Event} (hover : (p.run events).isOver = true) {t : Try}
    {before after : List Note} (h : p.log events = before ++ .began t :: after) :
    ∃ note ∈ after, note.Ends t := by
  obtain ⟨sofar, e, rest, first, last, rfl, hnotes, rfl⟩ := log_split h
  have hcurrent : ((p.run sofar).step e).current t.worker = some t := by
    refine current_of_began ?_
    rw [hnotes]
    simp
  rw [run, List.foldl_append] at hover
  obtain ⟨note, hnote, hends⟩ := ends_of_current hcurrent hover
  exact ⟨note, List.mem_append_right _ hnote, hends⟩

end Pool

/-- Nothing that is late is granted another retry or given up. -/
theorem countP_of_late (policy : RetryPolicy) (h : ∀ note ∈ log, note.Late) :
    log.countP (Note.givesUp policy) = 0 ∧ log.countP (Note.grants policy) = 0 := by
  constructor <;> refine List.countP_eq_zero.mpr fun note hnote => ?_
  all_goals
    have hlate := h note hnote
    cases note with
    | began t => cases hlate
    | returned t status stopped =>
        obtain rfl : stopped = true := hlate
        cases status <;> exact nofun
    | panicked | fired => exact nofun

/-- The signal itself is not counted, so that counts are those before it and those after
it. -/
theorem countP_fired (policy : RetryPolicy) (column : Column) (before after : List Note)
    (cause : StopCause) :
    (before ++ .fired cause :: after).countP (Note.counts policy column)
      = before.countP (Note.counts policy column) + after.countP (Note.counts policy column) := by
  have hnone : Note.counts policy column (.fired cause) = false := by cases column <;> rfl
  rw [List.countP_append, List.countP_cons_of_neg (by rw [hnone]; nofun)]

namespace Pool

/-! ### Why workers leave -/

/-- A worker has left only if the signal was fired. -/
def LeavesForSignal (p : Pool) : Prop :=
  ∀ w ∈ p.workers, w.phase = .left → p.signal.isFired = true

/-- A worker that has not begun stays as long as the signal is not fired. -/
theorem leavesForSignal_make (config : PoolConfig) (template : Recorder) (signal : StopSignal) :
    LeavesForSignal (make config template signal) := by
  intro w hw hleft
  obtain rfl := List.eq_of_mem_replicate hw
  cases hleft

/-- A worker only leaves for the signal, or because its call was the last one of the
workload or broke off. -/
theorem LeavesForSignal.step (h : LeavesForSignal p) (e : Event) : LeavesForSignal (p.step e) := by
  intro other hother hleft
  rcases p.step_cases e with ⟨hstep, -⟩ | ⟨cause, hstep, -⟩ | ⟨i, w, moved, hmoved⟩
  · rw [hstep] at hother ⊢
    exact h other hother hleft
  · rw [hstep] at hother
    exact isFired_step (h other hother hleft) e
  · rw [hmoved.workers] at hother
    rcases List.mem_or_eq_of_mem_set hother with hold | rfl
    · exact isFired_step (h other hold hleft) e
    · rcases hmoved.move.fired_of_left hleft with hstop | ⟨cause, hfired⟩
      · exact isFired_step hstop e
      · exact isFired_of_fired hfired

/-- Workers leave for the signal, or with their last call, in any run, by induction on
its events. -/
theorem LeavesForSignal.run (h : LeavesForSignal p) (events : List Event) :
    LeavesForSignal (p.run events) := by
  induction events generalizing p with
  | nil => exact h
  | cons e rest ih => exact ih (h.step e)

/-- Where all workers have ended without a signal, each has broken off. -/
theorem LeavesForSignal.panicked_eq (h : LeavesForSignal p) (hover : p.isOver = true)
    (hquiet : p.signal.cause = none) : p.panicked = p.workers.length := by
  refine List.countP_eq_length.mpr ?_
  intro w hw
  have hend := List.all_eq_true.mp hover w hw
  have hleft : w.phase ≠ .left := fun hleft => by
    have hfired := h w hw hleft
    rw [StopSignal.isFired, hquiet] at hfired
    cases hfired
  cases hphase : w.phase <;> simp_all [Phase.isOver]

end Pool

namespace Session

/-- The cause in a report is the one that the signal came with, or the first
that is observed of the session. -/
theorem cause_report {config : PoolConfig} {template : Recorder} {signal : StopSignal}
    {events : List Event} {report : PoolReport}
    (hreport : ((start config template signal).run events).report? = some report) :
    report.cause
      = signal.cause.or (((start config template signal).log events).findSome? Note.cause?) := by
  obtain ⟨-, rfl⟩ := report_run (report?_start config template signal) hreport
  show ((start config template signal).run events).pool.signal.cause = _
  rw [log_eq, pool_run, pool_start]
  exact Pool.cause_run _ _

/-- A report without a cause tells of workers that have all broken off. -/
theorem panicked_of_cause_none {config : PoolConfig} {template : Recorder} {signal : StopSignal}
    {events : List Event} {report : PoolReport}
    (hreport : ((start config template signal).run events).report? = some report)
    (hnone : report.cause = none) : report.panicked = config.concurrency := by
  obtain ⟨hover, rfl⟩ := report_run (report?_start config template signal) hreport
  have hpool : ((start config template signal).run events).pool
      = (Pool.make config template signal).run ((start config template signal).trace events) := by
    rw [pool_run, pool_start]
  -- A worker that has left would have needed the signal for it.
  have hleaves := (Pool.leavesForSignal_make config template signal).run
    ((start config template signal).trace events)
  rw [← hpool] at hleaves
  show ((start config template signal).run events).pool.panicked = config.concurrency
  rw [hleaves.panicked_eq hover hnone, hpool, Pool.length_run]
  exact List.length_replicate

/-- Whatever is observed of a session behind the signal is late, whether the session
comes to a report or not. So is all of it where the signal was fired before. -/
theorem late_of_signal (config : PoolConfig) (template : Recorder) (signal : StopSignal)
    (events : List Event) :
    let log := (start config template signal).log events
    (∀ before after cause, log = before ++ .fired cause :: after → ∀ note ∈ after, note.Late) ∧
    (signal.isFired = true → ∀ note ∈ log, note.Late) := by
  -- The log is that of the pool that the session has gone through.
  rw [log_eq, pool_start]
  exact ⟨fun _ _ _ => Pool.late_of_fired, fun hfired => Pool.late_log hfired _⟩

/-- The signal is safe in every session, for any number of workers and any
order of events.

Once it was fired, no call begins, and with a signal that was fired before, no call is
made at all. This needs no report: it holds at every moment of a session.

In a session with a report, the operations and errors that calls return behind the
signal are counted, and contention that they return there is not, even at the ceiling
of retries. Each call that begins is over later in the log, so none is left behind, and
the grace ends nothing. The cause in the report is the first; if there is none, nothing
was fired and each worker broke off. -/
theorem stop_safety (config : PoolConfig) (template : Recorder) (signal : StopSignal)
    (events : List Event) :
    let log := (start config template signal).log events
    (∀ before after cause, log = before ++ .fired cause :: after → ∀ t, .began t ∉ after) ∧
    (signal.isFired = true → ∀ t, .began t ∉ log) ∧
    ∀ report, ((start config template signal).run events).report? = some report →
      (∀ before after cause, log = before ++ .fired cause :: after →
        report.totals.operations
          = (before.countP (Note.returns .success) + after.countP (Note.returns .success))
            % 2 ^ 64 ∧
        report.totals.errors
          = (before.countP (Note.returns .error) + before.countP (Note.givesUp config.retry)
            + after.countP (Note.returns .error)) % 2 ^ 64 ∧
        report.totals.transientRetries
          = before.countP (Note.grants config.retry) % 2 ^ 64) ∧
      (∀ before after t, log = before ++ .began t :: after → ∃ note ∈ after, note.Ends t) ∧
      report.cause = signal.cause.or (log.findSome? Note.cause?) ∧
      (report.cause = none → signal.cause = none ∧ (∀ cause, .fired cause ∉ log) ∧
        report.panicked = config.concurrency) := by
  intro log
  obtain ⟨hbehind, hbefore⟩ := late_of_signal config template signal events
  refine ⟨fun before after cause hlog t ht => hbehind before after cause hlog _ ht,
    fun hfired t ht => hbefore hfired _ ht, ?_⟩
  intro report hreport
  have htotals := totals_report_mod hreport
  have hcause := cause_report hreport
  obtain ⟨hover, -⟩ := report_run (report?_start config template signal) hreport
  rw [pool_run, pool_start] at hover
  refine ⟨?_, ?_, hcause, ?_⟩
  · intro before after cause hlog
    -- The columns are split at the signal; behind it, contention counts in none.
    obtain ⟨hgivesUp, hgrants⟩ := countP_of_late config.retry (hbehind before after cause hlog)
    have hsplit (column : Column) := (htotals column).trans
      (congrArg (· % 2 ^ 64) ((congrArg _ hlog).trans (countP_fired config.retry column _ _ _)))
    refine ⟨hsplit .operations, ?_, ?_⟩
    · refine (hsplit .errors).trans ?_
      simp only [countP_errors, hgivesUp, Nat.add_zero]
    · refine (hsplit .retries).trans ?_
      show (before.countP (Note.grants config.retry) + after.countP (Note.grants config.retry))
        % 2 ^ 64 = _
      rw [hgrants, Nat.add_zero]
  · intro before after t hlog
    exact Pool.ends_of_began hover ((log_eq _ _).symm.trans hlog)
  · intro hnone
    have hpanicked := panicked_of_cause_none hreport hnone
    rw [hcause, Option.or_eq_none_iff] at hnone
    obtain ⟨hopen, hquiet⟩ := hnone
    have hnever := List.findSome?_eq_none_iff.mp hquiet
    refine ⟨hopen, ?_, hpanicked⟩
    intro cause hfired
    cases hnever _ hfired

/-- Three workers are in a call when somebody outside fires the signal: after
the grace, one returns a success, one an error, and one a conflict at the
ceiling. The deadline comes too late to be the cause. -/
def lateDay : List Event :=
  [ .proceed 0, .proceed 1, .proceed 2, .fire .terminalConditionMet, .notice,
    .pass (.ofSeconds 9), .alarm, .lapse, .answer 0 .success, .answer 1 .error,
    .answer 2 .retry, .proceed 0, .proceed 1, .proceed 2, .join ]

/-- Three workers, a deadline after a second, and no retries. -/
def lateConfig : PoolConfig :=
  { concurrency := 3, deadline := some (.ofSeconds 1), retry := { maxRetries := some 0 } }

/-- All three results are late. The success and the error are counted, and the conflict
is dropped. -/
theorem stop_safety_late :
    ∃ report, ((start lateConfig roughRecorder {}).run lateDay).report? = some report ∧
      report.totals.operations = 1 ∧ report.totals.errors = 1 ∧
      report.totals.transientRetries = 0 ∧ report.cause = some .terminalConditionMet := by
  obtain ⟨-, -, hreport⟩ := stop_safety lateConfig roughRecorder {} lateDay
  obtain ⟨hafter, -, hcause, -⟩ := hreport _ rfl
  have hlog : (start lateConfig roughRecorder {}).log lateDay
      = [.began ⟨0, 0, 0⟩, .began ⟨1, 0, 0⟩, .began ⟨2, 0, 0⟩] ++
        .fired .terminalConditionMet ::
        [.fired .deadlineReached, .returned ⟨0, 0, 0⟩ .success true,
          .returned ⟨1, 0, 0⟩ .error true, .returned ⟨2, 0, 0⟩ .retry true] := by
    decide
  obtain ⟨hoperations, herrors, hretries⟩ := hafter _ _ _ hlog
  refine ⟨_, rfl, hoperations, herrors, hretries, hcause.trans ?_⟩
  rw [hlog]
  rfl

end Session

end StoreBench
