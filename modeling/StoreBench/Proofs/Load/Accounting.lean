import Mathlib.Algebra.GroupWithZero.Nat
import StoreBench.Proofs.Load.Cells
import StoreBench.Proofs.Load.Session

/-!
# `StoreBench.Proofs.Load.Accounting`: every call is counted once

A worker counts for itself, and what it counted is added up when it ends, in
whichever way it ends. `session_accounting` compares what a report says with
what was observed of the session: calls that returned a success, calls that
returned an error or were given up at the ceiling, retries that were granted,
workers that broke off.

The invariant is `Accounts`. The tallies of all workers together are what the
log shows at any time (`tallies`), and the totals are the part of those that
have ended (`totals`), modulo the size of a word. When everybody has ended the
two are the same. `Latencies` does the same for the recorders, which have to
stay fit to be merged.

A call that is in no count ends its worker (`Move.over_of_dropped`), so
nothing is observed of that worker later (`pairwise_log`).
-/

set_option autoImplicit false

namespace StoreBench

/-! ### What is counted -/

/-- The counters of a tally, so that what is said of one of them is said of all. -/
inductive Column
  | operations
  | errors
  | retries

/-- A counter of a tally, by its column, so that one lemma speaks of all three. -/
def Tally.at (t : Tally) : Column → Nat
  | .operations => t.operations
  | .errors => t.errors
  | .retries => t.transientRetries

namespace Note

variable (policy : RetryPolicy)

/-- A call returned, whatever it returned. It is counted as one thing or dropped. -/
def isReturn : Note → Bool
  | returned _ _ _ => true
  | began _ | panicked _ | fired _ => false

/-- A call returned this status, before the signal or after. -/
def returns (status : Status) : Note → Bool
  | returned _ actual _ => actual == status
  | began _ | panicked _ | fired _ => false

/-- A call met contention before the signal, and another retry is allowed. -/
def grants : Note → Bool
  | returned t .retry false => policy.allows t.retry
  | _ => false

/-- A call met contention before the signal, and no retry is left. -/
def givesUp : Note → Bool
  | returned t .retry false => !policy.allows t.retry
  | _ => false

/-- A call met the end of the workload, or contention after the signal. -/
def isDropped : Note → Bool
  | returned _ .terminal _ | returned _ .retry true => true
  | _ => false

/-- A call of this worker broke off, which ends the worker. -/
def panics (i : Nat) : Note → Bool
  | panicked t => t.worker == i
  | began _ | returned _ _ _ | fired _ => false

/-- The worker that a note is about. A signal is about none. -/
def worker? : Note → Option Nat
  | began t | returned t _ _ | panicked t => some t.worker
  | fired _ => none

/-- What goes into a counter. No note goes into two of them. -/
def counts : Column → Note → Bool
  | .operations, note => note.returns .success
  | .errors, note => note.returns .error || note.givesUp policy
  | .retries, note => note.grants policy

end Note

/-- A call that returned is counted in one column, or dropped. -/
theorem countP_isReturn (policy : RetryPolicy) (log : List Note) :
    log.countP Note.isReturn
      = log.countP (Note.counts policy .operations) + log.countP (Note.counts policy .errors)
        + log.countP (Note.counts policy .retries) + log.countP Note.isDropped := by
  induction log with
  | nil => rfl
  | cons note rest ih =>
      simp only [List.countP_cons, ih]
      cases note with
      | began | panicked | fired => rfl
      | returned t status stopped =>
          -- The status says which column, and for contention the signal and the ceiling do.
          cases hallows : policy.allows t.retry <;> cases status <;> cases stopped <;>
            simp [Note.isReturn, Note.counts, Note.returns, Note.givesUp, Note.grants,
              Note.isDropped, hallows] <;> omega

/-- Errors are what returned as such, and what was given up. -/
theorem countP_errors (policy : RetryPolicy) (log : List Note) :
    log.countP (Note.counts policy .errors)
      = log.countP (Note.returns .error) + log.countP (Note.givesUp policy) := by
  induction log with
  | nil => rfl
  | cons note rest ih =>
      simp only [List.countP_cons, ih]
      cases note with
      | began | panicked | fired => rfl
      | returned t status stopped =>
          cases status <;> cases stopped <;>
            simp [Note.counts, Note.returns, Note.givesUp] <;> omega

/-! ### One worker of many -/

/-- After one place of a list is set, what is found is what was put there, or
was there before in another place. -/
theorem getElem?_set_cases {α : Type} {items : List α} {i j : Nat} {a b : α}
    (h : (items.set i a)[j]? = some b) : (i = j ∧ a = b) ∨ (i ≠ j ∧ items[j]? = some b) := by
  rw [List.getElem?_set] at h
  split at h
  · rename_i hij
    split at h
    · exact .inl ⟨hij, Option.some.inj h⟩
    · cases h
  · rename_i hij
    exact .inr ⟨hij, h⟩

/-- A sum changes by what changes in one place. Stated by addition, since a difference
of natural numbers is cut off at zero. -/
theorem sum_map_set {α : Type} {items : List α} {i : Nat} {a : α} (f : α → Nat) (b : α)
    (h : items[i]? = some a) :
    ((items.set i b).map f).sum + f a = (items.map f).sum + f b := by
  induction items generalizing i with
  | nil => cases h
  | cons first rest ih =>
      cases i with
      | zero =>
          obtain rfl := Option.some.inj h
          simp only [List.set_cons_zero, List.map_cons, List.sum_cons]
          omega
      | succ i =>
          have hrest := ih h
          simp only [List.set_cons_succ, List.map_cons, List.sum_cons]
          omega

/-- Two sums are added up one by one, which is how operations and errors come to
latencies. -/
theorem sum_map_add {α : Type} (items : List α) (f g : α → Nat) :
    (items.map fun a => f a + g a).sum = (items.map f).sum + (items.map g).sum := by
  induction items with
  | nil => rfl
  | cons first rest ih =>
      simp only [List.map_cons, List.sum_cons, ih]
      omega

variable {policy : RetryPolicy} {stopped : Bool} {now : Span} {i : Nat} {w moved : Worker}
  {notes log : List Note} {p q : Pool}

/-- What a move adds to a worker's tally is what its notes count. -/
theorem Move.tally (h : Move policy stopped now i w moved notes) (column : Column) :
    moved.tally.at column = w.tally.at column + notes.countP (Note.counts policy column) := by
  cases h with
  | finish retries status hphase hcounted =>
      cases status with
      | success | error =>
          cases column <;> simp [Worker.finish, Tally.observe, Tally.at, Note.counts,
            Note.returns, Note.givesUp, Note.grants]
      | retry | terminal => cases hcounted
  | drop retries hphase hstop =>
      -- Contention after the signal is nowhere in the tally, and its note in no column.
      subst hstop
      cases column <;> rfl
  | again retries hphase hstop hallows | rest retries hphase hstop hallows =>
      subst hstop
      cases column <;> simp [Tally.observe, Tally.at, Note.counts, Note.returns, Note.givesUp,
        Note.grants, hallows]
  | giveUp retries hphase hstop hallows =>
      subst hstop
      cases column <;> simp [Worker.finish, Tally.observe, Tally.at, Note.counts, Note.returns,
        Note.givesUp, Note.grants, hallows]
  | begin | resume | leave | terminal | crash => cases column <;> rfl

namespace Pool

/-- The tallies show what the log shows, and the totals are those of the
workers that have ended. -/
structure Accounts (p : Pool) (log : List Note) : Prop where
  tallies : ∀ column, (p.workers.map fun w => w.tally.at column).sum
    = log.countP (Note.counts p.retry column)
  totals : ∀ column, p.totals.at column
    = (p.workers.map fun w => if w.phase.isOver then w.tally.at column else 0).sum % 2 ^ 64

/-- Tallies add up column by column, as words do: beyond a word they begin again. -/
theorem at_add (s t : Tally) (column : Column) :
    (s.add t).at column = (s.at column + t.at column) % 2 ^ 64 := by
  cases column <;> rfl

/-- A new pool has counted nothing, and nothing has been observed. -/
theorem accounts_make (config : PoolConfig) (template : Recorder) (signal : StopSignal) :
    Accounts (make config template signal) [] where
  tallies column := by
    cases column <;> simp [make, Tally.at]
  totals column := by
    cases column <;> simp [make, Tally.at, Phase.isOver]

/-- A worker that moves adds to its tally, and its tally is added up when it
ends by that. -/
theorem Accounts.move (h : Accounts p log) (hmoved : Moved p q now i w moved notes) :
    Accounts q (log ++ notes) where
  tallies column := by
    have hsum := sum_map_set (fun w => w.tally.at column) moved hmoved.here
    have htally := hmoved.move.tally column
    have hbefore := h.tallies column
    rw [hmoved.workers, hmoved.retry, List.countP_append]
    omega
  totals column := by
    have hsum := sum_map_set (fun w => if w.phase.isOver then w.tally.at column else 0) moved
      hmoved.here
    have hbefore := h.totals column
    -- The worker was awake, so it was not in the totals yet; it is now if it has ended.
    simp only [hmoved.awake, Bool.false_eq_true, if_false, Nat.add_zero] at hsum
    rw [hmoved.workers, hmoved.totals, hsum]
    split
    · rw [at_add, hbefore, Nat.mod_add_mod]
    · rw [hbefore, Nat.add_zero]

/-- Firing the signal counts nothing. What it changes is what later calls count as. -/
theorem Accounts.fire (h : Accounts p log) (cause : StopCause) :
    Accounts (p.fire cause) (log ++ [.fired cause]) where
  tallies column := by
    rw [List.countP_append]
    refine (h.tallies column).trans ?_
    cases column <;> rfl
  totals := h.totals

/-- One event: what the worker counts is what is observed of it, and its tally joins the
totals when it ends. -/
theorem Accounts.step (h : Accounts p log) (e : Event) :
    Accounts (p.step e) (log ++ p.notes e) := by
  rcases p.step_cases e with ⟨hstep, hnotes⟩ | ⟨cause, hstep, hnotes⟩ | ⟨i, w, moved, hmoved⟩
  · rwa [hstep, hnotes, List.append_nil]
  · rw [hstep, hnotes]
    exact h.fire cause
  · exact h.move hmoved

/-- So the accounts are right after any run, by induction on its events. -/
theorem Accounts.run (h : Accounts p log) (events : List Event) :
    Accounts (p.run events) (log ++ p.log events) := by
  induction events generalizing p log with
  | nil => rwa [Pool.log, List.append_nil]
  | cons e rest ih =>
      rw [Pool.log, ← List.append_assoc]
      exact ih (h.step e)

/-- Once every worker has ended, the totals are what the log shows, modulo
the size of a word. -/
theorem Accounts.totals_of_isOver (h : Accounts p log) (hover : p.isOver = true)
    (column : Column) :
    p.totals.at column = log.countP (Note.counts p.retry column) % 2 ^ 64 := by
  rw [h.totals, ← h.tallies]
  congr 2
  refine List.map_congr_left ?_
  intro w hw
  rw [if_pos (List.all_eq_true.mp hover w hw)]

/-! ### Latencies -/

/-- A time at which latencies can be recorded so that they can be merged. -/
def Recordable (layout : Layout) (now : Span) : Prop :=
  now.micros < wordMax ∨ layout.reach ≤ wordMax

/-- Every recorder has one latency for each operation and each error, and the
common one has those of the workers that have ended. -/
structure Latencies (layout : Layout) (p : Pool) : Prop where
  layout_eq : p.latency.histogram.layout = layout
  size_eq : p.latency.size = (p.workers.map fun w =>
    if w.phase.isOver then w.tally.operations + w.tally.errors else 0).sum
  recorder : ∀ w ∈ p.workers, w.recorder.histogram.layout = layout ∧
    w.recorder.histogram.Fits ∧ w.recorder.size = w.tally.operations + w.tally.errors

/-- All recorders of a new pool are empty, and of one layout. -/
theorem latencies_make (config : PoolConfig) (template : Recorder) (signal : StopSignal) :
    Latencies template.histogram.layout (make config template signal) where
  layout_eq := rfl
  size_eq := by
    simp [make, Recorder.fresh, Recorder.size, Histogram.empty, Phase.isOver]
  recorder w hw := by
    obtain rfl := List.eq_of_mem_replicate hw
    exact ⟨rfl, Histogram.fits_empty _, rfl⟩

end Pool

/-- A move records a latency, of no more than the time so far, just when it
counts an operation or an error. -/
theorem Move.recorder (h : Move policy stopped now i w moved notes) :
    (moved.recorder = w.recorder ∧
      moved.tally.operations + moved.tally.errors = w.tally.operations + w.tally.errors) ∨
    ∃ span : Span, span.nanos ≤ now.nanos ∧ moved.recorder = w.recorder.record span ∧
      moved.tally.operations + moved.tally.errors
        = w.tally.operations + w.tally.errors + 1 := by
  cases h with
  | finish retries status hphase hcounted =>
      -- The latency is the time since the logical attempt began, its retries included.
      refine .inr ⟨⟨now.nanos - w.began.nanos⟩, Nat.sub_le _ _, rfl, ?_⟩
      cases status with
      | success | error =>
          simp only [Worker.finish, Tally.observe]
          omega
      | retry | terminal => cases hcounted
  | giveUp retries hphase hstop hallows =>
      exact .inr ⟨⟨now.nanos - w.began.nanos⟩, Nat.sub_le _ _, rfl, rfl⟩
  | begin | resume | leave | terminal | drop | again | rest | crash => exact .inl ⟨rfl, rfl⟩

namespace Pool

/-- Where a span can be recorded, so can any shorter one. -/
theorem Recordable.le {layout : Layout} {span : Span} (h : Recordable layout now)
    (hle : span.nanos ≤ now.nanos) : Recordable layout span := by
  refine h.imp_left fun hlt => Nat.lt_of_le_of_lt ?_ hlt
  have := Nat.div_le_div_right (c := 1000) hle
  simp only [Span.micros]
  omega

/-- The recorder of a worker after a move has the latencies that the worker
has counted. -/
theorem Latencies.recorder_move {layout : Layout} (h : Latencies layout p)
    (hmade : layout.Made) (hnow : Recordable layout now)
    (hmoved : Moved p q now i w moved notes) :
    moved.recorder.histogram.layout = layout ∧ moved.recorder.histogram.Fits ∧
      moved.recorder.size = moved.tally.operations + moved.tally.errors := by
  obtain ⟨hlayout, hfits, hsize⟩ := h.recorder w (List.mem_of_getElem? hmoved.here)
  rcases hmoved.move.recorder with ⟨hrecorder, htally⟩ | ⟨span, hspan, hrecorder, htally⟩
  · rw [hrecorder, htally]
    exact ⟨hlayout, hfits, hsize⟩
  · rw [hrecorder, htally, ← hsize]
    subst hlayout
    exact ⟨rfl, hfits.record hmade (hnow.le hspan), rfl⟩

/-- A worker that ends has its latencies merged, and none is lost. -/
theorem size_flush {layout : Layout} (hproper : layout.Proper)
    (hlatency : p.latency.histogram.layout = layout)
    (hrecorder : w.recorder.histogram.layout = layout) (hfits : w.recorder.histogram.Fits) :
    (p.flush w).latency.histogram.layout = layout ∧
      (p.flush w).latency.size = p.latency.size + w.recorder.size := by
  subst hrecorder
  obtain ⟨merged, hmerge, hlayout, htotal⟩ := Histogram.merge?_of_fits hproper hfits hlatency
  simp only [flush, Recorder.merge, hmerge]
  exact ⟨hlayout.trans hlatency, htotal⟩

/-- A move of one worker records one latency, or none where it counts nothing, and
merges its recorder when it ends. -/
theorem Latencies.move {layout : Layout} (h : Latencies layout p) (hmade : layout.Made)
    (hnow : Recordable layout now) (hmoved : Moved p q now i w moved notes) :
    Latencies layout q := by
  have hnew := h.recorder_move hmade hnow hmoved
  have hsum := sum_map_set
    (fun w => if w.phase.isOver then w.tally.operations + w.tally.errors else 0) moved hmoved.here
  simp only [hmoved.awake, Bool.false_eq_true, if_false, Nat.add_zero] at hsum
  obtain ⟨hlayout, hfits, hsize⟩ := hnew
  have hflush := size_flush (p := p) hmade.toProper h.layout_eq hlayout hfits
  refine ⟨?_, ?_, ?_⟩
  · rw [hmoved.latency]
    split
    · exact hflush.1
    · exact h.layout_eq
  · rw [hmoved.latency, hmoved.workers, hsum]
    split
    · rw [hflush.2, h.size_eq, hsize]
    · rw [h.size_eq, Nat.add_zero]
  · intro other hother
    rw [hmoved.workers] at hother
    rcases List.mem_or_eq_of_mem_set hother with hold | rfl
    · exact h.recorder other hold
    · exact ⟨hlayout, hfits, hsize⟩

/-- Any event keeps the recorders, as it moves one worker at most. -/
theorem Latencies.step {layout : Layout} (h : Latencies layout p) (hmade : layout.Made)
    (e : Event) (hnow : Recordable layout e.time) : Latencies layout (p.step e) := by
  rcases p.step_cases e with ⟨hstep, -⟩ | ⟨cause, hstep, -⟩ | ⟨i, w, moved, hmoved⟩
  · rwa [hstep]
  · rw [hstep]
    exact ⟨h.layout_eq, h.size_eq, h.recorder⟩
  · exact h.move hmade hnow hmoved

/-- So does any run at whose times latencies can be recorded. -/
theorem Latencies.run {layout : Layout} (h : Latencies layout p) (hmade : layout.Made)
    (events : List Event) (hnow : ∀ e ∈ events, Recordable layout e.time) :
    Latencies layout (p.run events) := by
  induction events generalizing p with
  | nil => exact h
  | cons e rest ih =>
      exact ih (h.step hmade e (hnow e (List.mem_cons_self ..)))
        fun later hlater => hnow later (List.mem_cons_of_mem _ hlater)

/-- Once every worker has ended, the common recorder has a latency for
everything that was counted. -/
theorem Latencies.size_of_isOver {layout : Layout} (h : Latencies layout p)
    (haccounts : Accounts p log) (hover : p.isOver = true) :
    p.latency.size = log.countP (Note.counts p.retry .operations)
      + log.countP (Note.counts p.retry .errors) := by
  rw [h.size_eq, ← haccounts.tallies, ← haccounts.tallies, ← sum_map_add]
  congr 1
  refine List.map_congr_left ?_
  intro w hw
  rw [if_pos (List.all_eq_true.mp hover w hw)]
  rfl

end Pool

/-! ### Workers that have ended -/

/-- A move's notes are about the worker that moves, or about the signal. -/
theorem Move.worker?_eq (h : Move policy stopped now i w moved notes) {note : Note}
    (hnote : note ∈ notes) : note.worker? = some i ∨ note.worker? = none := by
  cases h <;> simp only [List.mem_cons, List.not_mem_nil, or_false] at hnote <;>
    rcases hnote with rfl | rfl <;> first | exact .inl rfl | exact .inr rfl

/-- A call that is dropped ends its worker: the workload is at its end, or the signal
was fired. -/
theorem Move.over_of_dropped (h : Move policy stopped now i w moved notes) {note : Note}
    (hnote : note ∈ notes) (hdropped : note.isDropped = true) : moved.phase.isOver = true := by
  cases h with
  | terminal | drop => rfl
  | finish retries status hphase hcounted =>
      obtain rfl := List.mem_singleton.mp hnote
      cases status with
      | success | error => cases hdropped
      | retry | terminal => cases hcounted
  | again retries hphase hstop hallows =>
      subst hstop
      simp only [List.mem_cons, List.not_mem_nil, or_false] at hnote
      rcases hnote with rfl | rfl <;> cases hdropped
  | rest retries hphase hstop hallows | giveUp retries hphase hstop hallows =>
      subst hstop
      obtain rfl := List.mem_singleton.mp hnote
      cases hdropped
  | begin | resume | crash =>
      obtain rfl := List.mem_singleton.mp hnote
      cases hdropped
  | leave => cases hnote

/-- Among the notes of one move, none of the worker follows a call that is
dropped. -/
theorem Move.pairwise (h : Move policy stopped now i w moved notes) :
    notes.Pairwise fun a b => a.isDropped = true → b.worker? ≠ a.worker? := by
  cases h with
  | again retries hphase hstop hallows =>
      subst hstop
      simp [Note.isDropped]
  | terminal => simp [Note.worker?]
  | leave => exact .nil
  | begin | resume | finish | drop | rest | giveUp | crash => simp

/-- A worker has broken off just when it was observed. -/
theorem Move.crashed_eq (h : Move policy stopped now i w moved notes) :
    (moved.phase == .crashed) = notes.any (Note.panics i) := by
  cases h <;> simp [Note.panics, Worker.finish]

/-- A move of one worker says nothing of the others' breaking off. -/
theorem Move.panics_of_ne (h : Move policy stopped now i w moved notes) {j : Nat} (hne : i ≠ j) :
    notes.any (Note.panics j) = false := by
  cases h <;> simp [Note.panics, hne]

namespace Pool

/-- A worker that has ended stays as it is, and nothing more is observed of it. -/
theorem worker_step_of_over (hw : p.workers[i]? = some w) (hover : w.phase.isOver = true)
    (e : Event) : (p.step e).workers[i]? = some w ∧ ∀ note ∈ p.notes e, note.worker? ≠ some i := by
  rcases p.step_cases e with ⟨hstep, hnotes⟩ | ⟨cause, hstep, hnotes⟩ | ⟨j, w', moved, hmoved⟩
  · rw [hstep, hnotes]
    exact ⟨hw, nofun⟩
  · rw [hstep, hnotes]
    exact ⟨hw, by simp [Note.worker?]⟩
  · -- Only a worker that is awake moves, so it is another one.
    have hne : j ≠ i := by
      rintro rfl
      have hsame := hmoved.here.symm.trans hw
      rw [← Option.some.inj hsame, hmoved.awake] at hover
      cases hover
    rw [hmoved.workers, List.getElem?_set_ne hne]
    refine ⟨hw, ?_⟩
    intro note hnote
    rcases hmoved.move.worker?_eq hnote with he | he <;> rw [he] <;> simp [hne]

/-- Nothing is observed of a worker that has ended, whatever happens to the others. -/
theorem worker?_log_of_over (hw : p.workers[i]? = some w) (hover : w.phase.isOver = true)
    (events : List Event) : ∀ note ∈ p.log events, note.worker? ≠ some i := by
  induction events generalizing p with
  | nil => nofun
  | cons e rest ih =>
      intro note hnote
      obtain ⟨hstay, hquiet⟩ := worker_step_of_over hw hover e
      rcases List.mem_append.mp hnote with hfirst | hrest
      · exact hquiet note hfirst
      · exact ih hstay note hrest

/-- Nothing of the same worker is observed after a call that is dropped. -/
theorem pairwise_log (p : Pool) (events : List Event) :
    (p.log events).Pairwise fun a b => a.isDropped = true → b.worker? ≠ a.worker? := by
  induction events generalizing p with
  | nil => exact .nil
  | cons e rest ih =>
      -- Within the notes of the event, within the rest, and from the one to the other.
      refine List.pairwise_append.mpr ⟨?_, ih (p.step e), ?_⟩
      · rcases p.step_cases e with ⟨-, hnotes⟩ | ⟨cause, -, hnotes⟩ | ⟨i, w, moved, hmoved⟩
        · rw [hnotes]
          exact .nil
        · rw [hnotes]
          exact List.pairwise_singleton _ _
        · exact hmoved.move.pairwise
      · intro a ha b hb hdropped
        rcases p.step_cases e with ⟨-, hnotes⟩ | ⟨cause, -, hnotes⟩ | ⟨i, w, moved, hmoved⟩
        · rw [hnotes] at ha
          cases ha
        · rw [hnotes] at ha
          obtain rfl := List.mem_singleton.mp ha
          cases hdropped
        · -- The call that is dropped has ended its worker, of which nothing follows.
          obtain ⟨hi, -⟩ := List.getElem?_eq_some_iff.mp hmoved.here
          have hmoved' : (p.step e).workers[i]? = some moved := by
            rw [hmoved.workers, List.getElem?_set_self hi]
          have hquiet := worker?_log_of_over hmoved'
            (hmoved.move.over_of_dropped ha hdropped) rest b hb
          rcases hmoved.move.worker?_eq ha with hworker | hworker
          · rwa [hworker]
          · cases a <;> simp_all [Note.worker?, Note.isDropped]

/-- The workers that have broken off are those of which it was observed. -/
def Crashes (p : Pool) (log : List Note) : Prop :=
  ∀ i w, p.workers[i]? = some w → (w.phase == .crashed) = log.any (Note.panics i)

/-- Nobody has broken off at the beginning, and nothing was observed. -/
theorem crashes_make (config : PoolConfig) (template : Recorder) (signal : StopSignal) :
    Crashes (make config template signal) [] := by
  intro i w hw
  obtain rfl := List.eq_of_mem_replicate (List.mem_of_getElem? hw)
  rfl

/-- A worker breaks off when it is observed to, and does not come back. -/
theorem Crashes.step (h : Crashes p log) (e : Event) : Crashes (p.step e) (log ++ p.notes e) := by
  rcases p.step_cases e with ⟨hstep, hnotes⟩ | ⟨cause, hstep, hnotes⟩ | ⟨i, w, moved, hmoved⟩
  · rwa [hstep, hnotes, List.append_nil]
  · intro j w hw
    rw [hstep] at hw
    rw [hnotes, List.any_append, ← h j w hw]
    simp [Note.panics]
  · intro j w' hw'
    rw [List.any_append]
    rw [hmoved.workers] at hw'
    rcases getElem?_set_cases hw' with ⟨rfl, rfl⟩ | ⟨hj, hw'⟩
    · -- The worker was awake before, so it had not broken off yet.
      rw [← h i w hmoved.here, ← hmoved.move.crashed_eq]
      have hawake := hmoved.awake
      cases hphase : w.phase <;> simp_all [Phase.isOver]
    · rw [h j w' hw', hmoved.move.panics_of_ne hj, Bool.or_false]

/-- A worker has broken off after a run just when it was observed to, by induction on
the events. -/
theorem Crashes.run (h : Crashes p log) (events : List Event) :
    Crashes (p.run events) (log ++ p.log events) := by
  induction events generalizing p log with
  | nil => rwa [Pool.log, List.append_nil]
  | cons e rest ih =>
      rw [Pool.log, ← List.append_assoc]
      exact ih (h.step e)

end Pool

/-- Counting elements is counting the places that hold them. Workers are known by their
places. -/
theorem countP_range {α : Type} (items : List α) (f : α → Bool) :
    (List.range items.length).countP (fun i => (items[i]?).any f) = items.countP f := by
  induction items with
  | nil => rfl
  | cons first rest ih =>
      rw [List.length_cons, List.range_succ_eq_map, List.countP_cons, List.countP_cons,
        List.countP_map, ← ih]
      rfl

/-- The number of workers that broke off is the number of those of which it was
observed. -/
theorem Pool.Crashes.panicked_eq (h : Pool.Crashes p log) :
    p.panicked = (List.range p.workers.length).countP fun i => log.any (Note.panics i) := by
  rw [Pool.panicked, ← countP_range]
  refine List.countP_congr ?_
  intro i hi
  have hlt := List.mem_range.mp hi
  rw [List.getElem?_eq_getElem hlt, Option.any_some, h i _ (List.getElem?_eq_getElem hlt)]

/-! ### The report -/

/-- Where no two elements of a list can both pass a test, one does at most. -/
theorem countP_le_one {α : Type} {r : α → α → Prop} {test : α → Bool} {items : List α}
    (h : items.Pairwise r) (hr : ∀ a b, r a b → test a = true → test b = false) :
    items.countP test ≤ 1 := by
  induction h with
  | nil => exact Nat.zero_le _
  | @cons a rest hall hrest ih =>
      cases htest : test a with
      | false => rwa [List.countP_cons_of_neg (by rw [htest]; nofun)]
      | true =>
          have hnone : rest.countP test = 0 := by
            refine List.countP_eq_zero.mpr ?_
            intro b hb
            rw [hr a b (hall b hb) htest]
            exact Bool.false_ne_true
          have hone : (a :: rest).countP test = 1 := by rw [List.countP_cons_of_pos htest, hnone]
          exact Nat.le_of_eq hone

namespace Pool

section Report

variable (config : PoolConfig) (template : Recorder) (signal : StopSignal) {events : List Event}
  (hover : ((make config template signal).run events).isOver = true)
include hover

/-- The totals of a pool whose workers have ended are what was observed, in
words. -/
theorem totals_run_mod (column : Column) :
    ((make config template signal).run events).totals.at column
      = ((make config template signal).log events).countP
        (Note.counts config.retry column) % 2 ^ 64 := by
  have haccounts := (accounts_make config template signal).run events
  have hretry : ((make config template signal).run events).retry = config.retry :=
    retry_run _ events
  rw [List.nil_append] at haccounts
  rw [haccounts.totals_of_isOver hover, hretry]

variable (hcalls : ((make config template signal).log events).countP Note.isReturn < 2 ^ 64)
include hcalls

/-- They are what was observed, as long as the calls can be counted. -/
theorem totals_run (column : Column) :
    ((make config template signal).run events).totals.at column
      = ((make config template signal).log events).countP
        (Note.counts config.retry column) := by
  rw [totals_run_mod config template signal hover]
  refine Nat.mod_eq_of_lt ?_
  have hsum := countP_isReturn config.retry ((make config template signal).log events)
  cases column <;> omega

/-- There are as many latencies as operations and errors together, if the time can be
recorded. -/
theorem size_run (hmade : template.histogram.layout.Made)
    (hnow : ∀ e ∈ events, Recordable template.histogram.layout e.time) :
    ((make config template signal).run events).latency.size
      = ((make config template signal).run events).totals.operations
        + ((make config template signal).run events).totals.errors := by
  have haccounts := (accounts_make config template signal).run events
  have hlatencies := (latencies_make config template signal).run hmade events hnow
  have hoperations := totals_run config template signal hover hcalls .operations
  have herrors := totals_run config template signal hover hcalls .errors
  have hretry : ((make config template signal).run events).retry = config.retry :=
    retry_run _ events
  rw [List.nil_append] at haccounts
  rw [hlatencies.size_of_isOver haccounts hover, hretry, ← hoperations, ← herrors]
  rfl

end Report

/-- Each worker that broke off was observed to, and no other was. -/
theorem panicked_run (config : PoolConfig) (template : Recorder) (signal : StopSignal)
    (events : List Event) :
    ((make config template signal).run events).panicked
      = (List.range config.concurrency).countP fun i =>
        ((make config template signal).log events).any (Note.panics i) := by
  have hcrashes := (crashes_make config template signal).run events
  have hlength : ((make config template signal).run events).workers.length
      = config.concurrency := (length_run _ events).trans List.length_replicate
  rw [hcrashes.panicked_eq, hlength, List.nil_append]

/-- At most one call of a worker is dropped, as it ends with that. -/
theorem dropped_le_one (p : Pool) (events : List Event) (i : Nat) :
    (p.log events).countP (fun note => note.isDropped && note.worker? == some i) ≤ 1 := by
  refine countP_le_one (p.pairwise_log events) ?_
  intro a b hlast ha
  simp only [Bool.and_eq_true, beq_iff_eq] at ha
  have hother := hlast ha.1
  rw [ha.2] at hother
  rw [beq_eq_false_iff_ne.mpr hother, Bool.and_false]

end Pool

namespace Session

/-- What a report counts is what was observed of the session, in words. -/
theorem totals_report_mod {config : PoolConfig} {template : Recorder} {signal : StopSignal}
    {events : List Event} {report : PoolReport}
    (hreport : ((start config template signal).run events).report? = some report)
    (column : Column) :
    report.totals.at column
      = ((start config template signal).log events).countP (Note.counts config.retry column)
        % 2 ^ 64 := by
  obtain ⟨hover, rfl⟩ := report_run (report?_start config template signal) hreport
  rw [pool_run, pool_start] at hover
  show ((start config template signal).run events).pool.totals.at column = _
  rw [log_eq, pool_run, pool_start]
  exact Pool.totals_run_mod config template signal hover column

/-- What a report says is what was observed, for any number of workers and
any order of events: as many operations as calls returned a success; as many
errors as calls returned an error or met contention with no retry left; as
many retries as were granted; as many panicked workers as had a call break
off. Each operation and each error has its latency in the recorder, unless the
range of the recorder goes beyond the words and the run did so, too.

Each call that returned is in one of these counts or is dropped, and a call
that is dropped, having met the end of the workload or met contention after
the signal, is the last that is observed of its worker.

Neither bound leaves out a run that can take place. The counters are words, so they
count calls as long as these are fewer than `2 ^ 64` (`hcalls`); with one call in every
nanosecond that is enough for five centuries. The time of a run, which matters only to
a recorder whose range goes beyond half of the words, is measured by a clock that only
goes forward, from the beginning of the run: it would take more than half a million
years of running until that is `wordMax` microseconds. -/
theorem session_accounting (limits : LatencyConfig) (template : Recorder)
    (hrange : Layout.make limits.maxMicros limits.significantFigures
      = .ok template.histogram.layout)
    (config : PoolConfig) (signal : StopSignal) (events : List Event) (report : PoolReport)
    (hreport : ((start config template signal).run events).report? = some report)
    (hcalls : ((start config template signal).log events).countP Note.isReturn < 2 ^ 64) :
    let log := (start config template signal).log events
    report.totals.operations = log.countP (Note.returns .success) ∧
    report.totals.errors
      = log.countP (Note.returns .error) + log.countP (Note.givesUp config.retry) ∧
    report.totals.transientRetries = log.countP (Note.grants config.retry) ∧
    (limits.maxMicros < 2 ^ 63 ∨ report.total.micros < wordMax →
      report.latency.size = report.totals.operations + report.totals.errors) ∧
    report.panicked
      = (List.range config.concurrency).countP (fun i => log.any (Note.panics i)) ∧
    log.countP Note.isReturn = report.totals.operations + report.totals.errors
      + report.totals.transientRetries + log.countP Note.isDropped ∧
    log.Pairwise (fun a b => a.isDropped = true → b.worker? ≠ a.worker?) ∧
    ∀ i, log.countP (fun note => note.isDropped && note.worker? == some i) ≤ 1 := by
  obtain ⟨hmade, hgreatest⟩ := Layout.made_of_make hrange
  -- The report is that of the pool, which has gone through the trace of the session.
  obtain ⟨hover, rfl⟩ := report_run (report?_start config template signal) hreport
  have htime := time_trace (start config template signal) events
  rw [log_eq, pool_start] at hcalls ⊢
  rw [pool_run, pool_start] at hover
  simp only [PoolReport.ofPool]
  rw [pool_run, pool_start]
  have htotals := Pool.totals_run config template signal hover hcalls
  refine ⟨htotals .operations, ?_, htotals .retries, fun hlimit => ?_,
    Pool.panicked_run _ _ _ _, ?_, Pool.pairwise_log _ _, Pool.dropped_le_one _ _⟩
  · exact (htotals .errors).trans (countP_errors config.retry _)
  · -- No latency is longer than the session, whose time the report gives.
    refine Pool.size_run config template signal hover hcalls hmade ?_
    intro e he
    refine Pool.Recordable.le ?_ (htime e he)
    rcases hlimit with hrange | hshort
    · exact .inr (hmade.reach_le (hgreatest ▸ hrange))
    · exact .inl hshort
  · -- A call that returned is in one of the columns, or dropped.
    refine (countP_isReturn config.retry _).trans ?_
    rw [← htotals .operations, ← htotals .errors, ← htotals .retries]
    rfl

/-- A conflict that is retried, a worker that breaks off, a second conflict at
the ceiling, a success, and a conflict that comes back after the grace. -/
def roughDay : List Event :=
  [ .proceed 0, .proceed 1, .answer 0 .retry, .crash 1, .answer 0 .retry, .proceed 0,
    .answer 0 .success, .proceed 0, .pass (.ofSeconds 1), .alarm, .notice,
    .pass (.ofSeconds 9), .lapse, .answer 0 .retry, .join ]

/-- Two workers for a second, with one retry each time. -/
def roughConfig : PoolConfig :=
  { concurrency := 2, deadline := some (.ofSeconds 1), retry := { maxRetries := some 1 } }

/-- Latencies up to a minute with three digits, as they are usually recorded. -/
def roughRecorder : Recorder := ⟨.empty ⟨11, 16, 60000000⟩⟩

/-- One worker breaks off at once. The other gives up once, succeeds once, and is in
contention again after the grace. -/
theorem session_accounting_rough :
    Layout.make 60000000 3 = .ok roughRecorder.histogram.layout ∧
    ∃ report, ((start roughConfig roughRecorder {}).run roughDay).report? = some report ∧
      report.totals.operations = 1 ∧ report.totals.errors = 1 ∧
      report.totals.transientRetries = 1 ∧ report.latency.size = 2 ∧ report.panicked = 1 ∧
      ((start roughConfig roughRecorder {}).log roughDay).countP Note.isReturn = 4 := by
  have hrange : Layout.make 60000000 3 = .ok roughRecorder.histogram.layout := rfl
  obtain ⟨hoperations, herrors, hretries, hsize, hpanicked, -, -, -⟩ :=
    session_accounting {} roughRecorder hrange roughConfig {} roughDay _ rfl (by decide)
  refine ⟨hrange, _, rfl, hoperations.trans (by decide), herrors.trans (by decide),
    hretries.trans (by decide), ?_, hpanicked.trans (by decide), by decide⟩
  rw [hsize (.inl (by decide)), hoperations, herrors]
  decide

end Session

end StoreBench
