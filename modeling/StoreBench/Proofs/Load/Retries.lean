import Mathlib.Data.List.Induction
import StoreBench.Proofs.Load.Accounting

/-!
# `StoreBench.Proofs.Load.Retries`: the calls of one worker

A worker goes through its logical attempts one after the other. `Course` is one of
them as its calls show it: some calls that met contention before the signal, and one
more, the last, with what became of it. So a list of courses says which calls there
were, with what numbers and in what order (`Course.log`), and also what the attempts
count as.

The invariant is `Worker.Conducts`. What is observed of a worker is the log of its
courses. Those that it has finished are counted, one more is under way or was left off,
and which it is can be told from the phase of the worker (`Phase.Leaves`). `Move.conducts`
is the case analysis, one case for each way to move. The moves of other workers leave no
notes of this one.
-/

set_option autoImplicit false

namespace StoreBench

/-- The call that a note says begins, if it says so. -/
def Note.began? : Note → Option Try
  | began t => some t
  | returned _ _ _ | panicked _ | fired _ => none

/-- A note is about this worker. Those about the signal are about none. -/
def Note.isOf (i : Nat) (note : Note) : Bool := note.worker? == some i

/-! ### Courses -/

/-- What has become of a call. The last one of an attempt may be under way. -/
inductive Ending
  /-- It has not returned. -/
  | pending
  /-- It returned, before or after the signal was fired. -/
  | returned (status : Status) (stopped : Bool)
  /-- It broke off. -/
  | panicked
deriving DecidableEq, Repr

/-- The note of the end of a call. -/
def Ending.notes (t : Try) : Ending → List Note
  | pending => []
  | returned status stopped => [.returned t status stopped]
  | panicked => [.panicked t]

/-- A logical attempt as its calls show it: as many calls as there were retries met
contention before the signal, and one more ended like this. -/
structure Course where
  retries : Nat
  ending : Ending
deriving DecidableEq, Repr

namespace Course

/-- The calls of an attempt, which are numbered from zero. -/
def tries (i n : Nat) (c : Course) : List Try :=
  (List.range (c.retries + 1)).map fun k => ⟨i, n, k⟩

/-- What is observed of so many calls that met contention. -/
def met (i n retries : Nat) : List Note :=
  (List.range retries).flatMap fun k => [.began ⟨i, n, k⟩, .returned ⟨i, n, k⟩ .retry false]

/-- What is observed of an attempt: what met contention first, then the last call and
its end. -/
def notes (i n : Nat) (c : Course) : List Note :=
  met i n c.retries ++ .began ⟨i, n, c.retries⟩ :: c.ending.notes ⟨i, n, c.retries⟩

/-- What is observed of attempts that are numbered in their order. -/
def log (i : Nat) (courses : List Course) : List Note :=
  courses.zipIdx.flatMap fun entry => entry.1.notes i entry.2

section Counting

variable (policy : RetryPolicy)

/-- The last call returned a success, so that the attempt is counted as one. -/
def succeeds (c : Course) : Bool :=
  match c.ending with
  | .returned .success _ => true
  | _ => false

/-- The last call returned an error, or it met contention before the signal when all
retries had been made. -/
def fails (c : Course) : Bool :=
  match c.ending with
  | .returned .error _ => true
  | .returned .retry false => policy.maxRetries == some c.retries
  | _ => false

/-- The retries that were granted: those that were made, and one that was not begun any
more. -/
def granted (c : Course) : Nat :=
  match c.ending with
  | .returned .retry false => c.retries + if policy.maxRetries = some c.retries then 0 else 1
  | _ => c.retries

/-- What an attempt adds to a counter. Every call of it that met contention before the
signal is a retry, if another was allowed. -/
def share : Column → Course → Nat
  | .operations, c => if c.succeeds then 1 else 0
  | .errors, c => if c.fails policy then 1 else 0
  | .retries, c => c.granted policy

/-- What attempts add to a counter together. -/
def total : Column → List Course → Nat
  | .operations, courses => courses.countP succeeds
  | .errors, courses => courses.countP (fails policy)
  | .retries, courses => (courses.map (granted policy)).sum

/-- One attempt more adds its share. -/
theorem total_concat (column : Column) (courses : List Course) (c : Course) :
    total policy column (courses ++ [c]) = total policy column courses + share policy column c := by
  cases column <;> simp [total, share, List.countP_append, List.countP_singleton]

/-- Each retry was allowed by the ceiling, from the first on. -/
def Within (c : Course) : Prop := ∀ k < c.retries, policy.allows k = true

end Counting

variable {policy : RetryPolicy} {i n k : Nat} {c : Course}

/-- One call more that met contention. -/
theorem met_succ (i n k : Nat) :
    met i n (k + 1) = met i n k ++ [.began ⟨i, n, k⟩, .returned ⟨i, n, k⟩ .retry false] := by
  simp [met, List.range_succ]

/-- No more retries than the ceiling. Without a ceiling there may be any number. -/
theorem Within.le (h : c.Within policy) {most : Nat} (hmost : policy.maxRetries = some most) :
    c.retries ≤ most := by
  cases hretries : c.retries with
  | zero => exact Nat.zero_le most
  | succ k =>
      -- The last of them was allowed, so it was below the ceiling.
      have hallows := h k (by omega)
      simp only [RetryPolicy.allows, hmost, decide_eq_true_eq] at hallows
      exact hallows

/-- There is no other retry just when all of them have been made. -/
theorem Within.allows_eq (h : c.Within policy) :
    policy.allows c.retries = !(policy.maxRetries == some c.retries) := by
  cases hmost : policy.maxRetries with
  | none => simp [RetryPolicy.allows, hmost]
  | some most =>
      have hle := h.le hmost
      simp only [RetryPolicy.allows, hmost, Option.some_beq_some]
      rcases Nat.lt_or_eq_of_le hle with hlt | heq
      · simp [hlt, Nat.ne_of_gt hlt]
      · simp [heq]

/-- The notes of an attempt are those while it was pending, and of its end. -/
theorem notes_eq (i n : Nat) (c : Course) :
    c.notes i n = (⟨c.retries, .pending⟩ : Course).notes i n
      ++ c.ending.notes ⟨i, n, c.retries⟩ := by
  simp [notes, Ending.notes]

/-- A retry goes on from the call that met contention. -/
theorem notes_succ (i n k : Nat) :
    (⟨k + 1, .pending⟩ : Course).notes i n
      = (⟨k, .returned .retry false⟩ : Course).notes i n ++ [.began ⟨i, n, k + 1⟩] := by
  simp [notes, Ending.notes, met_succ]

/-- One attempt more, with the next number, adds its notes to the end. -/
theorem log_concat (i : Nat) (courses : List Course) (c : Course) :
    log i (courses ++ [c]) = log i courses ++ c.notes i courses.length := by
  simp [log, List.zipIdx_append]

/-- The end of the last call is observed after all else. -/
theorem log_ends (i k : Nat) (courses : List Course) (ending : Ending) :
    log i (courses ++ [⟨k, ending⟩])
      = log i (courses ++ [⟨k, .pending⟩]) ++ ending.notes ⟨i, courses.length, k⟩ := by
  rw [log_concat, notes_eq, log_concat, List.append_assoc]

/-- Each call that met contention and was retried counts as a retry, and as nothing
else. -/
theorem countP_met (i n : Nat) {retries : Nat} (h : ∀ k < retries, policy.allows k = true)
    (column : Column) :
    (met i n retries).countP (Note.counts policy column) = match column with
      | .operations | .errors => 0
      | .retries => retries := by
  induction retries with
  | zero => cases column <;> rfl
  | succ k ih =>
      have hallows : policy.allows k = true := h k (Nat.lt_succ_self k)
      rw [met_succ, List.countP_append, ih fun m hm => h m (Nat.lt_succ_of_lt hm)]
      cases column <;> simp [Note.counts, Note.returns, Note.givesUp, Note.grants, hallows]

/-- The notes of an attempt count what the attempt counts as. -/
theorem countP_notes (h : c.Within policy) (column : Column) :
    (c.notes i n).countP (Note.counts policy column) = c.share policy column := by
  have hallows := h.allows_eq
  rw [notes, List.countP_append, countP_met i n h]
  cases hending : c.ending with
  | pending | panicked =>
      cases column <;>
        simp [share, succeeds, fails, granted, Ending.notes, hending, Note.counts, Note.returns,
          Note.givesUp, Note.grants]
  | returned status stopped =>
      -- Contention counts by the signal and the ceiling, anything else by the status alone.
      cases status <;> cases stopped <;> cases column <;>
        simp [share, succeeds, fails, granted, Ending.notes, hending, Note.counts, Note.returns,
          Note.givesUp, Note.grants, hallows]

/-- The notes of all attempts of a worker count what the attempts count as together, by
induction on their list. -/
theorem countP_log (i : Nat) {courses : List Course} (h : ∀ c ∈ courses, c.Within policy)
    (column : Column) :
    (log i courses).countP (Note.counts policy column) = total policy column courses := by
  induction courses using List.reverseRecOn with
  | nil => cases column <;> rfl
  | append_singleton courses c ih =>
      obtain ⟨hbefore, hlast⟩ := List.forall_mem_append.mp h
      rw [log_concat, List.countP_append, ih hbefore, total_concat,
        countP_notes (hlast c List.mem_cons_self)]

/-- Calls that met contention began with the numbers from zero on. -/
theorem began_met (i n retries : Nat) :
    (met i n retries).filterMap Note.began? = (List.range retries).map fun k => ⟨i, n, k⟩ := by
  induction retries with
  | zero => rfl
  | succ k ih => simp [met_succ, ih, List.range_succ, Note.began?]

/-- All calls of an attempt began with the numbers from zero on, the last one included. -/
theorem began_notes (i n : Nat) (c : Course) :
    (c.notes i n).filterMap Note.began? = c.tries i n := by
  have hlast : (c.ending.notes ⟨i, n, c.retries⟩).filterMap Note.began? = [] := by
    cases c.ending <;> rfl
  rw [notes, List.filterMap_append, began_met, tries, List.range_succ, List.map_append]
  simp [Note.began?, hlast]

/-- The calls that begin are those of the attempts, in their order. -/
theorem began_log (i : Nat) (courses : List Course) :
    (log i courses).filterMap Note.began?
      = courses.zipIdx.flatMap fun entry => entry.1.tries i entry.2 := by
  rw [log]
  generalize courses.zipIdx = entries
  induction entries with
  | nil => rfl
  | cons entry rest ih =>
      rw [List.flatMap_cons, List.filterMap_append, ih, began_notes, List.flatMap_cons]

end Course

/-! ### One worker -/

/-- What the phase of a worker says of the attempt that it has not finished. -/
def Phase.Leaves (policy : RetryPolicy) : Phase → Option Course → Prop
  | .ready, last => last = none
  | .trying k, last => last = some ⟨k, .pending⟩
  | .resting k, last =>
    ∃ done, k = done + 1 ∧ policy.allows done = true ∧ last = some ⟨done, .returned .retry false⟩
  | .left, _ | .crashed, _ => True

/-- The attempts that a worker has made: those that it has finished, and one that it has
not, if there is one. -/
structure Worker.Conducts (policy : RetryPolicy) (i : Nat) (w : Worker) (notes : List Note)
    (done : List Course) (last : Option Course) : Prop where
  notes_eq : notes = Course.log i (done ++ last.toList)
  iteration : w.iteration = done.length
  counted : ∀ c ∈ done, (c.succeeds || c.fails policy) = true
  within : ∀ c ∈ done ++ last.toList, c.Within policy
  phase : w.phase.Leaves policy last

section Moves

variable {policy : RetryPolicy} {stopped : Bool} {now : Span} {i k : Nat} {w moved : Worker}
  {notes log : List Note} {done : List Course} {last : Option Course} {p : Pool}

/-- The attempt that a worker in a call is in. -/
theorem Worker.Conducts.last_eq (h : w.Conducts policy i log done last)
    (htry : w.phase = .trying k) : last = some ⟨k, .pending⟩ := by
  have hphase := h.phase
  rwa [htry] at hphase

/-- Its retries were allowed, whatever becomes of the call. -/
theorem Worker.Conducts.within_last {ending next : Ending}
    (h : w.Conducts policy i log done (some ⟨k, ending⟩)) :
    ∀ c ∈ done ++ [⟨k, next⟩], c.Within policy := by
  intro c hc
  rcases List.mem_append.mp hc with hdone | hlast
  · exact h.within c (List.mem_append_left _ hdone)
  · obtain rfl := List.mem_singleton.mp hlast
    exact h.within ⟨k, ending⟩ (List.mem_append_right _ (by simp))

/-- The call of a worker ends, and the attempt is not finished by that. -/
theorem Worker.Conducts.leaves (h : w.Conducts policy i log done last)
    (htry : w.phase = .trying k) (after : Worker) (hiteration : after.iteration = w.iteration)
    (ending : Ending) (hphase : after.phase.Leaves policy (some ⟨k, ending⟩)) :
    after.Conducts policy i (log ++ ending.notes ⟨i, w.iteration, k⟩) done
      (some ⟨k, ending⟩) := by
  obtain rfl := h.last_eq htry
  refine ⟨?_, hiteration.trans h.iteration, h.counted, h.within_last, hphase⟩
  rw [h.notes_eq, h.iteration]
  exact (Course.log_ends i k done ending).symm

/-- The call of a worker ends, and with it the attempt. -/
theorem Worker.Conducts.finishes (h : w.Conducts policy i log done last)
    (htry : w.phase = .trying k) (status : Status) (now : Span) (ending : Ending)
    (hcounted : ((⟨k, ending⟩ : Course).succeeds || (⟨k, ending⟩ : Course).fails policy) = true) :
    (w.finish status now).Conducts policy i (log ++ ending.notes ⟨i, w.iteration, k⟩)
      (done ++ [⟨k, ending⟩]) none := by
  obtain rfl := h.last_eq htry
  refine ⟨?_, ?_, ?_, ?_, rfl⟩
  · rw [h.notes_eq, h.iteration, Option.toList_none, List.append_nil]
    exact (Course.log_ends i k done ending).symm
  · rw [List.length_append, ← h.iteration]
    rfl
  · exact List.forall_mem_append.mpr ⟨h.counted, List.forall_mem_singleton.mpr hcounted⟩
  · rw [Option.toList_none, List.append_nil]
    exact h.within_last

/-- Another call of an attempt begins after one that met contention. -/
theorem Worker.Conducts.retries
    (h : w.Conducts policy i log done (some ⟨k, .returned .retry false⟩))
    (hallows : policy.allows k = true) (after : Worker)
    (hiteration : after.iteration = w.iteration) (hphase : after.phase = .trying (k + 1)) :
    after.Conducts policy i (log ++ [.began ⟨i, w.iteration, k + 1⟩]) done
      (some ⟨k + 1, .pending⟩) := by
  obtain ⟨hdone, hlast⟩ := List.forall_mem_append.mp h.within
  refine ⟨?_, hiteration.trans h.iteration, h.counted, ?_, ?_⟩
  · simp only [h.notes_eq, h.iteration, Option.toList_some, Course.log_concat, Course.notes_succ,
      List.append_assoc]
  · refine List.forall_mem_append.mpr ⟨hdone, List.forall_mem_singleton.mpr ?_⟩
    intro m hm
    rcases Nat.lt_or_eq_of_le (Nat.le_of_lt_succ hm) with hlt | heq
    · exact hlast _ List.mem_cons_self m hlt
    · rwa [heq]
  · rw [hphase]
    rfl

/-- A move goes on with the attempts of a worker. -/
theorem Move.conducts (h : Move policy stopped now i w moved notes)
    (hw : w.Conducts policy i log done last) :
    ∃ done last, moved.Conducts policy i (log ++ notes.filter (Note.isOf i)) done last := by
  cases h with
  | begin hphase hstop =>
      -- The worker has finished all of its attempts, and the first call is not a retry.
      have hlast : last = none := by
        have hleaves := hw.phase
        rwa [hphase] at hleaves
      subst hlast
      have hwithin := hw.within
      rw [Option.toList_none, List.append_nil] at hwithin
      refine ⟨done, some ⟨0, .pending⟩, ?_, hw.iteration, hw.counted, ?_, rfl⟩
      · simp [hw.notes_eq, hw.iteration, Course.log_concat, Course.notes, Course.met, Ending.notes,
          Note.isOf, Note.worker?]
      · refine List.forall_mem_append.mpr ⟨hwithin, List.forall_mem_singleton.mpr ?_⟩
        intro m hm
        exact (Nat.not_lt_zero m hm).elim
  | resume retries hphase hstop =>
      obtain ⟨k, rfl, hallows, rfl⟩ : ∃ k, retries = k + 1 ∧ policy.allows k = true ∧
          last = some ⟨k, .returned .retry false⟩ := by
        have hleaves := hw.phase
        rwa [hphase] at hleaves
      have hnext := hw.retries hallows { w with phase := .trying (k + 1) } rfl rfl
      exact ⟨done, _, by simpa [Note.isOf, Note.worker?] using hnext⟩
  | leave htry hstop =>
      -- An attempt that was left in a pause stays as it is.
      refine ⟨done, last, ?_, hw.iteration, hw.counted, hw.within, trivial⟩
      rw [List.filter_nil, List.append_nil]
      exact hw.notes_eq
  | finish retries status hphase hcounted =>
      have hcourse : ((⟨retries, .returned status stopped⟩ : Course).succeeds
          || (⟨retries, .returned status stopped⟩ : Course).fails policy) = true := by
        cases status with
        | success | error => rfl
        | retry | terminal => cases hcounted
      have hnext := hw.finishes hphase status now (.returned status stopped) hcourse
      exact ⟨_, _, by simpa [Note.isOf, Note.worker?, Ending.notes] using hnext⟩
  | terminal retries hphase =>
      have hnext := hw.leaves hphase { w with phase := .left } rfl
        (.returned .terminal stopped) trivial
      exact ⟨done, _, by simpa [Note.isOf, Note.worker?, Ending.notes] using hnext⟩
  | drop retries hphase hstop =>
      have hnext := hw.leaves hphase { w with phase := .left } rfl
        (.returned .retry stopped) trivial
      exact ⟨done, _, by simpa [Note.isOf, Note.worker?, Ending.notes] using hnext⟩
  | again retries hphase hstop hallows =>
      subst hstop
      -- It is as if the worker had paused and gone on at once.
      have hmet := hw.leaves hphase { w with phase := .resting (retries + 1) } rfl
        (.returned .retry false) ⟨retries, rfl, hallows, rfl⟩
      have hnext := hmet.retries hallows { w with
        tally := w.tally.observe .retry, phase := .trying (retries + 1) } rfl rfl
      exact ⟨done, _, by simpa [Note.isOf, Note.worker?, Ending.notes] using hnext⟩
  | rest retries hphase hstop hallows =>
      subst hstop
      have hnext := hw.leaves hphase { w with
        tally := w.tally.observe .retry, phase := .resting (retries + 1) } rfl
        (.returned .retry false) ⟨retries, rfl, hallows, rfl⟩
      exact ⟨done, _, by simpa [Note.isOf, Note.worker?, Ending.notes] using hnext⟩
  | giveUp retries hphase hstop hallows =>
      subst hstop
      -- No other retry is allowed, so all of them have been made.
      have hwithin : (⟨retries, .pending⟩ : Course).Within policy := by
        refine hw.within _ (List.mem_append_right _ ?_)
        rw [hw.last_eq hphase]
        exact List.mem_cons_self
      have hmost := hwithin.allows_eq
      rw [hallows] at hmost
      have hnext := hw.finishes hphase .error now (.returned .retry false)
        (by simpa [Course.succeeds, Course.fails] using hmost.symm)
      exact ⟨_, _, by simpa [Note.isOf, Note.worker?, Ending.notes] using hnext⟩
  | crash retries hphase =>
      have hnext := hw.leaves hphase { w with phase := .crashed } rfl .panicked trivial
      exact ⟨done, _, by simpa [Note.isOf, Note.worker?, Ending.notes] using hnext⟩

/-- What a worker has counted goes by the notes about it. -/
theorem Move.tally_filter (h : Move policy stopped now i w moved notes) (column : Column) :
    moved.tally.at column
      = w.tally.at column + (notes.filter (Note.isOf i)).countP (Note.counts policy column) := by
  rw [h.tally column, List.countP_filter]
  congr 1
  refine List.countP_congr fun note hnote => ?_
  rcases h.worker?_eq hnote with hworker | hworker
  · simp [Note.isOf, hworker]
  · -- Nobody's note is one of the signal, which counts as nothing.
    cases note with
    | began | returned | panicked => cases hworker
    | fired => cases column <;> simp [Note.counts, Note.returns, Note.givesUp, Note.grants]

namespace Pool

/-- The notes about each worker show its attempts, and it has counted them. -/
def Conducted (p : Pool) (log : List Note) : Prop :=
  ∀ i w, p.workers[i]? = some w →
    (∀ column, w.tally.at column
      = (log.filter (Note.isOf i)).countP (Note.counts p.retry column)) ∧
    ∃ done last, w.Conducts p.retry i (log.filter (Note.isOf i)) done last

/-- A new pool has begun no attempt. -/
theorem conducted_make (config : PoolConfig) (template : Recorder) (signal : StopSignal) :
    Conducted (make config template signal) [] := by
  intro i w hw
  obtain rfl := List.eq_of_mem_replicate (List.mem_of_getElem? hw)
  refine ⟨fun column => by cases column <;> rfl, [], none, rfl, rfl, nofun, nofun, rfl⟩

/-- One event moves one worker, whose last attempt goes on, ends, or is followed by a
new one. -/
theorem Conducted.step (h : Conducted p log) (e : Event) :
    Conducted (p.step e) (log ++ p.notes e) := by
  rcases p.step_cases e with ⟨hstep, hnotes⟩ | ⟨cause, hstep, hnotes⟩ | ⟨i, w, moved, hmoved⟩
  · rwa [hstep, hnotes, List.append_nil]
  · -- Nobody's note adds nothing to those about a worker.
    have hquiet (j : Nat) : (log ++ [Note.fired cause]).filter (Note.isOf j)
        = log.filter (Note.isOf j) := by
      rw [List.filter_append]
      exact List.append_nil _
    intro j w hw
    rw [hstep] at hw ⊢
    rw [hnotes, hquiet]
    exact h j w hw
  · intro j w' hw'
    rw [hmoved.workers] at hw'
    rw [hmoved.retry, List.filter_append]
    rcases getElem?_set_cases hw' with ⟨rfl, rfl⟩ | ⟨hj, hw'⟩
    · obtain ⟨htally, done, last, hconducts⟩ := h i w hmoved.here
      refine ⟨fun column => ?_, hmoved.move.conducts hconducts⟩
      rw [hmoved.move.tally_filter, htally, List.countP_append]
    · have hquiet : (p.notes e).filter (Note.isOf j) = [] := by
        rw [List.filter_eq_nil_iff]
        intro note hnote
        rcases hmoved.move.worker?_eq hnote with he | he <;> simp [Note.isOf, he, hj]
      rw [hquiet, List.append_nil]
      exact h j w' hw'

/-- So every worker conducts its attempts in any run. -/
theorem Conducted.run (h : Conducted p log) (events : List Event) :
    Conducted (p.run events) (log ++ p.log events) := by
  induction events generalizing p log with
  | nil => rwa [Pool.log, List.append_nil]
  | cons e rest ih =>
      rw [Pool.log, ← List.append_assoc]
      exact ih (h.step e)

end Pool

end Moves

/-! ### The session -/

namespace Session

/-- How a worker goes about retries, for any policy, whatever its calls return and
whenever the signal is fired. All that is observed of it are attempts in their order.
The calls that begin are numbered from zero in each attempt, and each call but the last
of an attempt met contention before the signal. There are no more retries than the
ceiling, and each attempt but the last that was begun is counted.

An attempt is an operation or an error by what its last call returned; one whose last
call met contention is an error just when the signal had not been fired and all retries
had been made. The tally of the worker is that of its attempts, and the retries in it are
those that were granted. -/
theorem retry_discipline (config : PoolConfig) (template : Recorder) (signal : StopSignal)
    (events : List Event) {i : Nat} {w : Worker}
    (hw : ((start config template signal).run events).pool.workers[i]? = some w) :
    let log := ((start config template signal).log events).filter (Note.isOf i)
    ∃ courses : List Course,
      log = Course.log i courses ∧
      log.filterMap Note.began?
        = (courses.zipIdx.flatMap fun entry => entry.1.tries i entry.2) ∧
      (∀ c ∈ courses, ∀ most, config.retry.maxRetries = some most → c.retries ≤ most) ∧
      (∀ c ∈ courses.dropLast, (c.succeeds || c.fails config.retry) = true) ∧
      w.tally.operations = courses.countP Course.succeeds ∧
      w.tally.errors = courses.countP (Course.fails config.retry) ∧
      w.tally.transientRetries = (courses.map (Course.granted config.retry)).sum := by
  have hconducted := (Pool.conducted_make config template signal).run
    ((start config template signal).trace events)
  rw [pool_run, pool_start] at hw
  rw [List.nil_append] at hconducted
  -- A worker has conducted its attempts, the last of which may be unfinished.
  obtain ⟨htally, done, last, hconducts⟩ := hconducted i w hw
  have hretry : ((Pool.make config template signal).run
      ((start config template signal).trace events)).retry = config.retry := Pool.retry_run _ _
  rw [hretry] at htally hconducts
  have hcounts (column : Column) : w.tally.at column
      = Course.total config.retry column (done ++ last.toList) := by
    rw [htally, hconducts.notes_eq, Course.countP_log i hconducts.within]
  intro log
  have hlog : log = Course.log i (done ++ last.toList) := by
    show ((start config template signal).log events).filter _ = _
    rw [log_eq, pool_start]
    exact hconducts.notes_eq
  refine ⟨done ++ last.toList, hlog, ?_, fun c hc most => (hconducts.within c hc).le, ?_,
    hcounts .operations, hcounts .errors, hcounts .retries⟩
  · rw [hlog]
    exact Course.began_log i _
  · intro c hc
    refine hconducts.counted c ?_
    -- Those before the last are done, and so is the last one if nothing is unfinished.
    cases last with
    | none =>
        rw [Option.toList_none, List.append_nil] at hc
        exact (List.dropLast_sublist _).subset hc
    | some unfinished =>
        rwa [Option.toList_some, List.dropLast_concat] at hc

/-- On a rough day the first worker makes three attempts of four calls: one with all of
its retries that fails, one that succeeds, and one that meets contention too late. -/
theorem retry_discipline_rough :
    ∃ w, ((start roughConfig roughRecorder {}).run roughDay).pool.workers[0]? = some w ∧
      ∃ courses : List Course,
        ((start roughConfig roughRecorder {}).log roughDay).filter (Note.isOf 0)
          = Course.log 0 courses ∧
        (courses.zipIdx.flatMap fun entry => entry.1.tries 0 entry.2)
          = [⟨0, 0, 0⟩, ⟨0, 0, 1⟩, ⟨0, 1, 0⟩, ⟨0, 2, 0⟩] ∧
        courses.countP Course.succeeds = 1 ∧ courses.countP (Course.fails roughConfig.retry) = 1 ∧
        (courses.map (Course.granted roughConfig.retry)).sum = 1 := by
  obtain ⟨courses, hlog, hbegan, -, -, hoperations, herrors, hretries⟩ :=
    retry_discipline roughConfig roughRecorder {} roughDay (i := 0) rfl
  exact ⟨_, rfl, courses, hlog, hbegan.symm.trans (by decide), hoperations.symm, herrors.symm,
    hretries.symm⟩

end Session

end StoreBench
