import Mathlib.Data.List.ReduceOption
import StoreBench.Proofs.Document.Traffic

/-!
# `StoreBench.Proofs.Document.Faults`: which write meets which fault

A step reaches its point of no return when it is a commit of an open transaction or a
writing command by itself on a connected server (`Traffic.reaches`). Such a step takes
the first fault off the queue before anything else is checked, and fails just as the
fault says. No other step takes one.

A `Watch` is kept beside a run. It notes the faults that were ever queued, what each
step that reached its point of no return found at the head of the queue, and what
became of each operation that is counted. `Traffic.Watched` is what every step keeps:
the faults that were met, followed by those that are pending, are all that were queued,
and the counters count what is noted.

The writes meet the faults in the order of the queue (`Traffic.faults_in_order`). The
number of a write is not that of its fault once a write found the queue empty
(`Traffic.not_always_same_number`).
-/

set_option autoImplicit false

namespace StoreBench

/-! ### The server -/

namespace Server

variable {s : Server}

/-- The error that the next write meets, if the fault at the head makes one. -/
def fault? (s : Server) : Option BenchError := s.faults.head?.bind Fault.error?

/-- Taking a fault takes the head of the queue, also where the fault is none that makes
an error. -/
theorem takeFault_eq (s : Server) :
    s.takeFault = ({ s with faults := s.faults.tail }, s.fault?) := by
  obtain ⟨store, faults, connected, counters, latency⟩ := s
  cases faults <;> rfl

end Server

/-- Enters what became of an operation, if it is counted. -/
def Counters.enter (c : Counters) : Option (Except BenchError Unit) → Counters
  | none => c
  | some (.ok ()) => c.committed
  | some (.error e) => c.failed e

/-- Whether an operation failed for contention, which has a counter of its own. -/
def Ended.isConflict : Except BenchError Unit → Bool
  | .error (.conflict _ _) => true
  | _ => false

section Enter

variable (c : Counters) (result : Option (Except BenchError Unit))

/-- A success is a commit. -/
theorem Counters.commits_enter :
    (c.enter result).commits = c.commits + result.toList.countP Except.isOk := by
  rcases result with _ | (e | ⟨⟨⟩⟩) <;> rfl

/-- Any failure is a rollback, one for contention too. -/
theorem Counters.rollbacks_enter :
    (c.enter result).rollbacks = c.rollbacks + result.toList.countP fun r => !r.isOk := by
  rcases result with _ | (e | ⟨⟨⟩⟩) <;> rfl

/-- A failure for contention is a conflict besides. -/
theorem Counters.conflicts_enter :
    (c.enter result).conflicts = c.conflicts + result.toList.countP Ended.isConflict := by
  rcases result with _ | (e | ⟨⟨⟩⟩)
  · rfl
  · cases e <;> rfl
  · rfl

end Enter

/-- What is counted of a single write: its success, or the fault that it was `stopped`
by, but no other failure. -/
def Attempted.ended? {α : Type} (stopped : Bool) : Attempted α → Option (Except BenchError Unit)
  | .ok _ => some (.ok ())
  | .error (.error e) => if stopped then some (.error e) else none
  | .error (.crash _) => none

/-- What is read off an answer makes no difference to what is counted. -/
theorem Attempted.ended?_map {α β : Type} (stopped : Bool) (result : Attempted α) (f : α → β) :
    ended? stopped (result.map f) = ended? stopped result := by
  rcases result with (e | c) | a <;> rfl

namespace Server

variable {s : Server} {command : Command}

/-- A single write takes the fault at the head of the queue. It fails as that says, and
is counted then, or is counted when it succeeds. -/
theorem autocommit_write (hwrite : command.action.isRead = false) :
    (s.autocommit command).1.faults = s.faults.tail ∧
    (s.autocommit command).1.counters
      = s.counters.enter (Attempted.ended? s.fault?.isSome (s.autocommit command).2) ∧
    ∀ e, s.fault? = some e → (s.autocommit command).2 = .error (.error e) := by
  unfold autocommit
  rw [if_neg (by rw [hwrite]; exact Bool.false_ne_true), takeFault_eq]
  cases hfault : s.fault? with
  | some e =>
      refine ⟨rfl, rfl, ?_⟩
      rintro _ ⟨⟩
      rfl
  | none =>
      dsimp only
      rcases s.store.perform command with ⟨store, (e | c) | outcome⟩ <;> exact ⟨rfl, rfl, nofun⟩

/-- So does a commit, which is counted in any case. -/
theorem commit_faults (s : Server) (tx : Transaction) :
    (s.commit tx).1.faults = s.faults.tail ∧
    (s.commit tx).1.counters = s.counters.enter (some (s.commit tx).2) ∧
    ∀ e, s.fault? = some e → (s.commit tx).2 = .error e := by
  unfold commit
  rw [takeFault_eq]
  cases hfault : s.fault? with
  | some e =>
      refine ⟨rfl, rfl, ?_⟩
      rintro _ ⟨⟩
      rfl
  | none =>
      dsimp only
      cases tx.commit s.store with
      | ok store => exact ⟨rfl, rfl, nofun⟩
      | error e => exact ⟨rfl, rfl, nofun⟩

end Server

/-- A fresh identity makes no reading of a write. -/
theorem Command.isRead_identified (command : Command) (fresh : String) :
    (command.identified fresh).action.isRead = command.action.isRead := by
  unfold identified
  split
  · next hinsert => rw [hinsert]; rfl
  · rfl

/-! ### Steps -/

namespace Traffic

/-- Whether a step comes to the point of no return of a write. A transaction that is
committed does, also when the server was closed after its begin. -/
def reaches (t : Traffic) : Event → Bool
  | .call _ _ (.exec (.document command)) => t.server.connected && !command.action.isRead
  | .call client _ .commit => (t.held client).isSome
  | _ => false

/-- The faults that a step queues, behind those that are there. -/
def Event.queues : Event → List Fault
  | .inject faults => faults
  | _ => []

/-- What became of an operation that ends with this step and is counted: a transaction,
whether it was committed or given up, or a single write that succeeded or was stopped by
a fault. -/
def ended? (t : Traffic) : (e : Event) → e.Reply → Option (Except BenchError Unit)
  | .call client fresh (.exec statement), reply =>
    if t.reaches (.call client fresh (.exec statement)) then
      Attempted.ended? t.server.fault?.isSome reply
    else none
  | .call client _ .commit, reply => if (t.held client).isSome then some reply else none
  | .call _ _ (.rollback e), _ => some (.error e)
  | _, _ => none

/-- The reply to a step is this error. -/
def FailsWith : (e : Event) → e.Reply → BenchError → Prop
  | .call _ _ (.exec _), reply, e => reply = .error (.error e)
  | .call _ _ .commit, reply, e => reply = .error e
  | _, _, _ => False

/-- What a step does to the queue of faults and to the counters, and that it fails as
its fault says. -/
structure Settles (t : Traffic) (e : Event) : Prop where
  faults : (t.answer e).1.server.faults
    = (if t.reaches e then t.server.faults.tail else t.server.faults) ++ e.queues
  counters : (t.answer e).1.server.counters
    = t.server.counters.enter (t.ended? e (t.answer e).2)
  fails : t.reaches e = true → ∀ error, t.server.fault? = some error →
    FailsWith e (t.answer e).2 error

variable {t : Traffic} {e : Event}

/-- A step that reaches no write and leaves the queue and the counters as they were. -/
theorem Settles.of_same (hreaches : t.reaches e = false) (hended : t.ended? e (t.answer e).2 = none)
    (hqueues : e.queues = []) (hfaults : (t.answer e).1.server.faults = t.server.faults)
    (hcounters : (t.answer e).1.server.counters = t.server.counters) : t.Settles e where
  faults := by rw [hreaches, hqueues, List.append_nil, hfaults]; rfl
  counters := by rw [hended, hcounters]; rfl
  fails h := by rw [hreaches] at h; cases h

/-- A single statement reaches its point of no return if it is a write, and takes a
fault there. -/
theorem settles_exec (t : Traffic) (client : Nat) (fresh : String) (statement : Statement) :
    t.Settles (.call client fresh (.exec statement)) := by
  cases hreaches : t.reaches (.call client fresh (.exec statement)) with
  | false =>
      -- It is refused, or it only reads.
      have hsame : (t.server.exec fresh statement).1 = t.server := by
        rcases t.server.exec_cases fresh statement with ⟨error, herror⟩ | ⟨command, rfl, hexec⟩
        · rw [herror]
        · cases hconnected : t.server.connected with
          | false =>
              simp only [Server.exec, Server.checkConnected, hconnected, Bool.false_eq_true,
                if_false]
          | true =>
              have hread : (command.identified fresh).action.isRead = true := by
                simpa [reaches, hconnected, Command.isRead_identified] using hreaches
              rw [hexec, Server.autocommit, if_pos hread]
      exact .of_same hreaches (by rw [ended?, hreaches]; rfl) rfl (congrArg _ hsame)
        (congrArg _ hsame)
  | true =>
      cases statement with
      | sql text params => cases hreaches
      | document command =>
          obtain ⟨hconnected, hwrite⟩ := Bool.and_eq_true_iff.mp hreaches
          have hwrite : (command.identified fresh).action.isRead = false := by
            rw [Command.isRead_identified]
            simpa using hwrite
          have hexec : t.server.exec fresh (.document command)
              = ((t.server.autocommit (command.identified fresh)).1,
                (t.server.autocommit (command.identified fresh)).2.map Outcome.affected) := by
            simp only [Server.exec, Server.checkConnected, hconnected, if_true]
            rfl
          obtain ⟨hfaults, hcounters, hfails⟩ := Server.autocommit_write (s := t.server) hwrite
          refine ⟨?_, ?_, fun _ error herror => ?_⟩
          · rw [hreaches, if_pos rfl, Event.queues, List.append_nil]
            · exact (congrArg (·.1.faults) hexec).trans hfaults
            · rintro _ ⟨⟩
          · rw [ended?, hreaches, if_pos rfl]
            show (t.server.exec fresh (.document command)).1.counters = t.server.counters.enter
              (Attempted.ended? _ (t.server.exec fresh (.document command)).2)
            rw [hexec, Attempted.ended?_map]
            exact hcounters
          · show (t.server.exec fresh (.document command)).2 = _
            rw [hexec, hfails error herror]
            rfl

/-- A commit does so whatever is in the transaction, also if nothing is. -/
theorem settles_commit (t : Traffic) (client : Nat) (fresh : String) :
    t.Settles (.call client fresh .commit) := by
  cases hheld : t.held client with
  | none =>
      have hsame : (t.answer (.call client fresh .commit)).1.server = t.server := by
        simp only [answer, Server.answer, hheld]
      exact .of_same (by rw [reaches, hheld]; rfl) (by rw [ended?, hheld]; rfl) rfl
        (congrArg _ hsame) (congrArg _ hsame)
  | some tx =>
      have hreaches : t.reaches (.call client fresh .commit) = true := by
        rw [reaches, hheld]
        rfl
      have hcommit : (t.answer (.call client fresh .commit)).1.server = (t.server.commit tx).1 ∧
          (t.answer (.call client fresh .commit)).2 = (t.server.commit tx).2 := by
        simp only [answer, Server.answer, hheld, and_self]
      obtain ⟨hfaults, hcounters, hfails⟩ := t.server.commit_faults tx
      refine ⟨?_, ?_, fun _ error herror => ?_⟩
      · rw [hreaches, if_pos rfl, hcommit.1, hfaults]
        exact (List.append_nil _).symm
      · rw [hcommit.1, hcommit.2, hcounters, ended?, hheld]
        rfl
      · exact hcommit.2.trans (hfails error herror)

/-- Every step settles the queue and the counters. -/
theorem settles (t : Traffic) (e : Event) : t.Settles e := by
  cases e with
  | connect address =>
      refine .of_same rfl rfl rfl ?_ ?_ <;>
      · simp only [answer, Server.connect]
        split <;> rfl
  | reset =>
      refine .of_same rfl rfl rfl ?_ ?_ <;>
      · simp only [answer, Server.reset]
        split <;> rfl
  | close => exact .of_same rfl rfl rfl rfl rfl
  | inject faults => exact ⟨rfl, rfl, fun hreaches => absurd hreaches Bool.false_ne_true⟩
  | call client fresh c =>
      cases c with
      | exec statement => exact settles_exec t client fresh statement
      | commit => exact settles_commit t client fresh
      | query statement =>
          have hsame := t.server.query_fst statement
          exact .of_same rfl rfl rfl (congrArg _ hsame) (congrArg _ hsame)
      | begin =>
          refine .of_same rfl rfl rfl ?_ ?_ <;>
          · simp only [answer, Server.answer]
            split <;> rfl
      | execIn statement | queryIn statement =>
          refine .of_same rfl rfl rfl ?_ ?_ <;>
          · simp only [answer, Server.answer]
            cases t.held client <;> rfl
      -- A rollback ends an operation without a fault.
      | rollback error =>
          exact ⟨(List.append_nil _).symm, rfl,
            fun hreaches => absurd hreaches Bool.false_ne_true⟩
      | abandon => exact .of_same rfl rfl rfl rfl rfl

/-! ### Runs -/

/-- What is noted of a run: the faults that were ever queued, what each step that reached
its point of no return found at the head of the queue, and what became of the operations
that are counted. -/
structure Watch where
  queued : List Fault
  met : List (Option Fault) := []
  ended : List (Except BenchError Unit) := []

/-- The faults that were taken, in the order in which they were. -/
def Watch.taken (w : Watch) : List Fault := w.met.reduceOption

/-- One step, noted. What it met is noted before the step, and what became of it after. -/
def watch (s : Traffic × Watch) (e : Event) : Traffic × Watch :=
  ((s.1.answer e).1,
    { queued := s.2.queued ++ e.queues
      met := if s.1.reaches e then s.2.met ++ [s.1.server.faults.head?] else s.2.met
      ended := s.2.ended ++ (s.1.ended? e (s.1.answer e).2).toList })

/-- The steps of a run from a new server on, noted. -/
def watched (faults : List Fault) (latency : Span) (events : List Event) : Traffic × Watch :=
  events.foldl watch (new faults latency, { queued := faults })

/-- The faults that were taken and those that are pending are those that were queued, and
the counters count what ended. -/
structure Watched (s : Traffic × Watch) : Prop where
  queued : s.2.taken ++ s.1.server.faults = s.2.queued
  commits : s.1.server.counters.commits = s.2.ended.countP Except.isOk
  rollbacks : s.1.server.counters.rollbacks = s.2.ended.countP fun result => !result.isOk
  conflicts : s.1.server.counters.conflicts = s.2.ended.countP Ended.isConflict

/-- The notes stay right by one step. -/
theorem watched_step {s : Traffic × Watch} (h : Watched s) (e : Event) : Watched (watch s e) := by
  obtain ⟨hfaults, hcounters, -⟩ := s.1.settles e
  refine ⟨?_, ?_, ?_, ?_⟩
  · simp only [watch, hfaults, ← h.queued, Watch.taken]
    split
    · -- What was at the head of the queue is the last that was taken.
      rw [List.reduceOption_append]
      cases s.1.server.faults with
      | nil => simp [List.reduceOption]
      | cons fault rest => simp [List.reduceOption]
    · rw [List.append_assoc]
  · simp only [watch, hcounters, Counters.commits_enter, h.commits, List.countP_append]
  · simp only [watch, hcounters, Counters.rollbacks_enter, h.rollbacks, List.countP_append]
  · simp only [watch, hcounters, Counters.conflicts_enter, h.conflicts, List.countP_append]

/-- So they are right after any run of a new server. -/
theorem watched_run (faults : List Fault) (latency : Span) (events : List Event) :
    Watched (watched faults latency events) := by
  unfold watched
  suffices hfrom : ∀ s, Watched s → Watched (events.foldl watch s) from
    hfrom _ ⟨rfl, rfl, rfl, rfl⟩
  intro s hs
  induction events generalizing s with
  | nil => exact hs
  | cons e rest ih => exact ih _ (watched_step hs e)

/-- When no write found the queue empty, each met the fault of its own number. -/
theorem Watched.met_eq {s : Traffic × Watch} (h : Watched s) (hmet : none ∉ s.2.met) :
    s.2.met = (s.2.queued.take s.2.met.length).map some := by
  have htaken : s.2.met = s.2.taken.map some := by
    rw [Watch.taken]
    generalize s.2.met = met at hmet
    induction met with
    | nil => rfl
    | cons first rest ih =>
        cases first with
        | none => exact absurd List.mem_cons_self hmet
        | some fault =>
            rw [List.reduceOption_cons_of_some, List.map_cons,
              ← ih fun hrest => hmet (List.mem_cons_of_mem _ hrest)]
  have hlength : s.2.met.length = s.2.taken.length := by
    rw [htaken, List.length_map]
  rw [← h.queued, hlength, List.take_left]
  exact htaken

/-- After any steps of any clients of a new server, the faults that were taken, in the
order in which they were, and those that are pending make up all that were queued, in
their order; a write that finds none pending takes none, and unless one did, each took
the fault of its own number. Commits and rollbacks are as many as the transactions that
were committed or given up and the single writes that succeeded or were stopped by a
fault, and conflicts as many as failed with a conflict of these. Whatever step comes
next, it takes the fault at the head of the queue if it reaches the point of no return of
a write, whether it would have succeeded or not, and fails with just the error that the
fault makes; any other step takes none. -/
theorem faults_in_order (faults : List Fault) (latency : Span) (events : List Event) :
    let (t, w) := watched faults latency events
    w.taken ++ t.server.faults = w.queued ∧
    t.server.faults.length = w.queued.length - w.taken.length ∧
    (none ∉ w.met → w.met = (w.queued.take w.met.length).map some) ∧
    t.server.counters.commits + t.server.counters.rollbacks = w.ended.length ∧
    t.server.counters.conflicts = w.ended.countP Ended.isConflict ∧
    ∀ e, (t.reaches e = true →
        (t.answer e).1.server.faults = t.server.faults.tail ∧
        ∀ fault error, t.server.faults.head? = some fault → fault.error? = some error →
          FailsWith e (t.answer e).2 error) ∧
      (t.reaches e = false → (t.answer e).1.server.faults = t.server.faults ++ e.queues) := by
  -- The notes are right after the run. What is left are the next step and arithmetic.
  have h := watched_run faults latency events
  rcases hrun : watched faults latency events with ⟨t, w⟩
  rw [hrun] at h
  have hmet := h.met_eq
  obtain ⟨hqueued, hcommits, hrollbacks, hconflicts⟩ := h
  simp only at hqueued hcommits hrollbacks hconflicts hmet
  refine ⟨hqueued, ?_, hmet, ?_, hconflicts,
    fun e => ⟨fun hreaches => ⟨?_, ?_⟩, fun hreaches => ?_⟩⟩
  · have hlength := congrArg List.length hqueued
    rw [List.length_append] at hlength
    omega
  · rw [hcommits, hrollbacks]
    simpa using (List.length_eq_countP_add_countP Except.isOk (l := w.ended)).symm
  · have hfaults := (t.settles e).faults
    -- No step both queues faults and takes one.
    have hqueues : e.queues = [] := by
      cases e with
      | inject faults => cases hreaches
      | _ => rfl
    rw [hreaches, if_pos rfl, hqueues, List.append_nil] at hfaults
    exact hfaults
  · intro fault error hhead herror
    refine (t.settles e).fails hreaches error ?_
    rw [Server.fault?, hhead, Option.bind_some, herror]
  · have hfaults := (t.settles e).faults
    rw [hreaches, if_neg Bool.false_ne_true] at hfaults
    exact hfaults

/-- A write that could be made meets a conflict, and a transaction another fault. -/
def mishaps : List Event :=
  [ .connect "memory://",
    .call 0 "a" (.exec (.on "stock" (.insertOne (.obj [])))),
    .call 1 "" .begin,
    .call 1 "b" (.execIn (.on "stock" (.insertOne (.obj [])))),
    .call 0 "" (.query (.on "stock" (.count .all))),
    .call 1 "" .commit,
    .inject [.conflict] ]

/-- A write that would fail by itself, as it inserts no object. -/
def hopeless : Event := .call 2 "c" (.exec (.on "stock" (.insertOne .null)))

/-- Both faults have been met in the order in which they were queued, and the one that
was injected later is pending. -/
theorem faults_in_order_mishaps :
    let s := watched [.conflict, .permanent "disk full"] .zero mishaps
    none ∉ s.2.met ∧ s.2.met = [some .conflict, some (.permanent "disk full")] ∧
    s.1.reaches hopeless = true ∧ (s.1.answer hopeless).1.server.faults = [] ∧
    FailsWith hopeless (s.1.answer hopeless).2
      (.conflict "MEM_CONFLICT" "injected write conflict") := by
  intro s
  have hmet : none ∉ s.2.met := by
    show none ∉ [some Fault.conflict, some (Fault.permanent "disk full")]
    decide
  have hreaches : s.1.reaches hopeless = true := rfl
  obtain ⟨-, -, hnumbers, -, -, hnext⟩ :=
    faults_in_order [.conflict, .permanent "disk full"] .zero mishaps
  obtain ⟨hfaults, hfails⟩ := (hnext hopeless).1 hreaches
  exact ⟨hmet, hnumbers hmet, hreaches, hfaults, hfails .conflict _ rfl rfl⟩

/-- A write that finds nothing in the queue, a conflict that is queued only then, and
another write. -/
def belated : List Event :=
  [ .connect "memory://",
    .call 0 "a" (.exec (.on "stock" (.insertOne (.obj [])))),
    .inject [.conflict],
    .call 0 "b" (.exec (.on "stock" (.insertOne (.obj [])))) ]

/-- Where faults are queued after a write, the number of a write is not always that of
the fault that it takes. -/
theorem not_always_same_number :
    ¬ ∀ (faults : List Fault) (latency : Span) (events : List Event) (k : Nat) (fault : Fault),
      (watched faults latency events).2.met[k]? = some (some fault) →
        (watched faults latency events).2.queued[k]? = some fault := by
  intro h
  have hsecond : (watched [] .zero belated).2.met[1]? = some (some .conflict) := rfl
  cases h [] .zero belated 1 .conflict hsecond

end Traffic

end StoreBench
