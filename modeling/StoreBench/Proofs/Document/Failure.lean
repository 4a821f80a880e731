import StoreBench.Proofs.Document.Traffic

/-!
# `StoreBench.Proofs.Document.Failure`: what fails leaves no trace

The store changes in three kinds of steps only: a statement by itself that
succeeds, a commit that succeeds, and a reset (`store_answer_cases`). A step
whose reply is a failure is none of them (`store_of_failed`).

An operation of a client may take many steps, with those of others in between.
`FailedTransaction` lists the steps of a transaction that comes to nothing: its
body was given up after any statements, or its commit was refused. Whatever the
others do meanwhile, each of its own steps leaves the store as it was: all
documents, all versions and the clock.
-/

set_option autoImplicit false

namespace StoreBench.Traffic

variable {t : Traffic} {client : Nat} {steps rest : List Event}

/-- The state after some steps, whatever is answered to each of them. -/
def pass (t : Traffic) (steps : List Event) : Traffic := steps.foldl (fun t e => (t.answer e).1) t

/-- Steps in two parts are taken one part after the other. -/
theorem pass_append (t : Traffic) (first rest : List Event) :
    t.pass (first ++ rest) = (t.pass first).pass rest := List.foldl_append

/-- The client whose step it is. A step of the server itself is nobody's. -/
def Event.client? : Event → Option Nat
  | .call client _ _ => some client
  | .connect _ | .close | .reset | .inject _ => none

/-- Whether the reply to a step is a failure. -/
def failed : (e : Event) → e.Reply → Bool
  | .call _ _ (.exec _), reply => !reply.isOk
  | .call _ _ (.query _), reply => !reply.isOk
  | .call _ _ .begin, reply => !reply.isOk
  | .call _ _ (.execIn _), reply => !reply.isOk
  | .call _ _ (.queryIn _), reply => !reply.isOk
  | .call _ _ .commit, reply => !reply.isOk
  | .connect _, reply => !reply.isOk
  | .reset, reply => !reply.isOk
  | .call _ _ (.rollback _), _ | .call _ _ .abandon, _ | .close, _ | .inject _, _ => false

/-- The rest of a transaction of a client that comes to nothing, from a state
in which it is open. -/
inductive ComesToNothing (client : Nat) : Traffic → List Event → Prop
  /-- A step of somebody else, or of the server. -/
  | other {t : Traffic} {e : Event} {rest : List Event} (hother : e.client? ≠ some client)
      (hrest : ComesToNothing client (t.answer e).1 rest) : ComesToNothing client t (e :: rest)
  | execIn {t : Traffic} {fresh : String} {statement : Statement} {rest : List Event}
      (hrest : ComesToNothing client (t.answer (.call client fresh (.execIn statement))).1 rest) :
      ComesToNothing client t (.call client fresh (.execIn statement) :: rest)
  | queryIn {t : Traffic} {fresh : String} {statement : Statement} {rest : List Event}
      (hrest : ComesToNothing client (t.answer (.call client fresh (.queryIn statement))).1 rest) :
      ComesToNothing client t (.call client fresh (.queryIn statement) :: rest)
  /-- Its body failed. -/
  | givenUp {t : Traffic} {fresh : String} {e : BenchError} :
      ComesToNothing client t [.call client fresh (.rollback e)]
  /-- Its commit fails. -/
  | refused {t : Traffic} {fresh : String} {e : BenchError}
      (hreply : (t.answer (.call client fresh .commit)).2 = .error e) :
      ComesToNothing client t [.call client fresh .commit]

/-- A whole transaction of a client that fails, from its begin on. -/
inductive FailedTransaction (client : Nat) : Traffic → List Event → Prop
  | refused {t : Traffic} {fresh : String} {e : BenchError}
      (hreply : (t.answer (.call client fresh .begin)).2 = .error e) :
      FailedTransaction client t [.call client fresh .begin]
  | begun {t : Traffic} {fresh : String} {rest : List Event}
      (hrest : ComesToNothing client (t.answer (.call client fresh .begin)).1 rest) :
      FailedTransaction client t (.call client fresh .begin :: rest)

/-! ### Which steps change the store -/

/-- A step leaves the store as it was, or it is a statement by itself, a commit
or a reset that succeeds. -/
theorem store_answer_cases (t : Traffic) (e : Event) :
    (t.answer e).1.server.store = t.server.store ∨
    (∃ client fresh statement, e = .call client fresh (.exec statement)) ∨
    (∃ client fresh, e = .call client fresh .commit) ∨ e = .reset := by
  cases e with
  | call client fresh c =>
      rcases t.server.store_answer (t.held client) fresh c with
        hsame | ⟨statement, rfl, -⟩ | ⟨tx, rfl, -⟩
      · exact .inl hsame
      · exact .inr (.inl ⟨client, fresh, statement, rfl⟩)
      · exact .inr (.inr (.inl ⟨client, fresh, rfl⟩))
  | connect address =>
      left
      simp only [answer, Server.connect]
      split <;> rfl
  | reset => exact .inr (.inr (.inr rfl))
  | close | inject faults => exact .inl rfl

/-- A commit that fails leaves the store as it was, whether it meets a fault, a
collection that was changed meanwhile, or a batch that cannot be inserted. -/
theorem store_of_refused {fresh : String} {e : BenchError}
    (h : (t.answer (.call client fresh .commit)).2 = .error e) :
    (t.answer (.call client fresh .commit)).1.server.store = t.server.store := by
  cases hheld : t.held client with
  | none =>
      simp only [answer, Server.answer, hheld]
  | some tx =>
      rcases hcommit : t.server.commit tx with ⟨server, result⟩
      simp only [answer, Server.answer, hheld, hcommit] at h ⊢
      subst h
      exact Server.commit_error_store hcommit

/-- A step that fails leaves the store as it was. -/
theorem store_of_failed {e : Event} (h : failed e (t.answer e).2 = true) :
    (t.answer e).1.server.store = t.server.store := by
  rcases t.store_answer_cases e with hsame | ⟨client, fresh, statement, rfl⟩ |
    ⟨client, fresh, rfl⟩ | rfl
  · exact hsame
  · rcases hexec : t.server.exec fresh statement with ⟨server, result⟩
    simp only [answer, Server.answer, hexec, failed] at h ⊢
    cases result with
    | ok n => cases h
    | error failure => exact Server.exec_error hexec
  · cases hreply : (t.answer (.call client fresh .commit)).2 with
    | ok done =>
        rw [failed, hreply] at h
        cases h
    | error e => exact store_of_refused hreply
  · -- A reset fails only where the server is not connected.
    simp only [answer, Server.reset] at h ⊢
    cases hconnected : t.server.checkConnected with
    | ok connected =>
        simp only [hconnected] at h
        cases h
    | error e => rfl

/-! ### Transactions -/

/-- A step in the body of a transaction leaves the store as it was, whether it
fails or not. -/
theorem store_of_inside {fresh : String} {c : Call}
    (h : ∀ statement, c ≠ .exec statement) (hcommit : c ≠ .commit) :
    (t.answer (.call client fresh c)).1.server.store = t.server.store := by
  rcases t.store_answer_cases (.call client fresh c) with hsame | ⟨_, _, statement, he⟩ |
    ⟨_, _, he⟩ | he
  · exact hsame
  · cases he
    exact absurd rfl (h statement)
  · cases he
    exact absurd rfl hcommit
  · cases he

/-- Each step of the client leaves the store as it was, whatever the steps of
others do in between. -/
def LeavesNoTrace (client : Nat) : Traffic → List Event → Prop
  | _, [] => True
  | t, e :: rest =>
    (e.client? = some client → (t.answer e).1.server.store = t.server.store) ∧
      LeavesNoTrace client (t.answer e).1 rest

/-- An open transaction that comes to nothing leaves no trace. -/
theorem ComesToNothing.leavesNoTrace (h : ComesToNothing client t steps) :
    LeavesNoTrace client t steps := by
  induction h with
  | other hother hrest ih => exact ⟨fun hown => absurd hown hother, ih⟩
  | execIn hrest ih => exact ⟨fun _ => store_of_inside nofun nofun, ih⟩
  | queryIn hrest ih => exact ⟨fun _ => store_of_inside nofun nofun, ih⟩
  | givenUp => exact ⟨fun _ => store_of_inside nofun nofun, trivial⟩
  | refused hreply => exact ⟨fun _ => store_of_refused hreply, trivial⟩

/-- A transaction of which something failed leaves no trace. By induction on how it
went, as it has not reached the store before its commit. -/
theorem FailedTransaction.leavesNoTrace (h : FailedTransaction client t steps) :
    LeavesNoTrace client t steps := by
  cases h with
  | refused hreply => exact ⟨fun _ => store_of_inside nofun nofun, trivial⟩
  | begun hrest => exact ⟨fun _ => store_of_inside nofun nofun, hrest.leavesNoTrace⟩

/-- Where nobody else makes a step, the store is at the end what it was. -/
theorem LeavesNoTrace.store_pass (h : LeavesNoTrace client t steps)
    (hown : ∀ e ∈ steps, e.client? = some client) :
    (t.pass steps).server.store = t.server.store := by
  induction steps generalizing t with
  | nil => rfl
  | cons e rest ih =>
      obtain ⟨he, hrest⟩ := List.forall_mem_cons.mp hown
      exact (ih h.2 hrest).trans (h.1 he)

/-- In every state that a new server can be brought to, whatever fails leaves
the whole store as it was, with its documents, its versions and its clock: a
statement by itself that meets a fault, a key that is taken, or a document that
cannot be changed after others were; and a transaction whose body was given up
after any statements or whose commit was refused for any reason, while others
make their steps. -/
theorem failure_leaves_no_trace (faults : List Fault) (latency : Span) (history : List Event) :
    let t := (new faults latency).pass history
    (∀ e, failed e (t.answer e).2 = true →
      (t.answer e).1.server.store = t.server.store) ∧
    ∀ client steps, FailedTransaction client t steps →
      LeavesNoTrace client t steps ∧
      ((∀ e ∈ steps, e.client? = some client) →
        (t.pass steps).server.store = t.server.store) := by
  intro t
  refine ⟨fun e hfailed => store_of_failed hfailed, ?_⟩
  intro client steps hsteps
  have htrace := hsteps.leavesNoTrace
  exact ⟨htrace, htrace.store_pass⟩

/-- A stock of two, of which the second has no number to change. -/
def spoiled : List Event :=
  [ .connect "memory://",
    .call 1 "a" (.exec (.on "stock" (.insertOne (.obj [("left", .int 3)])))),
    .call 1 "b" (.exec (.on "stock" (.insertOne (.obj [("left", .str "many")])))) ]

/-- Takes one of everything, which changes the first before it fails. -/
def takeAll : Event := .call 1 "" (.exec (.on "stock" (.updateMany .all [.inc "left" (-1)])))

/-- An order that could be inserted, and a stock that was changed meanwhile. -/
def overtaken : List Event :=
  [ .call 0 "" .begin,
    .call 0 "o" (.execIn (.on "orders" (.insertOne (.obj [])))),
    .call 0 "" (.execIn (.on "stock" (.updateOne (.eq "_id" (.str "a")) [.inc "left" (-1)]))),
    .call 1 "" (.exec (.on "stock" (.updateOne (.eq "_id" (.str "a")) [.set "left" .null]))),
    .call 0 "" .commit ]

/-- An update that fails half-way, and a transaction that is refused at its commit for
what somebody changed. -/
theorem failure_leaves_no_trace_overtaken :
    let t := (new [] .zero).pass spoiled
    failed takeAll (t.answer takeAll).2 = true ∧ FailedTransaction 0 t overtaken ∧
    (t.answer takeAll).1.server.store = t.server.store ∧ LeavesNoTrace 0 t overtaken := by
  intro t
  have hfailed : failed takeAll (t.answer takeAll).2 = true := rfl
  have hsteps : FailedTransaction 0 t overtaken :=
    .begun (.execIn (.execIn (.other nofun (.refused rfl))))
  obtain ⟨hsingle, htransaction⟩ := failure_leaves_no_trace [] .zero spoiled
  exact ⟨hfailed, hsteps, hsingle takeAll hfailed, (htransaction 0 overtaken hsteps).1⟩

end StoreBench.Traffic
