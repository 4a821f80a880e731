import StoreBench.Document.Client
import StoreBench.Proofs.Document.Tracking

/-!
# `StoreBench.Proofs.Document.Answers`: what a call does to the store

One lemma for each call of the built-in server, as far as its store goes.
A single statement that succeeds makes its command on the contents
(`exec_ok`), a commit that succeeds installs its transaction
(`commit_ok_store`), and whatever fails leaves the store as it was. What
the store becomes by a call (`becomes_answer`) is a later state of it, and
a sound one.
-/

set_option autoImplicit false

namespace StoreBench

/-- A command that only reads is identified as it is. -/
theorem Command.identified_of_isRead {command : Command} (h : command.action.isRead = true)
    (fresh : String) : command.identified fresh = command := by
  obtain ⟨name, action⟩ := command
  cases action with
  | insertOne doc => cases h
  | updateOne | updateMany | deleteMany | findOne | find | count | groupSum | dropCollection => rfl

/-- A command that succeeds by itself makes its action on the contents. -/
theorem Store.perform_ok {s t : Store} {command : Command} {outcome : Outcome}
    (h : s.perform command = (t, .ok outcome)) :
    Contents.perform s.docs command = (t.docs, .ok outcome) := by
  rcases hdone : (s.docs command.collection).apply command.collection command.action
    with ⟨docs, result⟩
  simp only [Store.perform, hdone] at h
  simp only [Contents.perform, hdone]
  cases result with
  | error failure => cases h
  | ok done =>
      simp only [Prod.mk.injEq, Except.ok.injEq] at h
      obtain ⟨rfl, rfl⟩ := h
      refine Prod.ext (funext fun other => ?_) rfl
      by_cases hw : done.wrote = true
      · rw [if_pos hw]
        exact (Store.docs_install s command.collection other docs).symm
      · -- What wrote nothing is not installed, and need not be.
        have hsame := Documents.apply_of_not_wrote hdone (Bool.eq_false_iff.mpr hw)
        rw [if_neg hw]
        exact congrFun (Contents.set_eq_self hsame) other

/-- A command that fails by itself leaves the store as it was. -/
theorem Store.perform_error {s t : Store} {command : Command} {failure : Failure}
    (h : s.perform command = (t, .error failure)) : t = s := by
  rcases hdone : (s.docs command.collection).apply command.collection command.action
    with ⟨docs, result⟩
  simp only [Store.perform, hdone] at h
  cases result with
  | error failure => exact (Prod.mk.inj h).1.symm
  | ok done => cases h

namespace Server

variable {s t : Server} {command : Command} {outcome : Outcome} {failure : Failure}

/-! ### Single statements -/

/-- Taking a fault leaves the store alone. -/
@[simp] theorem store_takeFault (s : Server) : s.takeFault.1.store = s.store := by
  unfold takeFault
  split <;> rfl

/-- A single command reads, meets a fault, or is performed on the store. -/
theorem autocommit_cases (s : Server) (command : Command) :
    (command.action.isRead = true ∧ s.autocommit command
      = (s, .ok ((s.store.docs command.collection).read command.action))) ∨
    (∃ e, (s.autocommit command).2 = .error (.error e) ∧
      (s.autocommit command).1.store = s.store) ∨
    ((s.autocommit command).1.store, (s.autocommit command).2) = s.store.perform command := by
  by_cases hread : command.action.isRead = true
  · exact .inl ⟨hread, by simp [autocommit, hread]⟩
  -- Only what may write meets a fault.
  have hstore := store_takeFault s
  rcases htake : s.takeFault with ⟨s', fault⟩
  rw [htake] at hstore
  simp only at hstore
  cases fault with
  | some e => exact .inr (.inl ⟨e, by simp [autocommit, hread, htake, hstore]⟩)
  | none =>
      right; right
      simp [autocommit, hread, htake, hstore]

/-- A single command that succeeds makes its action on the contents. -/
theorem autocommit_ok (h : s.autocommit command = (t, .ok outcome)) :
    Contents.perform s.store.docs command = (t.store.docs, .ok outcome) := by
  rcases autocommit_cases s command with ⟨hread, he⟩ | ⟨e, he, -⟩ | he
  · rw [he] at h
    cases h
    rw [Contents.perform, Documents.apply_of_isRead _ _ hread]
    exact Prod.ext (Contents.set_eq_self rfl) rfl
  · rw [h] at he
    cases he
  · rw [h] at he
    exact Store.perform_ok he.symm

/-- A single command that fails leaves the store as it was. -/
theorem autocommit_error (h : s.autocommit command = (t, .error failure)) :
    t.store = s.store := by
  rcases autocommit_cases s command with ⟨-, he⟩ | ⟨e, -, he⟩ | he
  · rw [he] at h
    cases h
  · rw [h] at he
    exact he
  · rw [h] at he
    exact Store.perform_error he.symm

/-- A single command leaves the store as it was, or performs itself on it. -/
theorem store_autocommit (s : Server) (command : Command) :
    (s.autocommit command).1.store = s.store ∨
    (s.autocommit command).1.store = (s.store.perform command).1 := by
  rcases autocommit_cases s command with ⟨-, he⟩ | ⟨e, -, he⟩ | he
  · left
    rw [he]
  · exact .inl he
  · exact .inr (congrArg Prod.fst he)

/-- A command by itself changes one collection, or none where it fails. -/
theorem becomes_autocommit (s : Server) (command : Command) :
    s.store.Becomes (s.autocommit command).1.store := by
  rcases store_autocommit s command with he | he <;> rw [he]
  · exact .same
  · exact Store.becomes_perform _ _

/-! ### Statements -/

/-- A statement is refused, or is a command that is made by itself. -/
theorem exec_cases (s : Server) (fresh : String) (statement : Statement) :
    (∃ e, s.exec fresh statement = (s, .error (.error e))) ∨
    ∃ command, statement = .document command ∧
      s.exec fresh statement = ((s.autocommit (command.identified fresh)).1,
        (s.autocommit (command.identified fresh)).2.map Outcome.affected) := by
  unfold exec
  cases s.checkConnected with
  | error e => exact .inl ⟨e, rfl⟩
  | ok connected =>
      cases statement with
      | sql text params => exact .inl ⟨_, rfl⟩
      | document command => exact .inr ⟨command, rfl, rfl⟩

/-- A query is refused, or is a reading command that is answered from the
store. -/
theorem query_cases (s : Server) (statement : Statement) :
    (∃ e, s.query statement = (s, .error (.error e))) ∨
    ∃ command, statement = .document command ∧ command.action.isRead = true ∧
      s.query statement
        = (s, .ok ((s.store.docs command.collection).read command.action).rows) := by
  unfold query
  cases s.checkConnected with
  | error e => exact .inl ⟨e, rfl⟩
  | ok connected =>
      cases statement with
      | sql text params => exact .inl ⟨_, rfl⟩
      | document command =>
          by_cases hread : command.action.isRead = true
          · exact .inr ⟨command, rfl, hread, by simp [queryOf, commandOf, hread, autocommit,
              Except.map, bind, Except.bind]⟩
          · exact .inl ⟨_, by simp [queryOf, commandOf, hread, bind, Except.bind]; rfl⟩

/-- A statement that succeeds makes its command on the contents. -/
theorem exec_ok {fresh : String} {statement : Statement} {n : Nat}
    (h : s.exec fresh statement = (t, .ok n)) :
    ∃ command outcome, statement = .document command ∧ outcome.affected = n ∧
      Contents.perform s.store.docs (command.identified fresh) = (t.store.docs, .ok outcome) := by
  rcases exec_cases s fresh statement with ⟨e, he⟩ | ⟨command, rfl, he⟩
  · rw [he] at h
    cases h
  · rcases hdone : s.autocommit (command.identified fresh) with ⟨t', result⟩
    rw [h, hdone, Prod.mk.injEq] at he
    obtain ⟨rfl, he⟩ := he
    cases result with
    | error failure => cases he
    | ok outcome => exact ⟨command, outcome, rfl, (Except.ok.inj he).symm, autocommit_ok hdone⟩

/-- A statement that fails leaves the store as it was. -/
theorem exec_error {fresh : String} {statement : Statement}
    (h : s.exec fresh statement = (t, .error failure)) : t.store = s.store := by
  rcases exec_cases s fresh statement with ⟨e, he⟩ | ⟨command, -, he⟩
  · rw [he] at h
    cases h
    rfl
  · rcases hdone : s.autocommit (command.identified fresh) with ⟨t', result⟩
    rw [h, hdone, Prod.mk.injEq] at he
    obtain ⟨rfl, he⟩ := he
    cases result with
    | error failure => exact autocommit_error hdone
    | ok outcome => cases he

/-- So does a statement by itself. One that is no document command is turned away before
it gets there. -/
theorem becomes_exec (s : Server) (fresh : String) (statement : Statement) :
    s.store.Becomes (s.exec fresh statement).1.store := by
  rcases exec_cases s fresh statement with ⟨e, he⟩ | ⟨command, -, he⟩ <;> rw [he]
  · exact .same
  · exact becomes_autocommit s _

/-- A query leaves the server as it was. -/
theorem query_fst (s : Server) (statement : Statement) : (s.query statement).1 = s := by
  rcases query_cases s statement with ⟨e, he⟩ | ⟨command, -, -, he⟩ <;> rw [he]

/-- A query that succeeds shows what the contents hold. -/
theorem query_ok {statement : Statement} {found : List Row}
    (h : (s.query statement).2 = .ok found) :
    ∃ command outcome, statement = .document command ∧ outcome.rows = found ∧
      command.action.isRead = true ∧
      Contents.perform s.store.docs command = (s.store.docs, .ok outcome) := by
  rcases query_cases s statement with ⟨e, he⟩ | ⟨command, rfl, hread, he⟩
  · rw [he] at h
    cases h
  · rw [he] at h
    refine ⟨command, _, rfl, Except.ok.inj h, hread, ?_⟩
    rw [Contents.perform, Documents.apply_of_isRead _ _ hread]
    exact Prod.ext (Contents.set_eq_self rfl) rfl

/-! ### Statements in a transaction -/

/-- A statement that succeeds in a transaction is an action in it. -/
theorem execIn_ok {tx after : Transaction} {fresh : String} {statement : Statement} {n : Nat}
    (h : s.execIn tx fresh statement = (after, .ok n)) :
    ∃ command outcome, statement = .document command ∧ outcome.affected = n ∧
      tx.apply s.store (command.identified fresh) = (after, .ok outcome) := by
  cases statement with
  | sql text params => cases h
  | document command =>
      rcases hdone : tx.apply s.store (command.identified fresh) with ⟨tx', result⟩
      simp only [execIn, commandOf, hdone, Prod.mk.injEq] at h
      obtain ⟨rfl, he⟩ := h
      cases result with
      | error failure => cases he
      | ok outcome => exact ⟨command, outcome, rfl, Except.ok.inj he, hdone⟩

/-- A query that succeeds in a transaction is a reading action in it. -/
theorem queryIn_ok {tx after : Transaction} {statement : Statement} {found : List Row}
    (h : s.queryIn tx statement = (after, .ok found)) :
    ∃ command outcome, statement = .document command ∧ outcome.rows = found ∧
      command.action.isRead = true ∧ tx.apply s.store command = (after, .ok outcome) := by
  cases statement with
  | sql text params => cases h
  | document command =>
      by_cases hread : command.action.isRead = true
      · rcases hdone : tx.apply s.store command with ⟨tx', result⟩
        simp only [queryIn, queryOf, commandOf, bind, Except.bind, hread, if_pos, hdone,
          Prod.mk.injEq] at h
        obtain ⟨rfl, he⟩ := h
        cases result with
        | error failure => cases he
        | ok outcome => exact ⟨command, outcome, rfl, Except.ok.inj he, hread, hdone⟩
      · simp [queryIn, queryOf, commandOf, bind, Except.bind, hread] at h

/-! ### The end of a transaction -/

/-- A commit meets a fault, cannot be staged, or installs its transaction. -/
theorem commit_cases (s : Server) (tx : Transaction) :
    (∃ e, (s.commit tx).2 = .error e ∧ (s.commit tx).1.store = s.store) ∨
    ((s.commit tx).2 = .ok () ∧ tx.commit s.store = .ok (s.commit tx).1.store) := by
  have hstore := store_takeFault s
  rcases htake : s.takeFault with ⟨s', fault⟩
  rw [htake] at hstore
  simp only at hstore
  unfold commit
  rw [htake]
  cases fault with
  | some e => exact .inl ⟨e, rfl, hstore⟩
  | none =>
      -- The commit goes by the store as it is, which the queue of faults does not touch.
      simp only [hstore]
      cases hcommit : tx.commit s.store with
      | error e => exact .inl ⟨e, rfl, rfl⟩
      | ok store => exact .inr ⟨rfl, rfl⟩

/-- A commit that succeeds installs its transaction, and does nothing else to the store. -/
theorem commit_ok_store {tx : Transaction} (h : s.commit tx = (t, .ok ())) :
    tx.commit s.store = .ok t.store := by
  rcases commit_cases s tx with ⟨e, he, -⟩ | ⟨-, he⟩
  · rw [h] at he
    cases he
  · rwa [h] at he

/-- A commit that fails leaves the store as it was. -/
theorem commit_error_store {tx : Transaction} {e : BenchError} (h : s.commit tx = (t, .error e)) :
    t.store = s.store := by
  rcases commit_cases s tx with ⟨e', -, he⟩ | ⟨he, -⟩
  · rwa [h] at he
  · rw [h] at he
    cases he

/-- A commit installs what it stages, or leaves the store as it is. -/
theorem becomes_commit (s : Server) (tx : Transaction) :
    s.store.Becomes (s.commit tx).1.store := by
  rcases commit_cases s tx with ⟨e, -, he⟩ | ⟨-, he⟩
  · rw [he]
    exact .same
  · exact Transaction.becomes_commit he

end Server

/-! ### What a commit fails with -/

/-- The errors that refuse a write: contention, and what the store rejects. -/
def BenchError.Refuses : BenchError → Prop
  | .conflict _ _ | .backend _ => True
  | _ => False

/-- A batch is refused for what the store rejects. -/
theorem Documents.refuses_of_insertAll {collection : String} {docs : Documents}
    {batch : List Json} {e : BenchError} (h : docs.insertAll collection batch = .error e) :
    e.Refuses := by
  induction batch generalizing docs with
  | nil => cases h
  | cons doc rest ih =>
      simp only [insertAll] at h
      split at h
      · cases h
        trivial
      · split at h
        · cases h
          trivial
        · exact ih h

namespace Transaction

variable {s : Store} {tx : Transaction} {e : BenchError}

/-- A collection is not staged for contention, or for what the store rejects. -/
theorem refuses_of_stage {name : String} {touched : Touched}
    (h : stage s name touched = .error e) : e.Refuses := by
  match touched with
  | .copied working dirty =>
      simp only [stage] at h
      split at h
      · cases h
        trivial
      · cases h
  | .blind [] => cases h
  | .blind (doc :: rest) =>
      simp only [stage, bind, Except.bind] at h
      split at h
      · rename_i hinsert
        cases h
        exact Documents.refuses_of_insertAll hinsert
      · cases h

/-- So several of them are not, as the first that is not staged is the reason. -/
theorem refuses_of_stageAll (h : tx.stageAll s = .error e) : e.Refuses := by
  induction tx with
  | nil => cases h
  | cons entry rest ih =>
      simp only [stageAll, bind, Except.bind] at h
      split at h
      · rename_i hstage
        cases h
        exact refuses_of_stage hstage
      · split at h
        · rename_i hrest
          cases h
          exact ih hrest
        · cases h

/-- A transaction is refused for nothing else. -/
theorem refuses_of_commit (h : tx.commit s = .error e) : e.Refuses := by
  simp only [commit, bind, Except.bind] at h
  split at h
  · rename_i hstage
    cases h
    exact refuses_of_stageAll hstage
  · cases h

end Transaction

namespace Server

variable {s : Server}

/-- Faults that are injected fail like what they stand for. -/
theorem refuses_of_takeFault {e : BenchError} (h : s.takeFault.2 = some e) : e.Refuses := by
  unfold takeFault at h
  split at h
  · cases h
  · rename_i fault rest hfaults
    cases fault with
    | conflict | permanent message =>
        cases h
        trivial
    | pass => cases h

/-- A commit fails for a fault, for contention or for what the store rejects,
and for nothing else. -/
theorem refuses_of_failed_commit {tx : Transaction} {e : BenchError}
    (h : (s.commit tx).2 = .error e) : e.Refuses := by
  unfold commit at h
  rcases htake : s.takeFault with ⟨s', fault⟩
  rw [htake] at h
  cases fault with
  | some e' =>
      cases h
      exact refuses_of_takeFault (congrArg Prod.snd htake)
  | none =>
      cases hcommit : tx.commit s'.store with
      | ok store =>
          simp only [hcommit] at h
          cases h
      | error e' =>
          simp only [hcommit] at h
          cases h
          exact Transaction.refuses_of_commit hcommit

/-! ### Calls -/

/-- A call leaves the store as it was, unless it is a statement by itself or
a commit. -/
theorem store_answer (s : Server) (held : Option Transaction) (fresh : String) (c : Call) :
    (s.answer held fresh c).1.store = s.store ∨
    (∃ statement, c = .exec statement ∧ (s.answer held fresh c).1 = (s.exec fresh statement).1) ∨
    ∃ tx, c = .commit ∧ held = some tx ∧ (s.answer held fresh c).1 = (s.commit tx).1 := by
  cases c with
  | exec statement => exact .inr (.inl ⟨statement, rfl, rfl⟩)
  | query statement => exact .inl (congrArg store (query_fst s statement))
  | begin =>
      left
      unfold answer
      cases s.checkConnected <;> rfl
  | execIn statement => cases held <;> exact .inl rfl
  | queryIn statement => cases held <;> exact .inl rfl
  | commit =>
      cases held with
      | none => exact .inl rfl
      | some tx => exact .inr (.inr ⟨tx, rfl, rfl, rfl⟩)
  | rollback e => exact .inl rfl
  | abandon => exact .inl rfl

/-- No call connects the server or closes it. -/
theorem connected_answer (s : Server) (held : Option Transaction) (fresh : String) (c : Call) :
    (s.answer held fresh c).1.connected = s.connected := by
  -- A fault is taken without a look at the connection.
  have htake : s.takeFault.1.connected = s.connected := by
    unfold takeFault
    split <;> rfl
  cases c with
  | exec statement =>
      show (s.exec fresh statement).1.connected = s.connected
      rcases exec_cases s fresh statement with ⟨e, he⟩ | ⟨command, -, he⟩ <;> rw [he]
      unfold autocommit
      split
      · rfl
      · split <;> simp_all
  | query statement => exact congrArg connected (query_fst s statement)
  | begin =>
      unfold answer
      cases s.checkConnected <;> rfl
  | execIn statement => cases held <;> rfl
  | queryIn statement => cases held <;> rfl
  | commit =>
      cases held with
      | none => rfl
      | some tx =>
          show (s.commit tx).1.connected = s.connected
          unfold commit
          split
          · simp_all
          · split <;> simp_all
  | rollback e => rfl
  | abandon => rfl

/-- What is left of the queue of faults is its end. -/
theorem faults_takeFault (s : Server) : s.takeFault.1.faults <:+ s.faults := by
  unfold takeFault
  split
  · exact List.suffix_rfl
  · rename_i fault rest hfaults
    exact ⟨[fault], hfaults.symm⟩

/-- A single command takes no fault, or the next one. -/
theorem faults_autocommit (s : Server) (command : Command) :
    (s.autocommit command).1.faults <:+ s.faults := by
  have htake := faults_takeFault s
  unfold autocommit
  split
  · exact List.suffix_rfl
  · split <;> simp_all

/-- A call takes faults off the queue at most. -/
theorem faults_answer (s : Server) (held : Option Transaction) (fresh : String) (c : Call) :
    (s.answer held fresh c).1.faults <:+ s.faults := by
  cases c with
  | exec statement =>
      show (s.exec fresh statement).1.faults <:+ s.faults
      rcases exec_cases s fresh statement with ⟨e, he⟩ | ⟨command, -, he⟩
      · exact ⟨[], congrArg (·.1.faults) he⟩
      · simp only [he, faults_autocommit]
  | query statement => exact ⟨[], congrArg faults (query_fst s statement)⟩
  | begin =>
      unfold answer
      cases s.checkConnected <;> exact List.suffix_rfl
  | execIn statement => cases held <;> exact List.suffix_rfl
  | queryIn statement => cases held <;> exact List.suffix_rfl
  | commit =>
      cases held with
      | none => exact List.suffix_rfl
      | some tx =>
          show (s.commit tx).1.faults <:+ s.faults
          have htake := faults_takeFault s
          unfold commit
          split
          · simp_all
          · split <;> simp_all
  | rollback e => exact List.suffix_rfl
  | abandon => exact List.suffix_rfl

/-- Every call installs collections, or leaves the store as it was. -/
theorem becomes_answer (s : Server) (held : Option Transaction) (fresh : String) (c : Call) :
    s.store.Becomes (s.answer held fresh c).1.store := by
  rcases store_answer s held fresh c with he | ⟨statement, -, he⟩ | ⟨tx, -, -, he⟩ <;> rw [he]
  · exact .same
  · exact becomes_exec s fresh statement
  · exact becomes_commit s tx

end Server

end StoreBench
