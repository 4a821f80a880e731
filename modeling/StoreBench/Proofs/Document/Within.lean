import StoreBench.Proofs.Document.FirstReads

/-!
# `StoreBench.Proofs.Document.Within`: statements about some collections only

A statement names the collection that it is about. So a transaction holds the
collections of its statements and no other (`Transaction.Within`), whether these
succeed or fail, and a commit leaves the documents of all others as they are
(`Transaction.Within.docs_commit`). A statement by itself changes its own collection
at most (`Server.docs_exec`). Together they say what a call can change, by what it
names (`Server.within_answer`).
-/

set_option autoImplicit false

namespace StoreBench

variable {names : List String} {name : String}

/-- A statement is about one of these collections, if it is one of a document
store. -/
def Statement.Within (names : List String) : Statement → Prop
  | .document command => command.collection ∈ names
  | .sql _ _ => True

/-- A statement about a collection is within any collections that it is one of. -/
theorem Statement.within_on (h : name ∈ names) (action : Action) :
    (Statement.on name action).Within names := h

/-- What a call may write is in these collections. A query by itself is allowed
everywhere, as it leaves nothing behind. -/
def Call.Within (names : List String) : Call → Prop
  | .exec s | .execIn s | .queryIn s => s.Within names
  | .query _ | .begin | .commit | .rollback _ | .abandon => True

namespace Transaction

variable {tx : Transaction} {s t : Store}

/-- These are the only collections that are held, each once. A commit installs nothing
else. -/
structure Within (names : List String) (tx : Transaction) : Prop where
  nodup : (tx.map Prod.fst).Nodup
  mem : ∀ name ∈ tx.map Prod.fst, name ∈ names

/-- A new transaction holds no collection. -/
theorem within_nil (names : List String) : Within names [] where
  nodup := List.nodup_nil
  mem := nofun

/-- Holding one more of the collections, or holding it in another way. -/
theorem Within.put (h : tx.Within names) (hname : name ∈ names) (touched : Touched) :
    (tx.put name touched).Within names where
  nodup := nodup_put h.nodup name touched
  mem other hother := by
    rw [map_fst_put] at hother
    split at hother
    · exact h.mem other hother
    · rcases List.mem_append.mp hother with hold | hnew
      · exact h.mem other hold
      · rwa [List.mem_singleton.mp hnew]

/-- Whatever comes of a command, its collection is the only one that is touched. -/
theorem Within.apply (h : tx.Within names) (s : Store) {command : Command}
    (hcommand : command.collection ∈ names) : (tx.apply s command).1.Within names := by
  rcases tx.apply_cases s command with ⟨_, _, -, -, he⟩ | ⟨-, he⟩ | ⟨_, _, _, -, he⟩ <;> rw [he]
  · exact h.put hcommand _
  · exact h.put hcommand _
  · exact h.put hcommand _

/-- A commit leaves what is not held as it is, whatever it does to the rest. -/
theorem Within.docs_commit (h : tx.Within names) (hcommit : tx.commit s = .ok t)
    (hname : name ∉ names) : t.docs name = s.docs name := by
  rcases Transaction.docs_commit h.nodup hcommit name with ⟨-, hdocs⟩ | ⟨touched, -, hheld, -⟩
  · exact hdocs
  · have hentry : (name, touched) ∈ tx := (lookup_eq_some_iff_mem h.nodup).mp hheld
    exact absurd (h.mem name (List.mem_map_of_mem hentry)) hname

end Transaction

namespace Server

variable {s : Server} {held : Option Transaction} {tx : Transaction}

/-- What a client holds of the store is in these collections, if it has a transaction at
all. -/
def HeldWithin (names : List String) (held : Option Transaction) : Prop :=
  ∀ tx, held = some tx → tx.Within names

/-- A client without a transaction holds nothing. -/
theorem heldWithin_none (names : List String) : HeldWithin names none := nofun

/-- A client with a transaction holds what the transaction does. -/
theorem heldWithin_some (h : tx.Within names) : HeldWithin names (some tx) := by
  rintro _ ⟨⟩
  exact h

/-- A statement in a transaction makes it hold at most the collection of the statement. -/
theorem within_execIn (h : tx.Within names) (fresh : String) {statement : Statement}
    (hstatement : statement.Within names) :
    (s.execIn tx fresh statement).1.Within names := by
  unfold execIn
  split
  · exact h
  · rename_i command hcommand
    cases statement with
    | sql text params => cases hcommand
    | document c =>
        cases hcommand
        exact h.apply s.store (by rwa [Command.collection_identified])

/-- So does a query, which holds a copy of what it read. -/
theorem within_queryIn (h : tx.Within names) {statement : Statement}
    (hstatement : statement.Within names) : (s.queryIn tx statement).1.Within names := by
  unfold queryIn
  split
  · exact h
  · rename_i command hquery
    cases statement with
    | sql text params => cases hquery
    | document c =>
        obtain rfl : c = command := by
          simp only [queryOf, commandOf, bind, Except.bind] at hquery
          split at hquery
          · exact Except.ok.inj hquery
          · cases hquery
        exact h.apply s.store hstatement

/-- A statement by itself changes its own collection at most, and none if it fails. -/
theorem docs_exec (fresh : String) {statement : Statement} (hstatement : statement.Within names)
    (hname : name ∉ names) : (s.exec fresh statement).1.store.docs name = s.store.docs name := by
  rcases exec_cases s fresh statement with ⟨e, he⟩ | ⟨command, rfl, he⟩
  · rw [he]
  · rw [he]
    show (s.autocommit (command.identified fresh)).1.store.docs name = _
    rcases store_autocommit s (command.identified fresh) with hsame | hperformed
    · rw [hsame]
    · rw [hperformed]
      rcases s.store.perform_cases (command.identified fresh) with hsame | ⟨docs, hinstalled⟩
      · rw [hsame]
      · rw [hinstalled, Store.docs_install, if_neg]
        rw [Command.collection_identified]
        rintro rfl
        exact hname hstatement

/-- A commit that succeeds or fails leaves the documents of other collections as
they are. -/
theorem docs_commit_other (h : tx.Within names) (hname : name ∉ names) :
    (s.commit tx).1.store.docs name = s.store.docs name := by
  rcases hcommit : s.commit tx with ⟨server, result⟩
  cases result with
  | ok done => exact h.docs_commit (commit_ok_store hcommit) hname
  | error e => exact congrArg (·.docs name) (commit_error_store hcommit)

/-- A call about these collections changes no other, and its client goes on to hold
nothing else. -/
theorem within_answer (h : HeldWithin names held) {c : Call} (hcall : c.Within names)
    (fresh : String) :
    HeldWithin names (s.answer held fresh c).2.1 ∧
      ∀ name ∉ names, (s.answer held fresh c).1.store.docs name = s.store.docs name := by
  constructor
  · -- What is held afterwards.
    cases c with
    | exec statement => exact h
    | query statement => exact h
    | begin =>
        unfold answer
        cases s.checkConnected with
        | ok connected => exact heldWithin_some (Transaction.within_nil names)
        | error e => exact h
    | execIn statement =>
        cases held with
        | none => exact heldWithin_none names
        | some tx => exact heldWithin_some (within_execIn (h tx rfl) fresh hcall)
    | queryIn statement =>
        cases held with
        | none => exact heldWithin_none names
        | some tx => exact heldWithin_some (within_queryIn (h tx rfl) hcall)
    | commit => cases held <;> exact heldWithin_none names
    | rollback e => exact heldWithin_none names
    | abandon => exact heldWithin_none names
  · -- What the store has afterwards.
    intro name hname
    rcases s.store_answer held fresh c with he | ⟨statement, rfl, he⟩ | ⟨tx, rfl, rfl, he⟩ <;>
      rw [he]
    · exact docs_exec fresh hcall hname
    · exact docs_commit_other (h tx rfl) hname

end Server

end StoreBench
