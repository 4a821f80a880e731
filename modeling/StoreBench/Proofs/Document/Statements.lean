import StoreBench.Proofs.Document.Failure
import StoreBench.Proofs.Document.Turns

/-!
# `StoreBench.Proofs.Document.Statements`: statements that fail in a transaction

A client may pass over the failure of a statement in its transaction and go on to
the commit. What is then installed should be the effect of the statements that
succeeded. `commit_all_or_nothing` says that it is, whatever failed, for any
number of clients and any order of their steps, unless one of the failures was of
the two kinds that `Transaction.Spoils` lists:

* an update that fails after its first edits leaves these edits in the private
  copy, and they are installed if the copy is;
* a command that needs to look at a collection when the documents held back for
  it cannot be inserted loses these documents, although each of their inserts
  had succeeded.

A single statement has neither effect, as it works on a copy that is dropped with
the failure (`Server.autocommit_error`). All other failures in a transaction do no
harm (`Spoils.update_or_lost`). `not_always_all_or_nothing` shows both kinds at
work.

The invariant is `Stands`: as long as nothing was spoilt, the transaction that a
client holds stands for its deeds.
-/

set_option autoImplicit false

namespace StoreBench

/-- What fails leaves the documents as they were, unless it is an update. -/
theorem Documents.apply_error {collection : String} {docs after : Documents} {action : Action}
    {failure : Failure} (h : docs.apply collection action = (after, .error failure)) :
    after = docs ∨ ∃ filter changes,
      action = .updateOne filter changes ∨ action = .updateMany filter changes := by
  cases action with
  | insertOne doc =>
      left
      simp only [apply] at h
      split at h
      · cases h
      · exact (Prod.mk.inj h).1.symm
  | updateOne filter changes => exact .inr ⟨filter, changes, .inl rfl⟩
  | updateMany filter changes => exact .inr ⟨filter, changes, .inr rfl⟩
  | deleteMany | dropCollection | findOne | find | count | groupSum => cases h

namespace Transaction

variable {s : Store} {tx after : Transaction} {command : Command} {deeds : List Deed}
  {failure : Failure}

/-- A command that fails in a transaction and does not leave it as it was. -/
inductive Spoils (tx : Transaction) (s : Store) (command : Command) : Prop
  /-- The documents held back cannot be inserted into the copy, and are lost. -/
  | lost {after : Transaction} {failure : Failure} {e : BenchError}
      (happly : tx.apply s command = (after, .error failure))
      (hlook : look s command.collection (tx.lookup command.collection) = .error e)
  /-- Edits were made before the failure, and stay in the copy. -/
  | edited {working : Collection} {dirty : Bool} {docs : Documents} {failure : Failure}
      (hlook : look s command.collection (tx.lookup command.collection) = .ok (working, dirty))
      (hdone : working.docs.apply command.collection command.action = (docs, .error failure))
      (hedited : docs ≠ working.docs)

/-- Only two kinds of commands spoil a transaction: updates, and those that look
at a collection into which the documents held back for it cannot be inserted. -/
theorem Spoils.update_or_lost (h : tx.Spoils s command) :
    (∃ filter changes,
      command.action = .updateOne filter changes ∨ command.action = .updateMany filter changes) ∨
    ∃ inserts e, tx.lookup command.collection = some (.blind inserts) ∧
      (s.docs command.collection).insertAll command.collection inserts = .error e := by
  cases h with
  | edited hlook hdone hedited =>
      exact .inl ((Documents.apply_error hdone).resolve_left hedited)
  | lost happly hlook =>
      right
      -- Only a batch that is held back can be lost.
      cases hheld : tx.lookup command.collection with
      | none =>
          rw [hheld] at hlook
          cases hlook
      | some touched =>
          cases touched with
          | copied working dirty =>
              rw [hheld] at hlook
              cases hlook
          | blind inserts =>
              simp only [hheld, look, bind, Except.bind] at hlook
              split at hlook
              · rename_i e he
                exact ⟨inserts, e, rfl, he⟩
              · cases hlook

/-- A command that fails without spoiling the transaction adds no deed and takes
none away. -/
theorem Tracks.stumble (h : Tracks s tx deeds) (hs : s.Sound)
    (happly : tx.apply s command = (after, .error failure)) (hspoils : ¬ tx.Spoils s command) :
    Tracks s after deeds := by
  -- An insert that is held back does not fail, so the command went to the copy.
  have hcopy : tx.applyToCopy s command = (after, .error failure) := by
    rw [← happly]
    simp only [Transaction.apply] at happly ⊢
    split at happly <;> first | cases happly | rfl
  obtain ⟨base, h⟩ := h
  cases hlook : look s command.collection (tx.lookup command.collection) with
  | error e => exact absurd (.lost happly hlook) hspoils
  | ok looked =>
      -- Documents that were held back are in the copy now, and stand for the same deeds there.
      obtain ⟨working, dirty⟩ := looked
      obtain ⟨newBase, htaken, hlead⟩ := look_ok h hs hlook
      rcases hdone : working.docs.apply command.collection command.action with ⟨docs, result⟩
      simp only [Transaction.applyToCopy, hlook, hdone, Prod.mk.injEq] at hcopy
      obtain ⟨rfl, rfl⟩ := hcopy
      -- The copy is the one that the look gave, also if it was taken just now.
      have hsame : docs = working.docs := by
        by_cases hedited : docs = working.docs
        · exact hedited
        · exact absurd (.edited hlook hdone hedited) hspoils
      subst hsame
      refine ⟨_, h.replace newBase ?_ ?_⟩
      · rintro _ _ ⟨⟩
        exact ⟨htaken.version_le, htaken.base_of_zero, htaken.base_of_version,
          fun hclean => htaken.clean (Bool.or_eq_false_iff.mp hclean).1⟩
      · rintro before final ⟨rfl, rfl⟩
        exact hlead

end Transaction

namespace Traffic

variable {t : Traffic} {l : Ledger} {client : Nat} {e : Event}

/-- A statement of a client spoils the transaction that it has open. -/
def Spoils (t : Traffic) (client : Nat) (e : Event) : Prop :=
  ∃ tx command, t.held client = some tx ∧ e.inside? = some (client, command) ∧
    tx.Spoils t.server.store command

/-- None of the steps spoils the transaction of a client. Its statements may
fail otherwise. -/
def Unspoilt (client : Nat) : Traffic → List Event → Prop
  | _, [] => True
  | t, e :: rest => ¬ t.Spoils client e ∧ Unspoilt client (t.answer e).1 rest

/-- The transaction that a client has open stands for its deeds. -/
structure Stands (client : Nat) (t : Traffic) (l : Ledger) : Prop where
  sound : t.server.store.Sound
  tracks : ∀ tx, t.held client = some tx → tx.Tracks t.server.store (l.pending client)

/-- A step that does not spoil the transaction keeps what it stands for. -/
theorem Stands.follow (h : Stands client t l) (hspoils : ¬ t.Spoils client e) :
    Stands client (follow (t, l) e).1 (follow (t, l) e).2 where
  sound := sound_step h.sound e
  tracks := by
    have hsince : t.server.store.Since (Traffic.follow (t, l) e).1.server.store := since_step t e
    have hturn := turn t l client e
    -- The cases are those of what the client holds and has noted down afterwards.
    generalize (Traffic.follow (t, l) e).2.pending client = pending at hturn ⊢
    generalize (Traffic.follow (t, l) e).1.held client = held at hturn ⊢
    intro tx hheld
    cases hturn with
    | kept => exact (h.tracks tx hheld).since hsince
    | ended => cases hheld
    | begun hbegin =>
        cases hheld
        exact Transaction.tracks_nil _
    | acted hbefore hinside happly hseen =>
        cases hheld
        exact ((h.tracks _ hbefore).apply h.sound happly hseen).since hsince
    | stumbled hbefore hinside happly =>
        cases hheld
        refine ((h.tracks _ hbefore).stumble h.sound happly ?_).since hsince
        exact fun hspoilt => hspoils ⟨_, _, hbefore, hinside, hspoilt⟩

/-- What the client has made stands in any run that does not spoil it, whatever others
do in between. -/
theorem Stands.run {u : Traffic × Ledger} {events : List Event} (h : Stands client u.1 u.2)
    (hunspoilt : Unspoilt client u.1 events) :
    Stands client (run u events).1 (run u events).2 := by
  induction events generalizing u with
  | nil => exact h
  | cons e rest ih => exact ih (h.follow hunspoilt.1) hunspoilt.2

/-- A sound store stays sound in any run. -/
theorem sound_run {u : Traffic × Ledger} (h : u.1.server.store.Sound) (events : List Event) :
    (run u events).1.server.store.Sound := by
  induction events generalizing u with
  | nil => exact h
  | cons e rest ih => exact ih (sound_step h e)

/-- A transaction that has just begun stands for nothing. -/
theorem stands_begin (hs : t.server.store.Sound) {fresh : String}
    (hbegin : (t.answer (.call client fresh .begin)).2 = .ok ()) :
    Stands client (follow (t, l) (.call client fresh .begin)).1
      (follow (t, l) (.call client fresh .begin)).2 where
  sound := sound_step hs _
  tracks := by
    intro tx hheld
    simp only [answer, Server.answer] at hbegin
    simp only [Traffic.follow, answer, Server.answer, Ledger.record] at hheld ⊢
    cases hconnected : t.server.checkConnected with
    | error e =>
        rw [hconnected] at hbegin
        cases hbegin
    | ok connected =>
        simp only [hconnected, putFor_self, Option.some.injEq] at hheld
        subst hheld
        simp only [Ledger.recordCall, Ledger.pending_begin]
        exact Transaction.tracks_nil _

/-- **All or nothing.** In every traffic, and whatever was before: a client
begins a transaction, any number of steps follow, its own and those of others, in
any order, and then it commits and succeeds. Some of its statements may have
failed without its taking notice. If none of them spoilt the transaction, then
what is installed is the effect of exactly the statements that succeeded, in their
order, on what the store held at the commit; and each of them saw what it sees
there. -/
theorem commit_all_or_nothing (faults : List Fault) (latency : Span) (history : List Event)
    (client : Nat) (fresh : String) (during : List Event) :
    let begun := run (new faults latency, {}) (history ++ [.call client fresh .begin])
    let u := run begun during
    let done := u.1.answer (.call client "" .commit)
    ((run (new faults latency, {}) history).1.answer (.call client fresh .begin)).2 = .ok () →
    Unspoilt client begun.1 during → done.2 = .ok () →
    Contents.Explains u.1.server.store.docs (u.2.pending client) ∧
      done.1.server.store.docs = Contents.run u.1.server.store.docs (u.2.pending client) := by
  intro begun u done hbegin hunspoilt hdone
  have hsound := sound_run (u := (new faults latency, {})) Store.sound_empty history
  have hbegun : begun = Traffic.follow (run (new faults latency, {}) history)
      (.call client fresh .begin) := List.foldl_append
  have hstands : Stands client begun.1 begun.2 := by
    rw [hbegun]
    exact stands_begin hsound hbegin
  obtain ⟨-, htracks⟩ := hstands.run hunspoilt
  obtain ⟨tx, hheld, hcommit⟩ := commit_ok hdone
  obtain ⟨hexplains, hrun⟩ := (htracks tx hheld).commit hcommit
  exact ⟨hexplains, hrun.symm⟩

/-- A second document of a key that the client has seen, refused and passed over;
then one that is new. -/
def carefree : List Event :=
  [ .call 0 "" (.queryIn (.on "stock" (.count .all))),
    .call 0 "" (.execIn (.on "stock" (.insertOne (.obj [("_id", .str "a")])))),
    .call 0 "c" (.execIn (.on "stock" (.insertOne (.obj [("left", .int 5)])))) ]

/-- A failure that the client passes over keeps the commit from nothing: the two that
succeeded take effect. -/
theorem commit_all_or_nothing_carefree :
    let begun := run (new [] .zero, {}) (spoiled ++ [.call 0 "" .begin])
    let u := run begun carefree
    let done := u.1.answer (.call 0 "" .commit)
    Unspoilt 0 begun.1 carefree ∧ u.2.failed 0 = true ∧ (u.2.pending 0).length = 2 ∧
      done.2 = .ok () ∧
      done.1.server.store.docs = Contents.run u.1.server.store.docs (u.2.pending 0) := by
  intro begun u done
  -- None of the commands is an update, and none meets a batch that was held back.
  have hunspoilt : Unspoilt 0 begun.1 carefree := by
    refine ⟨?_, ?_, ?_, trivial⟩
    all_goals
      rintro ⟨tx, command, hheld, hinside, hspoils⟩
      cases hheld
      cases hinside
      rcases hspoils.update_or_lost with ⟨filter, changes, hupdate⟩ | ⟨inserts, e, hblind, -⟩
      · rcases hupdate with hone | hmany
        · cases hone
        · cases hmany
      · cases hblind
  have hdone : done.2 = .ok () := rfl
  exact ⟨hunspoilt, rfl, rfl, hdone,
    (commit_all_or_nothing [] .zero spoiled 0 "" carefree rfl hunspoilt hdone).2⟩

/-- Takes one of everything, which changes the first before it fails, and adds
something else. -/
def takeAndAdd : List Event :=
  [ .call 0 "" .begin,
    .call 0 "" (.execIn (.on "stock" (.updateMany .all [.inc "left" (-1)]))),
    .call 0 "c" (.execIn (.on "stock" (.insertOne (.obj [("left", .int 5)])))) ]

/-- Adds a document blindly, while another client adds one of the same key. A
count fails for that. Then the other drops the collection. -/
def addAndCount : List Event :=
  [ .connect "memory://",
    .call 0 "" .begin,
    .call 0 "n" (.execIn (.on "stock" (.insertOne (.obj [])))),
    .call 1 "n" (.exec (.on "stock" (.insertOne (.obj [])))),
    .call 0 "" (.queryIn (.on "stock" (.count .all))),
    .call 1 "" (.exec (.on "stock" .dropCollection)) ]

/-- The commit of a transaction in which a statement failed may install more than
the effect of the others, and it may install less. In both runs one statement of
the client succeeded, an insert, and one failed. In the first the commit installs
an edit of the failed update as well; in the second it does not install the
document. -/
theorem not_always_all_or_nothing :
    (let u := run (new [] .zero, {}) (spoiled ++ takeAndAdd)
      let done := u.1.answer (.call 0 "" .commit)
      (u.2.pending 0).length = 1 ∧ done.2 = .ok () ∧
      ((done.1.server.store.docs "stock")["a"]?).bind (·.lookup "left") = some (.int 2) ∧
      ((Contents.run u.1.server.store.docs (u.2.pending 0) "stock")["a"]?).bind (·.lookup "left")
        = some (.int 3) ∧
      done.1.server.store.docs ≠ Contents.run u.1.server.store.docs (u.2.pending 0)) ∧
    (let u := run (new [] .zero, {}) addAndCount
      let done := u.1.answer (.call 0 "" .commit)
      (u.2.pending 0).length = 1 ∧ done.2 = .ok () ∧
      (done.1.server.store.docs "stock").contains "n" = false ∧
      (Contents.run u.1.server.store.docs (u.2.pending 0) "stock").contains "n" = true ∧
      done.1.server.store.docs ≠ Contents.run u.1.server.store.docs (u.2.pending 0)) := by
  refine ⟨⟨rfl, rfl, rfl, rfl, ?_⟩, rfl, rfl, rfl, rfl, ?_⟩
  · intro hsame
    have hleft := congrArg (fun c : Contents => ((c "stock")["a"]?).bind (·.lookup "left")) hsame
    cases hleft
  · intro hsame
    have hnew := congrArg (fun c : Contents => (c "stock").contains "n") hsame
    cases hnew

end Traffic

end StoreBench
