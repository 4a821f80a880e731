import StoreBench.Proofs.Document.Answers
import StoreBench.Proofs.Document.Changes

/-!
# `StoreBench.Proofs.Document.Refusal`: what the store never says

Workloads end on an exhausted resource, and only they know what their resource is.
The store fails for contention, for what it cannot store or change, and for a
client that it cannot serve: whatever it is asked, it never answers that something
is exhausted (`Server.isEnd_answer`).
-/

set_option autoImplicit false

namespace StoreBench

/-- Whether what came of a call is the end of a workload: an error that tells of an
exhausted resource. No other error is one, and neither is a call that broke off. -/
def Attempted.isEnd {α : Type} : Attempted α → Bool
  | .error (.error e) => e.isExhausted
  | .error (.crash _) | .ok _ => false

/-- Whether a reply is the end of a workload. Giving a transaction up has no reply that
could be one. -/
def Call.isEnd : (c : Call) → c.Reply → Bool
  | .exec _, reply | .execIn _, reply => Attempted.isEnd reply
  | .query _, reply | .queryIn _, reply => Attempted.isEnd reply
  | .begin, reply | .commit, reply => Attempted.isEnd (reply.mapError Failure.error)
  | .rollback _, _ | .abandon, _ => false

variable {e : BenchError}

/-- What a store refuses is told apart from the end of a workload: no error that a store
makes says that something is exhausted. -/
theorem BenchError.Refuses.isExhausted_eq (h : e.Refuses) : e.isExhausted = false := by
  cases e with
  | exhausted resource => cases h
  | _ => rfl

/-- What is refused is no end, nor is what was read off an outcome. -/
theorem Attempted.isEnd_map {α β : Type} {result : Attempted α} {f : α → β}
    (h : ∀ e, result = .error (.error e) → e.Refuses) : isEnd (result.map f) = false := by
  match result, h with
  | .ok a, _ => rfl
  | .error (.crash x), _ => rfl
  | .error (.error e), h => exact (h e rfl).isExhausted_eq

/-! ### Actions -/

/-- A change fails for the type of the field that it is applied to, and breaks off where
a counter overflows. Nothing else is possible. -/
theorem Change.refuses_of_apply {change : Change} {fields : Fields}
    (h : change.apply fields = .error (.error e)) : e.Refuses := by
  have hyields := change.yields_apply fields
  rw [h] at hyields
  cases hyields with
  | notPushed | notIncremented => trivial

/-- The changes of an update are made one after the other up to the first that fails,
and its error is that of this change. -/
theorem Update.refuses_of_editFields {update : Update} {fields : Fields}
    (h : (update.editFields fields).2 = .error (.error e)) : e.Refuses := by
  induction update generalizing fields with
  | nil => cases h
  | cons change rest ih =>
      simp only [editFields] at h
      split at h
      · exact ih h
      · rename_i failure hchange
        cases h
        exact Change.refuses_of_apply hchange

/-- An update needs an object to edit. Anything else is refused as such, with no change
tried. -/
theorem Update.refuses_of_edit {update : Update} {doc : Json}
    (h : (update.edit doc).2 = .error (.error e)) : e.Refuses := by
  match doc, h with
  | .obj fields, h => exact refuses_of_editFields h
  | .null, h | .bool _, h | .int _, h | .float _, h | .str _, h | .arr _, h =>
      cases h
      trivial

namespace Documents

variable {docs : Documents} {entries : List (String × Json)} {update : Update}

/-- Documents are edited one by one up to the first that cannot be, and the error is the
one of that document. -/
theorem refuses_of_editAll (h : (editAll update docs entries).2 = .error (.error e)) :
    e.Refuses := by
  induction entries generalizing docs with
  | nil => cases h
  | cons entry rest ih =>
      simp only [editAll] at h
      split at h
      · exact ih h
      · rename_i failure hedit
        cases h
        exact Update.refuses_of_edit hedit

/-- An update that selects many documents has no errors of its own beyond those of
editing each. -/
theorem refuses_of_update (h : (docs.update entries update).2 = .error (.error e)) :
    e.Refuses := by
  cases hall : (editAll update docs entries).2 with
  | ok done =>
      simp only [Documents.update, hall] at h
      cases h
  | error failure =>
      simp only [Documents.update, hall] at h
      cases h
      exact refuses_of_editAll hall

/-- An action on a collection is refused for what the store cannot store or change: no
object, a key that is taken, a field of another type. -/
theorem refuses_of_apply {collection : String} {action : Action}
    (h : (docs.apply collection action).2 = .error (.error e)) : e.Refuses := by
  cases action with
  | insertOne doc =>
      simp only [apply] at h
      split at h
      · cases h
      · rename_i hinsert
        cases h
        exact refuses_of_insertAll hinsert
  | updateOne filter changes => exact refuses_of_update h
  | updateMany filter changes => exact refuses_of_update h
  | deleteMany | dropCollection | findOne | find | count | groupSum => cases h

end Documents

namespace Transaction

variable {tx : Transaction} {store : Store} {command : Command}

/-- Looking at a collection in a transaction means to make the inserts that were held
back, which fail as any insert does. -/
theorem refuses_of_look {name : String} {touched : Option Touched}
    (h : look store name touched = .error e) : e.Refuses := by
  match touched, h with
  | some (.blind inserts), h =>
      simp only [look, bind, Except.bind] at h
      split at h
      · rename_i hinsert
        cases h
        exact Documents.refuses_of_insertAll hinsert
      · cases h

/-- An action on the private copy of a collection fails as looking at the collection
does, or as the action itself. -/
theorem refuses_of_applyToCopy (h : (tx.applyToCopy store command).2 = .error (.error e)) :
    e.Refuses := by
  simp only [applyToCopy] at h
  split at h
  · rename_i hlook
    cases h
    exact refuses_of_look hlook
  · exact Documents.refuses_of_apply h

/-- So does every action in a transaction, whether it works on a private copy or is held
back as an insert. -/
theorem refuses_of_apply (h : (tx.apply store command).2 = .error (.error e)) : e.Refuses := by
  simp only [apply] at h
  split at h
  · cases h
  · cases h
  · exact refuses_of_applyToCopy h

end Transaction

/-- A command by itself fails as its action does: the store adds its version to what is
done, and no error. -/
theorem Store.refuses_of_perform {store : Store} {command : Command}
    (h : (store.perform command).2 = .error (.error e)) : e.Refuses := by
  simp only [perform] at h
  split at h
  · cases h
  · rename_i failure happly
    cases h
    exact Documents.refuses_of_apply happly

/-! ### Calls -/

namespace Server

variable (s : Server)

/-- A command by itself is refused by the server as by the store, except for a fault
that is queued, and that is one of contention. -/
theorem refuses_of_autocommit {command : Command}
    (h : (s.autocommit command).2 = .error (.error e)) : e.Refuses := by
  unfold autocommit at h
  split at h
  · cases h
  · split at h
    · rename_i htake
      cases h
      exact refuses_of_takeFault (congrArg Prod.snd htake)
    · exact Store.refuses_of_perform h

/-- A server that is not connected says so, and this is an error of the connection. -/
theorem isExhausted_of_checkConnected (h : s.checkConnected = .error e) :
    e.isExhausted = false := by
  unfold checkConnected at h
  split at h
  · cases h
  · cases h
    rfl

/-- A statement of another kind of store is refused before anything is looked at, as one
that is not supported. -/
theorem isExhausted_of_commandOf {statement : Statement} (h : commandOf statement = .error e) :
    e.isExhausted = false := by
  cases statement with
  | document command => cases h
  | sql text values =>
      cases h
      rfl

/-- A query that is a statement of another kind, or that would write, is refused before
anything is looked at, and not as an exhausted resource. -/
theorem isExhausted_of_queryOf {statement : Statement} (h : queryOf statement = .error e) :
    e.isExhausted = false := by
  cases statement with
  | sql text values =>
      cases h
      rfl
  | document command =>
      simp only [queryOf, commandOf, bind, Except.bind] at h
      split at h
      · cases h
      · cases h
        rfl

/-- Whatever it is asked, the store never answers with the end of a workload. -/
theorem isEnd_answer (held : Option Transaction) (fresh : String) (c : Call) :
    c.isEnd (s.answer held fresh c).2.2 = false := by
  cases c with
  | exec statement =>
      -- A statement is stopped before it reaches the store, or by what the store says of
      -- it.
      show Attempted.isEnd (s.exec fresh statement).2 = false
      unfold exec
      split
      · rename_i hconnected
        exact isExhausted_of_checkConnected s hconnected
      · rename_i hcommand
        exact isExhausted_of_commandOf hcommand
      · exact Attempted.isEnd_map fun e => refuses_of_autocommit s
  | query statement =>
      show Attempted.isEnd (s.query statement).2 = false
      unfold query
      split
      · rename_i hconnected
        exact isExhausted_of_checkConnected s hconnected
      · rename_i hquery
        exact isExhausted_of_queryOf hquery
      · exact Attempted.isEnd_map fun e => refuses_of_autocommit s
  | begin =>
      cases hconnected : s.checkConnected with
      | ok connected =>
          simp only [answer, hconnected]
          rfl
      | error e =>
          simp only [answer, hconnected]
          exact isExhausted_of_checkConnected s hconnected
  | execIn statement =>
      cases held with
      | none => rfl
      | some tx =>
          show Attempted.isEnd (s.execIn tx fresh statement).2 = false
          unfold execIn
          split
          · rename_i hcommand
            exact isExhausted_of_commandOf hcommand
          · exact Attempted.isEnd_map fun e => Transaction.refuses_of_apply
  | queryIn statement =>
      cases held with
      | none => rfl
      | some tx =>
          show Attempted.isEnd (s.queryIn tx statement).2 = false
          unfold queryIn
          split
          · rename_i hquery
            exact isExhausted_of_queryOf hquery
          · exact Attempted.isEnd_map fun e => Transaction.refuses_of_apply
  | commit =>
      cases held with
      | none => rfl
      | some tx =>
          -- A commit is refused for contention or for what it stages.
          show Attempted.isEnd ((s.commit tx).2.mapError Failure.error) = false
          cases hcommit : (s.commit tx).2 with
          | ok committed => rfl
          | error e => exact (refuses_of_failed_commit hcommit).isExhausted_eq
  | rollback e => rfl
  | abandon => rfl

end Server

end StoreBench
