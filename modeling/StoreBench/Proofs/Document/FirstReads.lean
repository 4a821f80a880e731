import StoreBench.Proofs.Document.Commit
import StoreBench.Proofs.Document.Failure
import StoreBench.Proofs.Document.Turns

/-!
# `StoreBench.Proofs.Document.FirstReads`: commits and what was read before

A private copy keeps the version under which it was taken, and it is taken at the
first statement of its transaction that looks at the collection. `FirstRead` says
of a history that it was there, and `traced` finds the place of every copy that a
client holds.

So a transaction can be committed just when each collection that it has read has
the version of that read, and each batch that it holds back can be inserted
(`commit_exact`). When it cannot for a conflict, somebody else has changed a
collection since it was read: there is a step between the two at which the
collection got another version (`FirstRead.changed`), and that is a statement by
itself, a commit of another client or a reset, as no other step touches the
store.

Here a collection is changed when it is installed anew or cleared away, also if
the documents are the same as before. That is what the store goes by.
-/

set_option autoImplicit false

namespace StoreBench

/-! ### Keys of documents -/

/-- A field that is written has the value afterwards, whether it was there or not. -/
theorem Fields.get?_insert_self (fields : Fields) (name : String) (v : Json) :
    Fields.get? (Fields.insert fields name v) name = some v := by
  induction fields with
  | nil => simp [Fields.insert, Fields.get?]
  | cons field rest ih =>
      obtain ⟨k, w⟩ := field
      simp only [Fields.insert]
      split
      · simp [Fields.get?]
      · split
        · simp [Fields.get?]
        · rename_i hne
          simp only [Fields.get?, List.lookup_cons, beq_eq_false_iff_ne.mpr hne]
          exact ih

/-- Other fields keep theirs. Fields are kept in order, so that the new one may come
between any two. -/
theorem Fields.get?_insert_of_ne {name other : String} (h : name ≠ other) (fields : Fields)
    (v : Json) : Fields.get? (Fields.insert fields name v) other = Fields.get? fields other := by
  have hname : (other == name) = false := beq_eq_false_iff_ne.mpr h.symm
  induction fields with
  | nil => simp only [Fields.insert, Fields.get?, List.lookup_cons, hname]
  | cons field rest ih =>
      obtain ⟨k, w⟩ := field
      simp only [Fields.insert]
      split
      · simp only [Fields.get?, List.lookup_cons, hname]
      · split
        · rename_i hk
          subst hk
          simp only [Fields.get?, List.lookup_cons, hname]
        · simp only [Fields.get?, List.lookup_cons] at ih ⊢
          rw [ih]

/-- Writing several fields leaves those alone that are not among them. -/
theorem Fields.get?_foldl_insert {pairs : List (String × Json)} {name : String}
    (h : ∀ p ∈ pairs, p.1 ≠ name) (fields : Fields) :
    Fields.get? (pairs.foldl (fun fields p => Fields.insert fields p.1 p.2) fields) name
      = Fields.get? fields name := by
  induction pairs generalizing fields with
  | nil => rfl
  | cons p rest ih =>
      obtain ⟨hp, hrest⟩ := List.forall_mem_cons.mp h
      exact (ih hrest _).trans (get?_insert_of_ne hp fields p.2)

/-- An object that is identified has a key. -/
theorem Json.key?_identified {id : String} {doc : Json} {fields : Fields}
    (h : doc.identified id = .obj fields) : (Json.key? (.obj fields)).isSome = true := by
  cases doc with
  | obj given =>
      simp only [identified] at h
      split at h
      · rename_i v hv
        cases h
        simp [key?, hv]
      · cases h
        simp [key?, Fields.get?_insert_self]
  | _ => cases h

/-- An object that a command inserts has a key. -/
def Command.Keyed (command : Command) : Prop :=
  ∀ fields, command.action = .insertOne (.obj fields) → (Json.key? (.obj fields)).isSome = true

/-- A command is keyed once it has got a fresh identity. This is what servers see, never
the command as it was sent. -/
theorem Command.keyed_identified (command : Command) (fresh : String) :
    (command.identified fresh).Keyed := by
  obtain ⟨name, action⟩ := command
  intro fields haction
  cases action with
  | insertOne doc =>
      simp only [identified, Action.insertOne.injEq] at haction
      exact Json.key?_identified haction
  | _ => cases haction

/-- An identity for its document does not move a command. -/
theorem Command.collection_identified (command : Command) (fresh : String) :
    (command.identified fresh).collection = command.collection := by
  obtain ⟨name, action⟩ := command
  cases action <;> rfl

/-- A command that a step makes in a transaction inserts objects that have
keys. -/
theorem Traffic.keyed_of_inside {e : Traffic.Event} {client : Nat} {command : Command}
    (h : e.inside? = some (client, command)) : command.Keyed := by
  unfold Traffic.Event.inside? at h
  split at h
  · cases h
    exact Command.keyed_identified _ _
  · -- A query is a read, and inserts nothing.
    split at h
    · rename_i hread
      cases h
      intro fields haction
      rw [haction] at hread
      cases hread
    · cases h
  · cases h

/-- The version under which a private copy was taken. -/
def Touched.base? : Touched → Option Nat
  | copied working _ => some working.version
  | blind _ => none

namespace Transaction

variable {s : Store} {tx : Transaction} {command : Command} {name : String}

/-- The version under which the private copy of a collection was taken, if there
is one. -/
def base? (tx : Transaction) (name : String) : Option Nat := (tx.lookup name).bind Touched.base?

/-- Putting something in the place of one collection gives this collection its version,
and no other. -/
theorem base?_put (tx : Transaction) (name : String) (touched : Touched) (other : String) :
    (tx.put name touched).base? other
      = if name = other then touched.base? else tx.base? other := by
  unfold base?
  rw [lookup_put]
  split <;> rfl

/-- The version of the copy that a look gives: that of the copy that was there,
or else the one in the store. -/
theorem version_look {working : Collection} {dirty : Bool}
    (hlook : look s name (tx.lookup name) = .ok (working, dirty)) :
    working.version = (tx.base? name).getD (s.version name) := by
  unfold base?
  cases hheld : tx.lookup name with
  | none =>
      rw [hheld] at hlook
      cases hlook
      rfl
  | some touched =>
      cases touched with
      | copied held heldDirty =>
          rw [hheld] at hlook
          cases hlook
          rfl
      | blind inserts =>
          simp only [hheld, look, bind, Except.bind] at hlook
          split at hlook
          · cases hlook
          · cases hlook
            rfl

/-- What a command leaves in its transaction: a document more that is held back,
nothing that is held back, or a private copy to which it was applied. -/
theorem apply_cases (tx : Transaction) (s : Store) (command : Command) :
    (∃ doc inserts, command.action = .insertOne doc ∧
      (tx.lookup command.collection = none ∧ inserts = [] ∨
        tx.lookup command.collection = some (.blind inserts)) ∧
      (tx.apply s command).1 = tx.put command.collection (.blind (inserts ++ [doc]))) ∨
    (tx.base? command.collection = none ∧
      (tx.apply s command).1 = tx.put command.collection (.blind [])) ∨
    ∃ working dirty wrote,
      look s command.collection (tx.lookup command.collection) = .ok (working, dirty) ∧
      (tx.apply s command).1 = tx.put command.collection (.copied
        { working with docs := (working.docs.apply command.collection command.action).1 }
        wrote) := by
  obtain ⟨name, action⟩ := command
  simp only [apply]
  split
  · rename_i doc hnone
    exact .inl ⟨doc, [], rfl, .inl ⟨hnone, rfl⟩, rfl⟩
  · rename_i doc inserts hblind
    exact .inl ⟨doc, inserts, rfl, .inr hblind, rfl⟩
  · right
    simp only [applyToCopy]
    cases hlook : look s name (tx.lookup name) with
    | error e =>
        -- Only the documents that were held back can be in the way of a look.
        left
        refine ⟨?_, rfl⟩
        cases hheld : tx.lookup name with
        | none => simp [base?, hheld]
        | some touched =>
            cases touched with
            | blind inserts => simp [base?, hheld, Touched.base?]
            | copied working dirty =>
                rw [hheld] at hlook
                cases hlook
    | ok looked => exact .inr ⟨looked.1, looked.2, _, rfl, rfl⟩

/-- A transaction that has done nothing is well-formed. -/
theorem wellFormed_nil : WellFormed [] where
  nodup := List.nodup_nil
  keyed := nofun

/-- What is held back after something was put in place of one collection. -/
theorem WellFormed.put (h : tx.WellFormed) (name : String) (touched : Touched)
    (hkeyed : ∀ inserts, touched = .blind inserts →
      ∀ fields, .obj fields ∈ inserts → (Json.key? (.obj fields)).isSome = true) :
    (tx.put name touched).WellFormed where
  nodup := nodup_put h.nodup name touched
  keyed other inserts hmem := by
    rw [← lookup_eq_some_iff_mem (nodup_put h.nodup name touched), lookup_put] at hmem
    split at hmem
    · exact hkeyed inserts (Option.some.inj hmem)
    · exact h.keyed other inserts ((lookup_eq_some_iff_mem h.nodup).mp hmem)

/-- A transaction stays well formed through every command, whether the command succeeds
or not. -/
theorem WellFormed.apply (h : tx.WellFormed) (s : Store) (hcommand : command.Keyed) :
    (tx.apply s command).1.WellFormed := by
  rcases tx.apply_cases s command with ⟨doc, inserts, haction, hheld, he⟩ | ⟨-, he⟩ |
    ⟨working, dirty, wrote, -, he⟩ <;> rw [he] <;> refine h.put _ _ ?_
  · rintro _ ⟨⟩ fields hmem
    rcases List.mem_append.mp hmem with hold | hnew
    · rcases hheld with ⟨-, rfl⟩ | hblind
      · cases hold
      · exact h.keyed _ _ ((lookup_eq_some_iff_mem h.nodup).mp hblind) fields hold
    · obtain rfl := List.mem_singleton.mp hnew
      exact hcommand fields haction
  · rintro _ ⟨⟩ fields hmem
    cases hmem
  · nofun

/-- What a command does to the private copy of a collection: nothing, as far as
its version goes, unless the command is the first that looks at the collection. -/
theorem base?_apply (tx : Transaction) (s : Store) (command : Command) (name : String) :
    (tx.apply s command).1.base? name = tx.base? name ∨
    (tx.base? name = none ∧ command.collection = name ∧
      (tx.apply s command).1.base? name = some (s.version name)) := by
  by_cases hname : command.collection = name
  · subst hname
    rcases tx.apply_cases s command with ⟨doc, inserts, -, hheld, he⟩ | ⟨hnone, he⟩ |
      ⟨working, dirty, wrote, hlook, he⟩ <;> rw [he, base?_put, if_pos rfl]
    · left
      rcases hheld with ⟨hnone, -⟩ | hblind
      · simp [base?, hnone, Touched.base?]
      · simp [base?, hblind, Touched.base?]
    · exact .inl hnone.symm
    · -- The copy that was there is kept, and one that was not is of the current version.
      have hversion := version_look hlook
      simp only [Touched.base?, hversion]
      cases tx.base? command.collection with
      | none => exact .inr ⟨rfl, trivial, rfl⟩
      | some version => exact .inl rfl
  · left
    rcases tx.apply_cases s command with ⟨doc, inserts, -, -, he⟩ | ⟨-, he⟩ |
      ⟨working, dirty, wrote, -, he⟩ <;> rw [he, base?_put, if_neg hname]

end Transaction

namespace Traffic

variable {t : Traffic} {client : Nat} {name : String} {version : Nat} {e read : Event}
  {history before rest : List Event}

/-- A command that succeeds or fails in a transaction leaves there what it
leaves. -/
theorem Turn.held_cases {l : Ledger} {held : Option Transaction} {pending : List Deed}
    (h : Turn client t l e held pending) :
    held = t.held client ∨ held = none ∨
    (held = some [] ∧ ∃ fresh, e = .call client fresh .begin) ∨
    ∃ tx command, t.held client = some tx ∧ e.inside? = some (client, command) ∧
      held = some (tx.apply t.server.store command).1 := by
  cases h with
  | kept => exact .inl rfl
  | ended => exact .inr (.inl rfl)
  | begun hbegin => exact .inr (.inr (.inl ⟨rfl, _, hbegin⟩))
  | acted hheld hinside happly _ | stumbled hheld hinside happly =>
      exact .inr (.inr (.inr ⟨_, _, hheld, hinside, by rw [happly]⟩))

/-- A step does one of four things to what a client holds: nothing, it ends it, it
begins one, or it runs a command in it. -/
theorem held_cases (t : Traffic) (client : Nat) (e : Event) :
    (t.answer e).1.held client = t.held client ∨ (t.answer e).1.held client = none ∨
    ((t.answer e).1.held client = some [] ∧ ∃ fresh, e = .call client fresh .begin) ∨
    ∃ tx command, t.held client = some tx ∧ e.inside? = some (client, command) ∧
      (t.answer e).1.held client = some (tx.apply t.server.store command).1 :=
  (turn t {} client e).held_cases

/-! ### Transactions that are open -/

/-- What a client holds after any history is well-formed, if what it held at the
beginning was. -/
theorem wellFormed_held (hheld : ∀ tx, t.held client = some tx → tx.WellFormed)
    {tx : Transaction} (h : (t.pass history).held client = some tx) : tx.WellFormed := by
  induction history generalizing t with
  | nil => exact hheld tx h
  | cons e rest ih =>
      refine ih ?_ h
      intro after hafter
      rcases t.held_cases client e with he | he | ⟨he, -⟩ | ⟨tx, command, hbefore, hinside, he⟩ <;>
        rw [he] at hafter
      · exact hheld after hafter
      · cases hafter
      · cases hafter
        exact Transaction.wellFormed_nil
      · cases hafter
        exact (hheld tx hbefore).apply _ (keyed_of_inside hinside)

/-! ### First reads -/

/-- The version under which a client has taken its private copy of a collection,
if it has one. -/
def base? (t : Traffic) (client : Nat) (name : String) : Option Nat :=
  (t.held client).bind fun tx => tx.base? name

/-- A client has begun a transaction in the history, and has not looked at a
collection since. -/
def Unread (t : Traffic) (client : Nat) (name : String) (history : List Event) : Prop :=
  ∃ earlier fresh since, history = earlier ++ .call client fresh .begin :: since ∧
    ∀ first later, since = first ++ later →
      ∃ tx, (t.pass (earlier ++ .call client fresh .begin :: first)).held client = some tx ∧
        tx.base? name = none

/-- After `before`, the step `read` is the first of an open transaction of the
client that looks at a collection, which has this version then. The transaction
is open during all of `rest`, and keeps the copy. -/
structure FirstRead (t : Traffic) (client : Nat) (name : String) (version : Nat)
    (before : List Event) (read : Event) (rest : List Event) : Prop where
  unread : t.Unread client name before
  looks : ∃ command, read.inside? = some (client, command) ∧ command.collection = name
  version_eq : (t.pass before).server.store.version name = version
  kept : ∀ first later, rest = first ++ later →
    (t.pass (before ++ read :: first)).base? client name = some version

/-- A part of a list with one element more is a part of the list, or all of
it. -/
theorem split_concat {α : Type} {items first later : List α} {a : α}
    (h : items ++ [a] = first ++ later) :
    (∃ later', items = first ++ later') ∨ first = items ++ [a] := by
  rcases later.eq_nil_or_concat with rfl | ⟨later', b, rfl⟩
  · exact .inr (by rw [h, List.append_nil])
  · rw [List.concat_eq_append, ← List.append_assoc] at h
    exact .inl ⟨later', (List.append_inj' h rfl).1⟩

/-- A step after which the collection is still not copied keeps it unread. A transaction
that begins anew is unread from there on. -/
theorem Unread.concat (h : t.Unread client name history) {tx : Transaction}
    (hheld : (t.pass (history ++ [e])).held client = some tx) (hnone : tx.base? name = none) :
    t.Unread client name (history ++ [e]) := by
  obtain ⟨earlier, fresh, since, rfl, hsince⟩ := h
  refine ⟨earlier, fresh, since ++ [e], by simp, ?_⟩
  intro first later hsplit
  rcases split_concat hsplit with ⟨later', hfirst⟩ | rfl
  · exact hsince first later' hfirst
  · exact ⟨tx, by simpa using hheld, hnone⟩

/-- A step after which the copy still has its version keeps the first read where it was,
with one more step to the rest. -/
theorem FirstRead.concat (h : t.FirstRead client name version before read rest)
    (hbase : (t.pass (before ++ read :: (rest ++ [e]))).base? client name = some version) :
    t.FirstRead client name version before read (rest ++ [e]) where
  unread := h.unread
  looks := h.looks
  version_eq := h.version_eq
  kept first later hsplit := by
    rcases split_concat hsplit with ⟨later', hfirst⟩ | rfl
    · exact h.kept first later' hfirst
    · exact hbase

/-- What is held by a client tells what it has read since it began. -/
structure Traced (t : Traffic) (client : Nat) (name : String) (history : List Event)
    (tx : Transaction) : Prop where
  unread : tx.base? name = none → t.Unread client name history
  read : ∀ version, tx.base? name = some version →
    ∃ before read rest, history = before ++ read :: rest ∧
      t.FirstRead client name version before read rest

/-- One more step: whatever is held after it can be traced, if everything that is held
before can be. -/
theorem Traced.concat
    (h : ∀ tx, (t.pass history).held client = some tx → t.Traced client name history tx)
    {after : Transaction} (hafter : (t.pass (history ++ [e])).held client = some after) :
    t.Traced client name (history ++ [e]) after := by
  have hpass : t.pass (history ++ [e]) = ((t.pass history).answer e).1 := t.pass_append _ _
  -- A transaction whose copy has the version that it had, if there was one.
  have hsame (tx : Transaction) (hheld : (t.pass history).held client = some tx)
      (hbase : after.base? name = tx.base? name) :
      t.Traced client name (history ++ [e]) after := by
    constructor
    · intro hnone
      exact ((h tx hheld).unread (hbase ▸ hnone)).concat hafter hnone
    · intro version hversion
      obtain ⟨before, read, rest, rfl, hfirst⟩ := (h tx hheld).read version (hbase ▸ hversion)
      refine ⟨before, read, rest ++ [e], by simp, hfirst.concat ?_⟩
      simp only [List.append_assoc, List.cons_append] at hafter
      rw [base?, hafter]
      exact hversion
  have hstep := hafter
  rw [hpass] at hstep
  rcases (t.pass history).held_cases client e with he | he | ⟨he, fresh, rfl⟩ |
    ⟨tx, command, hheld, hinside, he⟩ <;> rw [he] at hstep
  · exact hsame after hstep rfl
  · cases hstep
  · cases hstep
    refine ⟨fun _ => ⟨history, fresh, [], rfl, ?_⟩, nofun⟩
    intro first later hsplit
    obtain ⟨rfl, -⟩ := List.append_eq_nil_iff.mp hsplit.symm
    exact ⟨[], hafter, rfl⟩
  · cases hstep
    rcases tx.base?_apply (t.pass history).server.store command name with hbase |
      ⟨hnone, hname, hbase⟩
    · exact hsame tx hheld hbase
    · -- The copy is taken now.
      refine ⟨fun hnew => absurd (hbase.symm.trans hnew) nofun, ?_⟩
      intro version hversion
      rw [hbase] at hversion
      refine ⟨history, e, [], rfl, (h tx hheld).unread hnone, ⟨command, hinside, hname⟩,
        Option.some.inj hversion, ?_⟩
      intro first later hsplit
      obtain ⟨rfl, -⟩ := List.append_eq_nil_iff.mp hsplit.symm
      rw [base?, hafter, ← hversion]
      exact hbase

/-- Every open transaction tells what it has read. -/
theorem traced (hnew : t.held client = none) (name : String) {history : List Event}
    {tx : Transaction} (hheld : (t.pass history).held client = some tx) :
    t.Traced client name history tx := by
  -- Step by step over what is still to come, with what has passed generalised.
  have hall (later first : List Event)
      (h : ∀ tx, (t.pass first).held client = some tx → t.Traced client name first tx) :
      ∀ tx, (t.pass (first ++ later)).held client = some tx →
        t.Traced client name (first ++ later) tx := by
    induction later generalizing first with
    | nil => simpa using h
    | cons e later ih =>
        have hnext := ih (first ++ [e]) fun tx htx => Traced.concat h htx
        simpa using hnext
  refine hall history [] ?_ tx hheld
  intro tx htx
  exact absurd (htx.symm.trans hnew) nofun

/-! ### Changes since a read -/

/-- A step that does not belong to the transaction that a client has open, and
that may change the store: a statement by itself, the commit of another client, or
a reset. -/
def Event.IsForeign (client : Nat) : Event → Prop
  | .call _ _ (.exec _) | .reset => True
  | .call other _ .commit => other ≠ client
  | _ => False

/-- A statement in a transaction leaves the server as it was. -/
theorem server_of_inside {p : Nat × Command} (h : e.inside? = some p) :
    (t.answer e).1.server = t.server := by
  unfold Event.inside? at h
  split at h
  · rename_i caller fresh command
    simp only [answer, Server.answer]
    cases t.held caller <;> rfl
  · rename_i caller fresh command
    simp only [answer, Server.answer]
    cases t.held caller <;> rfl
  · cases h

/-- A client that has committed has no transaction, whatever came of it. -/
theorem held_of_commit (t : Traffic) (client : Nat) (fresh : String) :
    (t.answer (.call client fresh .commit)).1.held client = none := by
  simp only [answer, Server.answer]
  cases t.held client <;> exact putFor_self _ _ _

/-- A step that changes the store while a client has a transaction open is
foreign to that. -/
theorem isForeign_of_changed {tx : Transaction}
    (hstore : (t.answer e).1.server.store ≠ t.server.store)
    (hheld : (t.answer e).1.held client = some tx) : e.IsForeign client := by
  rcases t.store_answer_cases e with hsame | ⟨other, fresh, statement, rfl⟩ |
    ⟨other, fresh, rfl⟩ | rfl
  · exact absurd hsame hstore
  · trivial
  · -- The client's own commit would have ended its transaction.
    rintro rfl
    rw [held_of_commit] at hheld
    cases hheld
  · trivial

/-- What differs at the two ends of a list of steps differs before and after one
of them. -/
theorem exists_change {α β : Type} (f : List α → β) (items : List α) (h : f [] ≠ f items) :
    ∃ first a later, items = first ++ a :: later ∧ f first ≠ f (first ++ [a]) := by
  induction items generalizing f with
  | nil => exact absurd rfl h
  | cons a rest ih =>
      by_cases hfirst : f [] = f [a]
      · obtain ⟨first, b, later, rfl, hchange⟩ := ih (fun l => f (a :: l)) (hfirst ▸ h)
        exact ⟨a :: first, b, later, rfl, hchange⟩
      · exact ⟨[], a, rest, rfl, hfirst⟩

/-- A collection whose version is not that of its first read any more was changed
by a step in between, which is foreign to the transaction. -/
theorem FirstRead.changed (h : t.FirstRead client name version before read rest)
    (hstale : (t.pass (before ++ read :: rest)).server.store.version name ≠ version) :
    ∃ first e later, rest = first ++ e :: later ∧ e.IsForeign client ∧
      (t.pass (before ++ read :: (first ++ [e]))).server.store.version name
        ≠ (t.pass (before ++ read :: first)).server.store.version name := by
  -- The read itself changes nothing, so that the step is one of `rest`.
  have hread : (t.pass (before ++ [read])).server.store.version name = version := by
    obtain ⟨command, hinside, -⟩ := h.looks
    rw [pass_append, ← h.version_eq]
    exact congrArg (fun server : Server => server.store.version name) (server_of_inside hinside)
  obtain ⟨first, e, later, rfl, hchange⟩ := exists_change
    (fun steps => (t.pass (before ++ read :: steps)).server.store.version name) rest
    fun hsame => hstale (hsame.symm.trans hread)
  refine ⟨first, e, later, rfl, ?_, hchange.symm⟩
  have hpass : t.pass (before ++ read :: (first ++ [e]))
      = ((t.pass (before ++ read :: first)).answer e).1 := by
    rw [show before ++ read :: (first ++ [e]) = (before ++ read :: first) ++ [e] by simp,
      pass_append]
    rfl
  -- The client holds its transaction also after that step, which is why it is foreign.
  obtain ⟨tx, hheld, -⟩ := Option.bind_eq_some_iff.mp (h.kept (first ++ [e]) later (by simp))
  rw [hpass] at hheld
  refine isForeign_of_changed ?_ hheld
  intro hsame
  refine hchange ?_
  simp only [hpass, hsame]

/-- **Exact commits.** A transaction that a client has open, after any history of
the traffic, may be committed at any store, with its collections visited in any
order. Where no fault is injected:

* the commit succeeds just when each collection of which there is a private copy
  has the version of its first read, and all documents that are held back for
  another are objects whose keys are different from each other and from those of
  the collection as it is then;
* the documents of all collections afterwards are the same for every order;
* a conflict at the end of the history means that a foreign step has changed a
  collection since the transaction read it. -/
theorem commit_exact (faults : List Fault) (latency : Span) (history : List Event) (client : Nat)
    (tx : Transaction)
    (hheld : ((new faults latency).pass history).held client = some tx) :
    (∀ name working dirty, (name, .copied working dirty) ∈ tx →
      ∃ before read rest, history = before ++ read :: rest ∧
        (new faults latency).FirstRead client name working.version before read rest) ∧
    (∀ (s : Server) (order : Transaction), s.takeFault.2 = none → order.Perm tx →
      ((s.commit order).2 = .ok () ↔ ∀ entry ∈ tx, entry.2.Fits s.store entry.1) ∧
      (s.commit order).1.store.docs = (s.commit tx).1.store.docs) ∧
    ∀ (order : Transaction) (code message : String),
      let t := (new faults latency).pass history
      t.server.takeFault.2 = none → order.Perm tx →
      (t.server.commit order).2 = .error (.conflict code message) →
      ∃ name version before read first e later,
        history = before ++ read :: (first ++ e :: later) ∧
        (new faults latency).FirstRead client name version before read (first ++ e :: later) ∧
        e.IsForeign client ∧
        ((new faults latency).pass (before ++ read :: (first ++ [e]))).server.store.version name
          ≠ ((new faults latency).pass (before ++ read :: first)).server.store.version name := by
  -- What is held can be traced, copy by copy.
  have hformed : tx.WellFormed := wellFormed_held (t := new faults latency) nofun hheld
  have hread (name : String) (working : Collection) (dirty : Bool)
      (hmem : (name, .copied working dirty) ∈ tx) :
      ∃ before read rest, history = before ++ read :: rest ∧
        (new faults latency).FirstRead client name working.version before read rest := by
    refine (traced (t := new faults latency) rfl name hheld).read working.version ?_
    rw [Transaction.base?, (Transaction.lookup_eq_some_iff_mem hformed.nodup).mpr hmem]
    rfl
  refine ⟨hread, ?_, ?_⟩
  · intro s order hfault horder
    refine ⟨?_, Server.docs_commit_perm hfault hformed horder⟩
    rw [Server.commit_isOk_iff hfault (hformed.perm horder)]
    exact forall_congr' fun entry => imp_congr_left horder.mem_iff
  · intro order code message t hfault horder hconflict
    rcases Server.commit_of_no_fault hfault order with ⟨store, -, hreply, -⟩ |
      ⟨e, hcommit, hreply, -⟩
    · rw [hreply] at hconflict
      cases hconflict
    · -- The commit met a copy whose version is not that of its first read.
      rw [hreply] at hconflict
      cases hconflict
      obtain ⟨name, working, dirty, hmem, hstale⟩ := Transaction.stale_of_conflict hcommit
      obtain ⟨before, read, rest, rfl, hfirst⟩ := hread name working dirty (horder.mem_iff.mp hmem)
      obtain ⟨first, e, later, rfl, hforeign, hchange⟩ := hfirst.changed hstale
      exact ⟨name, working.version, before, read, first, e, later, rfl, hfirst, hforeign, hchange⟩

/-- An order that is held back, and a stock that another client fills after it was
counted. -/
def filledMeanwhile : List Event :=
  [ .connect "memory://",
    .call 0 "" .begin,
    .call 0 "o" (.execIn (.on "orders" (.insertOne (.obj [])))),
    .call 0 "" (.queryIn (.on "stock" (.count .all))),
    .call 1 "a" (.exec (.on "stock" (.insertOne (.obj [])))) ]

/-- A transaction that holds an insertion back and counts another collection, into which
somebody inserts before it commits. -/
theorem commit_exact_filled :
    let t := (new [] .zero).pass filledMeanwhile
    ∃ tx, t.held 0 = some tx ∧ tx.length = 2 ∧
      (t.server.commit tx.reverse).2 = .error (.conflict "MEM_CONFLICT"
        "collection `stock` changed during transaction") ∧
      (¬ ∀ entry ∈ tx, entry.2.Fits t.server.store entry.1) ∧
      (t.server.commit tx.reverse).1.store.docs = (t.server.commit tx).1.store.docs ∧
      ∃ e ∈ filledMeanwhile, e.IsForeign 0 := by
  intro t
  obtain ⟨-, hcommit, hconflict⟩ := commit_exact [] .zero filledMeanwhile 0 _ rfl
  obtain ⟨hiff, hdocs⟩ := hcommit t.server _ rfl (List.reverse_perm _)
  obtain ⟨name, version, before, read, first, e, later, hsplit, -, hforeign, -⟩ :=
    hconflict _ _ _ rfl (List.reverse_perm _) rfl
  refine ⟨_, rfl, rfl, rfl, ?_, hdocs, e, by simp [hsplit], hforeign⟩
  intro hfits
  cases hiff.mpr hfits

end Traffic

end StoreBench
