import StoreBench.Document.Transaction

/-!
# `StoreBench.Proofs.Document.Serial`: one command after the other

`Contents` is what a store holds without its versions: documents by the name
of their collection. `Contents.perform` makes one command on it directly, so
running a list of commands is the plainest way to use a store: one client,
no transactions, nothing in between.

A `Deed` is a command together with what its client saw of the outcome.
`Contents.Explains` says that a list of deeds is what a serial run from
these contents shows, deed by deed.

The lemmas on `Documents` say what the serial run and a transaction have in
common: a batch is inserted whole or in parts alike (`insertAll_append`),
and an action that wrote nothing left the documents alone
(`apply_of_not_wrote`).
-/

set_option autoImplicit false

namespace StoreBench

namespace Documents

/-- A batch of two parts is inserted by inserting the parts in turn. -/
theorem insertAll_append (collection : String) (docs : Documents) (first rest : List Json) :
    docs.insertAll collection (first ++ rest)
      = (docs.insertAll collection first).bind fun mid => mid.insertAll collection rest := by
  induction first generalizing docs with
  | nil => rfl
  | cons doc first ih =>
      simp only [List.cons_append, insertAll]
      split
      · rfl
      · split
        · rfl
        · exact ih _

/-- Inserting one document is the action of inserting it, where it is let in. -/
theorem apply_insertOne {collection : String} {docs after : Documents} {doc : Json}
    (h : docs.insertAll collection [doc] = .ok after) :
    docs.apply collection (.insertOne doc) = (after, .ok { affected := 1, wrote := true }) := by
  simp only [apply, h]

/-- Editing the entries of no document changes nothing, and is answered with none. -/
theorem update_nil (docs : Documents) (changes : Update) :
    docs.update [] changes = (docs, .ok { affected := 0, wrote := false }) := rfl

/-- An update that wrote nothing had no entries to edit. -/
theorem update_of_not_wrote {docs after : Documents} {entries : List (String × Json)}
    {changes : Update} {outcome : Outcome}
    (h : docs.update entries changes = (after, .ok outcome)) (hw : outcome.wrote = false) :
    after = docs := by
  cases entries with
  | nil =>
      rw [update_nil] at h
      simp_all
  | cons entry rest =>
      -- There is an entry to edit, so an update that succeeds has written.
      simp only [update, Prod.mk.injEq] at h
      obtain ⟨-, hres⟩ := h
      cases hedit : (editAll changes docs (entry :: rest)).2 with
      | error failure =>
          rw [hedit] at hres
          cases hres
      | ok u =>
          rw [hedit] at hres
          cases hres
          simp at hw

/-- A deletion that deleted nothing kept every document, as it adds none. -/
theorem filter_of_size_le {docs : Documents} {keep : String → Json → Bool}
    (h : docs.size ≤ (docs.filter keep).size) : docs.filter keep = docs := by
  have hle := Std.ExtTreeMap.size_filter_le_size (t := docs) (f := keep)
  rw [Std.ExtTreeMap.filter_eq_self_iff]
  exact Std.ExtTreeMap.size_filter_eq_size_iff.mp (Nat.le_antisymm hle h)

/-- An action that succeeded without writing left the documents alone, so a
private copy it was made on need not be installed. -/
theorem apply_of_not_wrote {collection : String} {docs after : Documents} {action : Action}
    {outcome : Outcome} (h : docs.apply collection action = (after, .ok outcome))
    (hw : outcome.wrote = false) : after = docs := by
  cases action with
  | insertOne doc =>
      simp only [apply] at h
      split at h <;> simp_all
      simp [← h.2] at hw
  | updateOne filter changes => exact update_of_not_wrote h hw
  | updateMany filter changes => exact update_of_not_wrote h hw
  | deleteMany filter =>
      simp only [apply, Prod.mk.injEq, Except.ok.injEq] at h
      obtain ⟨rfl, rfl⟩ := h
      -- Nothing was deleted, so what is kept is of the same size.
      simp only [decide_eq_false_iff_not, Nat.not_lt, Nat.le_zero] at hw
      exact filter_of_size_le (by omega)
  | dropCollection =>
      simp only [apply, Prod.mk.injEq, Except.ok.injEq] at h
      simp [← h.2] at hw
  | findOne filter => simp_all [apply]
  | find filter => simp_all [apply]
  | count filter => simp_all [apply]
  | groupSum filter groupBy sumField => simp_all [apply]

/-- A reading action answers what it reads, and leaves the documents as they are. -/
theorem apply_of_isRead (collection : String) (docs : Documents) {action : Action}
    (h : action.isRead = true) : docs.apply collection action = (docs, .ok (docs.read action)) := by
  cases action with
  | insertOne | updateOne | updateMany | deleteMany | dropCollection => cases h
  | findOne | find | count | groupSum => rfl

end Documents

/-- What a store holds, without its versions. This is all that a client can be told of
it. -/
abbrev Contents := String → Documents

namespace Contents

/-- Nothing in any collection, as in a new store. -/
def empty : Contents := fun _ => ∅

/-- The contents with other documents in one collection, all else as before. -/
def set (c : Contents) (name : String) (docs : Documents) : Contents :=
  fun other => if name = other then docs else c other

/-- Makes a command on the contents themselves, with no other client and no transaction
in between. -/
def perform (c : Contents) (command : Command) : Contents × Attempted Outcome :=
  let (docs, result) := (c command.collection).apply command.collection command.action
  (c.set command.collection docs, result)

end Contents

/-- What a client sees of the outcome of a command. -/
inductive Seen
  | affected (n : Nat)
  | rows (found : List Row)

/-- Whether this is to be seen of an outcome: the number of a statement, or the rows of
a query. -/
def Seen.Shows : Seen → Outcome → Prop
  | affected n, outcome => outcome.affected = n
  | rows found, outcome => outcome.rows = found

/-- A command and what its client saw. Replaying it has to give the same again. -/
structure Deed where
  command : Command
  seen : Seen

namespace Contents

/-- The contents after the commands of some deeds, made one after the
other. -/
def run (c : Contents) : List Deed → Contents
  | [] => c
  | deed :: rest => ((c.perform deed.command).1).run rest

/-- The command of a deed succeeds on these contents and shows what was
seen. -/
def Shows (c : Contents) (deed : Deed) : Prop :=
  ∃ outcome, (c.perform deed.command).2 = .ok outcome ∧ deed.seen.Shows outcome

/-- A serial run from these contents shows what was seen at every deed. -/
def Explains : Contents → List Deed → Prop
  | _, [] => True
  | c, deed :: rest => c.Shows deed ∧ Explains (c.perform deed.command).1 rest

variable {c : Contents} {name other : String} {docs : Documents}

/-- What is in a collection after one of them got other documents. -/
theorem set_apply : c.set name docs other = if name = other then docs else c other := rfl

/-- The collection that was set has the documents that it got, whatever was there. -/
@[simp] theorem set_self : c.set name docs name = docs := if_pos rfl

/-- The others have what they had, whatever the one collection got. -/
theorem set_of_ne (h : name ≠ other) : c.set name docs other = c other := if_neg h

/-- Only the last documents that a collection gets are in it. -/
@[simp] theorem set_set (first : Documents) :
    (c.set name first).set name docs = c.set name docs := by
  funext other
  simp only [set_apply]
  split <;> rfl

/-- Putting in place what is there changes nothing, which is what a read does. -/
theorem set_eq_self (h : docs = c name) : c.set name docs = c := by
  funext other
  rw [set_apply]
  split
  · rename_i he
    rw [h, he]
  · rfl

/-- Deeds in two parts are made one part after the other. -/
theorem run_append (c : Contents) (first rest : List Deed) :
    c.run (first ++ rest) = (c.run first).run rest := by
  induction first generalizing c with
  | nil => rfl
  | cons deed first ih => exact ih _

/-- Deeds in two parts are explained when the first part is, and the second part by what
the first one left. -/
theorem explains_append (c : Contents) (first rest : List Deed) :
    c.Explains (first ++ rest) ↔ c.Explains first ∧ (c.run first).Explains rest := by
  induction first generalizing c with
  | nil => simp [Explains, run]
  | cons deed first ih => simp [Explains, run, ih, and_assoc]

end Contents

end StoreBench
