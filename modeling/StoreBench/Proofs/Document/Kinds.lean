import Mathlib.Data.Set.List
import StoreBench.Proofs.Document.Keys

/-!
# `StoreBench.Proofs.Document.Kinds`: collections of one kind of document

A client may insert whatever it likes into a collection. Where all clients insert
documents of one kind only, and change none of them, the collection holds documents of
this kind only, each under its own key (`Documents.OnlyOf`). It does not matter how many
clients there are, whether they use transactions, and which of their statements fail.

The step is `OnlyOf.apply`, for the documents themselves and for private copies alike.
Documents that are held back are of the kind, too (`Transaction.OnlyOf`), so a commit
installs nothing else. `Traffic.OnlyOf.pass` goes through a history by this.

A collection of one kind is a list of records in disguise (`OnlyOf.exists_records`).
-/

set_option autoImplicit false

namespace StoreBench

variable {these : Json → Prop} {name : String}

/-! ### Documents -/

/-- An action only inserts documents of this kind, if any, and changes none. It may
remove what it likes, as fewer documents are still of the kind. -/
def Action.Adds (these : Json → Prop) : Action → Prop
  | insertOne doc => these doc
  | updateOne _ _ | updateMany _ _ => False
  | deleteMany _ | findOne _ | find _ | count _ | groupSum _ _ _ | dropCollection => True

/-- A query inserts nothing, so it is allowed whatever the kind is. -/
theorem Action.adds_of_isRead {action : Action} (h : action.isRead = true) :
    action.Adds these := by
  cases action with
  | insertOne | updateOne | updateMany => cases h
  | deleteMany | findOne | find | count | groupSum | dropCollection => trivial

namespace Documents

variable {docs after : Documents} {collection key : String} {doc : Json}

/-- Every document is of this kind, and it is under the key of its `_id`. The key is
part of it, as an update may change an `_id` and leave the document where it was. -/
def OnlyOf (these : Json → Prop) (docs : Documents) : Prop :=
  ∀ (key : String) (doc : Json), docs[key]? = some doc → doc.key? = some key ∧ these doc

/-- An empty collection has documents of every kind. All collections of a new store are
like this. -/
theorem onlyOf_empty (these : Json → Prop) : OnlyOf these ∅ := by
  intro key doc h
  rw [Std.ExtTreeMap.getElem?_empty] at h
  cases h

/-- One more document of the kind, under its own key, leaves a collection of the kind. -/
theorem OnlyOf.insert (h : docs.OnlyOf these) (hkey : doc.key? = some key) (hdoc : these doc) :
    OnlyOf these (docs.insert key doc) := by
  intro other found hfound
  rw [getElem?_insert_eq] at hfound
  split at hfound
  · rename_i hsame
    obtain rfl := Option.some.inj hfound
    exact ⟨hsame ▸ hkey, hdoc⟩
  · exact h other found hfound

/-- A batch of documents of the kind that is inserted with success leaves a collection
of the kind, as each of them goes under its own key. -/
theorem OnlyOf.insertAll {batch : List Json} (h : docs.OnlyOf these)
    (hbatch : ∀ doc ∈ batch, these doc) (hok : docs.insertAll collection batch = .ok after) :
    after.OnlyOf these := by
  induction batch generalizing docs with
  | nil =>
      cases hok
      exact h
  | cons doc rest ih =>
      obtain ⟨hdoc, hrest⟩ := List.forall_mem_cons.mp hbatch
      simp only [Documents.insertAll] at hok
      split at hok
      · cases hok
      · rename_i key hkey
        split at hok
        · cases hok
        · exact ih (h.insert hkey hdoc) hrest hok

/-- An action that adds documents of the kind, or none, leaves no others. Updates are
excluded, since they may make any document of one. -/
theorem OnlyOf.apply {action : Action} (h : docs.OnlyOf these) (collection : String)
    (hadds : action.Adds these) : (docs.apply collection action).1.OnlyOf these := by
  cases action with
  | insertOne doc =>
      simp only [Documents.apply]
      split
      · rename_i hinsert
        exact h.insertAll (List.forall_mem_singleton.mpr hadds) hinsert
      · exact h
  | updateOne | updateMany => exact hadds.elim
  | deleteMany filter =>
      intro key doc hdoc
      simp only [Documents.apply] at hdoc
      rw [Std.ExtTreeMap.getElem?_filter', Option.filter_eq_some_iff] at hdoc
      exact h key doc hdoc.1
  | dropCollection => exact onlyOf_empty these
  | findOne | find | count | groupSum => exact h

/-- Where the documents of a kind are those of records, the collection holds the
documents of some records. -/
theorem OnlyOf.exists_records {α : Type} {entry : α → String × Json} (h : docs.OnlyOf these)
    (hthese : ∀ doc, these doc → ∃ a, (entry a).2 = doc)
    (hkeys : ∀ a, (entry a).2.key? = some (entry a).1) :
    ∃ records : List α, docs.Records entry records := by
  have hentry : ∀ listed ∈ docs.toList, listed ∈ Set.range entry := by
    rintro ⟨key, doc⟩ hlisted
    obtain ⟨hkey, hdoc⟩ := h key doc (Std.ExtTreeMap.mem_toList_iff_getElem?_eq_some.mp hlisted)
    obtain ⟨a, rfl⟩ := hthese doc hdoc
    exact ⟨a, Prod.ext (Option.some.inj ((hkeys a).symm.trans hkey)) rfl⟩
  -- The listed documents are those of some records, one after the other.
  have hlist : docs.toList ∈ Set.range (List.map entry) := by
    rw [Set.range_list_map]
    exact hentry
  obtain ⟨records, hrecords⟩ := hlist
  exact ⟨records, records_of_toList hrecords.symm⟩

end Documents

/-! ### Transactions -/

namespace Transaction

variable {s t : Store} {tx : Transaction}

/-- What a transaction holds of a collection is of this kind, and it holds none
twice. -/
structure OnlyOf (these : Json → Prop) (name : String) (tx : Transaction) : Prop where
  nodup : (tx.map Prod.fst).Nodup
  blind : ∀ inserts, tx.lookup name = some (.blind inserts) → ∀ doc ∈ inserts, these doc
  copied : ∀ working dirty, tx.lookup name = some (.copied working dirty) →
    working.docs.OnlyOf these

/-- A new transaction holds nothing back and has no copies, so it holds documents of
every kind only. -/
theorem onlyOf_nil (these : Json → Prop) (name : String) : OnlyOf these name [] where
  nodup := List.nodup_nil
  blind := nofun
  copied := nofun

/-- A transaction stays of the kind when what it holds of a collection is replaced by
documents that are. -/
theorem OnlyOf.put (h : tx.OnlyOf these name) (other : String) {touched : Touched}
    (hblind : other = name → ∀ inserts, touched = .blind inserts → ∀ doc ∈ inserts, these doc)
    (hcopied : other = name → ∀ working dirty, touched = .copied working dirty →
      working.docs.OnlyOf these) : (tx.put other touched).OnlyOf these name where
  nodup := nodup_put h.nodup other touched
  blind inserts hl := by
    rw [lookup_put] at hl
    split at hl
    · rename_i hname
      exact hblind hname inserts (Option.some.inj hl)
    · exact h.blind inserts hl
  copied working dirty hl := by
    rw [lookup_put] at hl
    split at hl
    · rename_i hname
      exact hcopied hname working dirty (Option.some.inj hl)
    · exact h.copied working dirty hl

/-- A look at the collection gives a copy of the kind: of the store's documents, with
those that were held back. -/
theorem OnlyOf.look (h : tx.OnlyOf these name) (hs : (s.docs name).OnlyOf these)
    {working : Collection} {dirty : Bool}
    (hlook : look s name (tx.lookup name) = .ok (working, dirty)) :
    working.docs.OnlyOf these :=
  look_holds hs h.copied (fun inserts _ hheld => hs.insertAll (h.blind inserts hheld)) hlook

/-- An action in a transaction keeps this, whether it works on a copy or is held back,
and whether it fails or not. -/
theorem OnlyOf.apply (h : tx.OnlyOf these name) (hs : (s.docs name).OnlyOf these)
    {command : Command} (hadds : command.collection = name → command.action.Adds these) :
    (tx.apply s command).1.OnlyOf these name := by
  rcases tx.apply_cases s command with ⟨doc, inserts, haction, hheld, he⟩ | ⟨-, he⟩ |
    ⟨working, dirty, wrote, hlook, he⟩ <;> rw [he]
  · -- One more document is held back.
    refine h.put _ ?_ nofun
    rintro rfl _ ⟨⟩
    have hdoc : these doc := by
      have hadds := hadds rfl
      rwa [haction] at hadds
    refine List.forall_mem_append.mpr ⟨?_, List.forall_mem_singleton.mpr hdoc⟩
    rcases hheld with ⟨-, rfl⟩ | hheld
    · nofun
    · exact h.blind inserts hheld
  · refine h.put _ ?_ nofun
    rintro - _ ⟨⟩
    nofun
  · refine h.put _ nofun ?_
    rintro rfl _ _ ⟨⟩
    exact (h.look hs hlook).apply _ (hadds rfl)

/-- A commit installs documents of the kind only: the copy that was worked on, or the
store's documents with those that were held back. -/
theorem OnlyOf.commit (h : tx.OnlyOf these name) (hs : (s.docs name).OnlyOf these)
    (hcommit : tx.commit s = .ok t) : (t.docs name).OnlyOf these :=
  commit_holds hs h.copied (fun inserts _ hheld => hs.insertAll (h.blind inserts hheld)) h.nodup
    hcommit

end Transaction

/-! ### Histories -/

namespace Traffic

variable {t : Traffic} {e : Event} {history : List Event}

/-- What a step does to the collection is to add documents of this kind. -/
def Event.Adds (these : Json → Prop) (name : String) : Event → Prop
  | .call _ fresh (.exec (.document command)) | .call _ fresh (.execIn (.document command)) =>
    command.collection = name → (command.identified fresh).action.Adds these
  | _ => True

/-- Store and open transactions have documents of the kind in the collection only. This
is what one event keeps. -/
structure OnlyOf (these : Json → Prop) (name : String) (t : Traffic) : Prop where
  stored : (t.server.store.docs name).OnlyOf these
  held : ∀ client tx, t.held client = some tx → tx.OnlyOf these name

/-- A new server has documents of the kind only, since it has neither documents nor
transactions. -/
theorem onlyOf_new (these : Json → Prop) (name : String) (faults : List Fault) (latency : Span) :
    OnlyOf these name (new faults latency) where
  stored := by
    rw [new, Store.docs_empty]
    exact Documents.onlyOf_empty these
  held := nofun

/-- A statement by itself leaves documents of the kind, as its action does. A statement
that the server refuses leaves all as it was. -/
theorem OnlyOf.exec (h : t.OnlyOf these name) {client : Nat} {fresh : String}
    {statement : Statement}
    (hadds : (Event.call client fresh (.exec statement)).Adds these name) :
    ((t.answer (.call client fresh (.exec statement))).1.server.store.docs name).OnlyOf these := by
  rcases hexec : t.server.exec fresh statement with ⟨server, result⟩
  simp only [answer, Server.answer, hexec]
  cases result with
  | error failure =>
      rw [Server.exec_error hexec]
      exact h.stored
  | ok n =>
      obtain ⟨command, outcome, rfl, -, hperform⟩ := Server.exec_ok hexec
      have hdocs : server.store.docs
          = (Contents.perform t.server.store.docs (command.identified fresh)).1 := by
        rw [hperform]
      rw [hdocs]
      by_cases hname : (command.identified fresh).collection = name
      · subst hname
        rw [Contents.perform_self]
        exact h.stored.apply _ (hadds (command.collection_identified fresh).symm)
      · rw [Contents.perform_other (Ne.symm hname)]
        exact h.stored

/-- A statement in a transaction that is about the collection adds documents of the
kind, if the event may do so at all. -/
theorem adds_of_inside {client : Nat} {command : Command} (hadds : e.Adds these name)
    (hinside : e.inside? = some (client, command)) (hname : command.collection = name) :
    command.action.Adds these := by
  unfold Event.inside? at hinside
  split at hinside
  · cases hinside
    rw [Command.collection_identified] at hname
    exact hadds hname
  · split at hinside
    · rename_i hread
      cases hinside
      exact Action.adds_of_isRead hread
    · cases hinside
  · cases hinside

/-- Each event keeps this, whichever client it comes from, if what it inserts into the
collection is of the kind. -/
theorem OnlyOf.step (h : t.OnlyOf these name) (hadds : e.Adds these name) :
    (t.answer e).1.OnlyOf these name where
  stored := by
    -- The store is changed by a statement by itself, a commit or a reset.
    rcases t.store_answer_cases e with hsame | ⟨client, fresh, statement, rfl⟩ |
      ⟨client, fresh, rfl⟩ | rfl
    · rw [hsame]
      exact h.stored
    · exact h.exec hadds
    · cases hreply : (t.answer (.call client fresh .commit)).2 with
      | error e =>
          rw [store_of_refused hreply]
          exact h.stored
      | ok done =>
          obtain ⟨tx, hheld, hcommit⟩ := commit_ok hreply
          exact (h.held client tx hheld).commit h.stored hcommit
    · simp only [answer, Server.reset]
      split
      · rw [Store.docs_clear]
        exact Documents.onlyOf_empty these
      · exact h.stored
  held client after hafter := by
    -- What a client holds is changed by what it does itself.
    rcases t.held_cases client e with he | he | ⟨he, -⟩ | ⟨tx, command, hheld, hinside, he⟩ <;>
      rw [he] at hafter
    · exact h.held client after hafter
    · cases hafter
    · cases hafter
      exact Transaction.onlyOf_nil these name
    · cases hafter
      exact (h.held client tx hheld).apply h.stored (adds_of_inside hadds hinside)

/-- Therefore a whole history does, by induction on it. -/
theorem OnlyOf.pass (h : t.OnlyOf these name) (hadds : ∀ e ∈ history, e.Adds these name) :
    (t.pass history).OnlyOf these name := by
  induction history generalizing t with
  | nil => exact h
  | cons e rest ih =>
      obtain ⟨he, hrest⟩ := List.forall_mem_cons.mp hadds
      exact ih (h.step he) hrest

end Traffic

end StoreBench
