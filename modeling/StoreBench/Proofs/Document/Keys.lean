import StoreBench.Proofs.Document.Changes
import StoreBench.Proofs.Document.FirstReads
import StoreBench.Proofs.Document.Records

/-!
# `StoreBench.Proofs.Document.Keys`: documents under the keys of their identities

A document comes into a collection under the key of its `_id`, and the test for a
duplicate looks at keys only. So an `_id` occurs once as long as every document
stays under the key that its `_id` has now (`Documents.Keyed`).

Inserting and deleting keep this. An update does not have to: it may change any
field, the `_id` too, and leaves the document where it was. `Documents.Renames`
says of an action that it edits a document in this way. An action on a keyed
collection that succeeds leaves it keyed just when it renames nothing
(`Keyed.apply_iff`). Private copies go the same way, and a commit brings them into
the store, so that histories without such an edit are the ones for which the keys
tell the truth (`stored_under_identity`).

Different keys are different texts. Identities that are equal have the same text,
but for the two zeros (`Json.eq_of_same`): `0.0` and `-0.0` are equal numbers that
are written differently, and a collection takes both.
-/

set_option autoImplicit false

namespace StoreBench

/-! ### Equal documents -/

namespace Double

/-- Zero with its sign bit set. It equals zero without being the same, and has another
text. -/
def negativeZero : Double := ⟨0x8000000000000000⟩

/-- Numbers that are equal are the same, negative zero apart. -/
theorem eq_of_same {x y : Double} (h : x.same y = true) (hx : x ≠ negativeZero)
    (hy : y ≠ negativeZero) : x = y := by
  have hbits (z : Double) (hz : z ≠ negativeZero) : z.bits.toNat ≠ 2 ^ 63 := by
    intro hzero
    refine hz (congrArg Double.mk (UInt64.toNat_inj.mp ?_))
    rw [hzero]
    rfl
  have hplace : x.place = y.place := by
    simp only [same, Bool.and_eq_true, beq_iff_eq] at h
    exact h.2
  -- A place tells magnitude and sign, unless the magnitude is zero.
  have hsame : x.bits.toNat = y.bits.toNat := by
    have hxz := hbits x hx
    have hyz := hbits y hy
    have hxlt := x.bits.toNat_lt
    have hylt := y.bits.toNat_lt
    simp only [place, isNegative, beq_iff_eq] at hplace
    split at hplace <;> split at hplace <;> omega
  exact congrArg Double.mk (UInt64.toNat_inj.mp hsame)

end Double

namespace Json

mutual

/-- No number in a document is a negative zero. -/
def plain : Json → Bool
  | .float x => x != Double.negativeZero
  | .arr items => plainItems items
  | .obj fields => plainFields fields
  | .null | .bool _ | .int _ | .str _ => true

/-- No number in the items of a list is a negative zero. -/
def plainItems : List Json → Bool
  | [] => true
  | a :: as => plain a && plainItems as

/-- No number in the fields of a document is a negative zero. Names need no condition. -/
def plainFields : List (String × Json) → Bool
  | [] => true
  | (_, a) :: as => plain a && plainFields as

end

mutual

/-- Documents that are equal are the same, if no number in them is a negative
zero. -/
theorem eq_of_same (a b : Json) (h : a.same b = true) (ha : a.plain = true)
    (hb : b.plain = true) : a = b := by
  match a, b with
  | .null, .null => rfl
  | .bool x, .bool y | .int x, .int y | .str x, .str y =>
      simp only [same, beq_iff_eq] at h
      rw [h]
  | .float x, .float y =>
      simp only [same, plain, bne_iff_ne] at h ha hb
      rw [Double.eq_of_same h ha hb]
  | .arr as, .arr bs =>
      simp only [same, plain] at h ha hb
      rw [eq_of_sameItems as bs h ha hb]
  | .obj as, .obj bs =>
      simp only [same, plain] at h ha hb
      rw [eq_of_sameFields as bs h ha hb]

/-- Lists whose items are equal are the same list, without a negative zero in them. -/
theorem eq_of_sameItems (as bs : List Json) (h : sameItems as bs = true)
    (ha : plainItems as = true) (hb : plainItems bs = true) : as = bs := by
  match as, bs with
  | [], [] => rfl
  | a :: as, b :: bs =>
      simp only [sameItems, plainItems, Bool.and_eq_true] at h ha hb
      rw [eq_of_same a b h.1 ha.1 hb.1, eq_of_sameItems as bs h.2 ha.2 hb.2]

/-- Fields that are equal are the same. They are compared in the order in which they are
kept, so that no order is lost. -/
theorem eq_of_sameFields (as bs : List (String × Json)) (h : sameFields as bs = true)
    (ha : plainFields as = true) (hb : plainFields bs = true) : as = bs := by
  match as, bs with
  | [], [] => rfl
  | (k, a) :: as, (l, b) :: bs =>
      simp only [sameFields, plainFields, Bool.and_eq_true, beq_iff_eq] at h ha hb
      rw [h.1.1, eq_of_same a b h.1.2 ha.1 hb.1, eq_of_sameFields as bs h.2 ha.2 hb.2]

end

/-- The key of a document is the text of its `_id`. -/
theorem key?_eq (doc : Json) : doc.key? = (doc.get? "_id").map label := by
  cases doc <;> rfl

end Json

/-! ### Changes that leave the identity alone -/

/-- The field that a change addresses. Every change has one, and touches no other. -/
def Change.field : Change → String
  | inc field _ | push field _ | set field _ => field

/-- A change leaves the fields alone that it does not address. -/
theorem Change.get?_apply {change : Change} {fields after : Fields} {name : String}
    (h : change.apply fields = .ok after) (hname : change.field ≠ name) :
    Fields.get? after name = Fields.get? fields name := by
  -- Whatever is written is written to the one field.
  have hyields := change.yields_apply fields
  rw [h] at hyields
  cases hyields with
  | set | push | sum | start | fractional => exact Fields.get?_insert_of_ne hname fields _

namespace Update

/-- So does an update, if none of its changes addresses the field, also one that is
given up half-way. -/
theorem get?_editFields {update : Update} {name : String}
    (h : ∀ change ∈ update, change.field ≠ name) (fields : Fields) :
    Fields.get? (update.editFields fields).1 name = Fields.get? fields name := by
  induction update generalizing fields with
  | nil => rfl
  | cons change rest ih =>
      obtain ⟨hchange, hrest⟩ := List.forall_mem_cons.mp h
      simp only [editFields]
      split
      · rename_i next hnext
        rw [ih hrest, Change.get?_apply hnext hchange]
      · rfl

/-- An update that does not address the `_id` leaves the key of a document. -/
theorem key?_edit {update : Update} (h : ∀ change ∈ update, change.field ≠ "_id") (doc : Json) :
    (update.edit doc).1.key? = doc.key? := by
  cases doc with
  | obj fields =>
      simp only [edit, Json.key?]
      rw [get?_editFields h]
  | _ => rfl

end Update

/-! ### What an action edits -/

namespace Action

/-- The changes that an action makes to documents. -/
def changes : Action → Update
  | updateOne _ changes | updateMany _ changes => changes
  | insertOne _ | deleteMany _ | findOne _ | find _ | count _ | groupSum _ _ _
  | dropCollection => []

/-- What only reads changes nothing. -/
theorem changes_of_isRead {action : Action} (h : action.isRead = true) : action.changes = [] := by
  cases action with
  | updateOne | updateMany => cases h
  | insertOne | deleteMany | findOne | find | count | groupSum | dropCollection => rfl

end Action

namespace Documents

variable {docs after : Documents} {collection key : String} {doc : Json} {action : Action}
  {changes : Update}

/-- The documents that an action edits, with their keys. -/
def edited (docs : Documents) : Action → List (String × Json)
  | .updateOne filter _ => (docs.matching filter).take 1
  | .updateMany filter _ => docs.matching filter
  | .insertOne _ | .deleteMany _ | .findOne _ | .find _ | .count _ | .groupSum _ _ _
  | .dropCollection => []

/-- The action edits a document so that its `_id` has another key. -/
def Renames (docs : Documents) (action : Action) : Prop :=
  ∃ entry ∈ docs.edited action, (action.changes.edit entry.2).1.key? ≠ entry.2.key?

/-- An action whose changes address other fields than `_id` renames nothing, whatever
the documents are. -/
theorem not_renames_of_field (h : ∀ change ∈ action.changes, change.field ≠ "_id") :
    ¬ docs.Renames action := by
  rintro ⟨entry, -, hkey⟩
  exact hkey (Update.key?_edit h entry.2)

/-- What is edited is there, under the key that it is listed with. -/
theorem getElem?_of_mem_edited {entry : String × Json} (h : entry ∈ docs.edited action) :
    docs[entry.1]? = some entry.2 := by
  have hlisted : entry ∈ docs.toList := by
    cases action with
    | updateOne filter changes => exact List.mem_of_mem_filter (List.mem_of_mem_take h)
    | updateMany filter changes => exact List.mem_of_mem_filter h
    | _ => cases h
  exact Std.ExtTreeMap.mem_toList_iff_getElem?_eq_some.mp hlisted

/-- No document is edited twice. So each is edited from what is stored, not from what
another edit left. -/
theorem nodup_edited (docs : Documents) (action : Action) :
    ((docs.edited action).map Prod.fst).Nodup := by
  have hsub : (docs.edited action).Sublist docs.toList := by
    cases action with
    | updateOne filter changes =>
        exact (List.take_sublist _ _).trans List.filter_sublist
    | updateMany filter changes => exact List.filter_sublist
    | _ => exact List.nil_sublist _
  exact (hsub.map Prod.fst).nodup docs.nodup_keys

/-! ### Keyed collections -/

/-- Every document is under the key of the `_id` that it has. -/
def Keyed (docs : Documents) : Prop :=
  ∀ (key : String) (doc : Json), docs[key]? = some doc → doc.key? = some key

/-- Nothing is under a wrong key where there is nothing. -/
theorem keyed_empty : Keyed ∅ := by
  intro key doc h
  rw [Std.ExtTreeMap.getElem?_empty] at h
  cases h

/-- A document that comes in under its own key keeps the collection keyed. -/
theorem Keyed.insert (h : docs.Keyed) (hkey : doc.key? = some key) :
    Keyed (docs.insert key doc) := by
  intro other found hfound
  rw [getElem?_insert_eq] at hfound
  split at hfound
  · rename_i hsame
    rw [← Option.some.inj hfound, hkey, hsame]
  · exact h other found hfound

/-- So does a batch that goes in as a whole. Each of its documents is looked up by its
own key. -/
theorem Keyed.insertAll {batch : List Json} (h : docs.Keyed)
    (hok : docs.insertAll collection batch = .ok after) : after.Keyed := by
  induction batch generalizing docs with
  | nil =>
      cases hok
      exact h
  | cons doc rest ih =>
      simp only [Documents.insertAll] at hok
      split at hok
      · cases hok
      · rename_i key hkey
        split at hok
        · cases hok
        · exact ih (h.insert hkey) hok

/-- Deleting leaves the rest where it is. -/
theorem Keyed.filter (h : docs.Keyed) (keep : String → Json → Bool) :
    Keyed (docs.filter keep) := by
  intro key doc hdoc
  rw [Std.ExtTreeMap.getElem?_filter', Option.filter_eq_some_iff] at hdoc
  exact h key doc hdoc.1

/-- Edits that leave every key as it is. -/
theorem Keyed.editAll {entries : List (String × Json)} (h : docs.Keyed)
    (hentries : ∀ entry ∈ entries, (changes.edit entry.2).1.key? = some entry.1) :
    (editAll changes docs entries).1.Keyed := by
  induction entries generalizing docs with
  | nil => exact h
  | cons entry rest ih =>
      obtain ⟨hentry, hrest⟩ := List.forall_mem_cons.mp hentries
      have hedited := h.insert hentry
      simp only [Documents.editAll]
      split
      · exact ih hedited hrest
      · exact hedited

/-- What no entry is about stays as it was. -/
theorem getElem?_editAll_of_not_mem {entries : List (String × Json)}
    (h : key ∉ entries.map Prod.fst) : (editAll changes docs entries).1[key]? = docs[key]? := by
  induction entries generalizing docs with
  | nil => rfl
  | cons entry rest ih =>
      rw [List.map_cons, List.mem_cons, not_or] at h
      obtain ⟨hentry, hrest⟩ := h
      have hinsert : (docs.insert entry.1 (changes.edit entry.2).1)[key]? = docs[key]? := by
        rw [getElem?_insert_eq, if_neg (Ne.symm hentry)]
      simp only [Documents.editAll]
      split
      · rw [ih hrest, hinsert]
      · exact hinsert

/-- Edits that succeed leave each document as its edit leaves it. -/
theorem getElem?_editAll_of_mem {entries : List (String × Json)} {entry : String × Json}
    (hnodup : (entries.map Prod.fst).Nodup)
    (hok : (editAll changes docs entries).2 = .ok ()) (h : entry ∈ entries) :
    (editAll changes docs entries).1[entry.1]? = some (changes.edit entry.2).1 := by
  induction entries generalizing docs with
  | nil => cases h
  | cons first rest ih =>
      obtain ⟨hfirst, hrest⟩ := List.nodup_cons.mp hnodup
      simp only [Documents.editAll] at hok ⊢
      split
      · rename_i hedit
        simp only [hedit] at hok
        rcases List.mem_cons.mp h with rfl | hlater
        · rw [getElem?_editAll_of_not_mem hfirst, getElem?_insert_eq, if_pos rfl]
        · exact ih hrest hok hlater
      · rename_i failure hedit
        simp only [hedit] at hok
        cases hok

/-- An action that edits is the edits, and others keep the documents keyed. -/
theorem apply_edits (collection : String) (docs : Documents) (action : Action) :
    docs.apply collection action = docs.update (docs.edited action) action.changes ∨
    docs.edited action = [] ∧ (docs.Keyed → (docs.apply collection action).1.Keyed) := by
  cases action with
  | updateOne filter changes => exact .inl rfl
  | updateMany filter changes => exact .inl rfl
  | insertOne doc =>
      refine .inr ⟨rfl, fun h => ?_⟩
      simp only [apply]
      split
      · rename_i hinsert
        exact h.insertAll hinsert
      · exact h
  | deleteMany filter => exact .inr ⟨rfl, fun h => h.filter _⟩
  | dropCollection => exact .inr ⟨rfl, fun _ => keyed_empty⟩
  | findOne | find | count | groupSum => exact .inr ⟨rfl, id⟩

/-- An action that renames nothing keeps a collection keyed, whether it succeeds or
fails half-way. -/
theorem Keyed.apply (h : docs.Keyed) (collection : String) (hkeeps : ¬ docs.Renames action) :
    (docs.apply collection action).1.Keyed := by
  rcases apply_edits collection docs action with hedits | ⟨-, hothers⟩
  · rw [hedits]
    refine h.editAll fun entry hentry => ?_
    have hsame := of_not_not fun hne => hkeeps ⟨entry, hentry, hne⟩
    rw [hsame]
    exact h entry.1 entry.2 (getElem?_of_mem_edited hentry)
  · exact hothers h

/-- An action that succeeds on a keyed collection leaves it keyed just when it
renames nothing. -/
theorem Keyed.apply_iff (h : docs.Keyed) {outcome : Outcome}
    (hok : docs.apply collection action = (after, .ok outcome)) :
    after.Keyed ↔ ¬ docs.Renames action := by
  refine ⟨?_, fun hkeeps => by simpa only [hok] using h.apply collection hkeeps⟩
  rintro hkeyed ⟨entry, hentry, hne⟩
  rcases apply_edits collection docs action with hedits | ⟨hnone, -⟩
  · -- The document is where it was, with a key that is not the one there.
    rw [hedits] at hok
    have hdone : (docs.editAll action.changes (docs.edited action)).2 = .ok () := by
      have hresult := congrArg Prod.snd hok
      simp only [update] at hresult
      cases hedit : (docs.editAll action.changes (docs.edited action)).2 with
      | ok done => rfl
      | error failure =>
          rw [hedit] at hresult
          cases hresult
    have hthere := getElem?_editAll_of_mem (nodup_edited docs action) hdone hentry
    have hafter : (docs.editAll action.changes (docs.edited action)).1 = after :=
      congrArg Prod.fst hok
    rw [hafter] at hthere
    rw [hkeyed _ _ hthere, h _ _ (getElem?_of_mem_edited hentry)] at hne
    exact hne rfl
  · rw [hnone] at hentry
    cases hentry

/-- In a keyed collection two documents have different identities. -/
theorem Keyed.not_same {other : String} {doc' id id' : Json} (h : docs.Keyed)
    (hdoc : docs[key]? = some doc) (hdoc' : docs[other]? = some doc') (hne : key ≠ other)
    (hid : doc.get? "_id" = some id) (hid' : doc'.get? "_id" = some id')
    (hplain : id.plain = true) (hplain' : id'.plain = true) : id.same id' = false := by
  have hkey := h key doc hdoc
  have hkey' := h other doc' hdoc'
  rw [Json.key?_eq, hid] at hkey
  rw [Json.key?_eq, hid'] at hkey'
  refine Bool.eq_false_iff.mpr fun hsame => hne ?_
  rw [Json.eq_of_same id id' hsame hplain hplain'] at hkey
  exact Option.some.inj (hkey.symm.trans hkey')

end Documents

/-! ### Transactions -/

namespace Transaction

variable {s t : Store} {tx : Transaction}

section Holds

variable {Holds : Documents → Prop} {name : String} (hs : Holds (s.docs name))
  (hcopied : ∀ working dirty, tx.lookup name = some (.copied working dirty) → Holds working.docs)
  (hblind : ∀ inserts after, tx.lookup name = some (.blind inserts) →
    (s.docs name).insertAll name inserts = .ok after → Holds after)
include hs hcopied hblind

/-- What holds of a collection, and of all that a transaction holds of it, holds of a
copy at which the transaction looks. -/
theorem look_holds {working : Collection} {dirty : Bool}
    (hlook : look s name (tx.lookup name) = .ok (working, dirty)) : Holds working.docs := by
  cases hheld : tx.lookup name with
  | none =>
      rw [hheld] at hlook
      cases hlook
      exact hs
  | some touched =>
      rw [hheld] at hlook
      cases touched with
      | copied held heldDirty =>
          cases hlook
          exact hcopied _ _ hheld
      | blind inserts =>
          simp only [Transaction.look, bind, Except.bind] at hlook
          split at hlook
          · cases hlook
          · rename_i docs hdocs
            cases hlook
            exact hblind inserts _ hheld hdocs

/-- What a commit installs has the property as well, whether the collection was copied,
only had insertions held back, or was not touched. -/
theorem commit_holds (hnodup : (tx.map Prod.fst).Nodup) (hcommit : tx.commit s = .ok t) :
    Holds (t.docs name) := by
  rcases docs_commit hnodup hcommit name with ⟨-, hdocs⟩ |
    ⟨touched, staged, hheld, hstage, hdocs⟩ <;> rw [hdocs]
  · exact hs
  cases staged with
  | none => exact hs
  | some docs =>
      match touched with
      | .copied working dirty =>
          simp only [stage] at hstage
          split at hstage
          · cases hstage
          · split at hstage <;> cases hstage
            exact hcopied working _ hheld
      | .blind [] => cases hstage
      | .blind (doc :: rest) =>
          simp only [stage, bind, Except.bind] at hstage
          split at hstage
          · cases hstage
          · rename_i inserted hinsert
            cases hstage
            exact hblind _ _ hheld hinsert

end Holds

/-- No collection is held twice, and every private copy is keyed. -/
structure Filed (tx : Transaction) : Prop where
  nodup : (tx.map Prod.fst).Nodup
  keyed : ∀ name working dirty, tx.lookup name = some (.copied working dirty) →
    working.docs.Keyed

/-- A transaction that has done nothing holds nothing under a wrong key. -/
theorem filed_nil : Filed [] where
  nodup := List.nodup_nil
  keyed := nofun

/-- A collection that is put into a transaction keeps it filed, if its copy is keyed. -/
theorem Filed.put (h : tx.Filed) (name : String) {touched : Touched}
    (htouched : ∀ working dirty, touched = .copied working dirty → working.docs.Keyed) :
    (tx.put name touched).Filed where
  nodup := nodup_put h.nodup name touched
  keyed other working dirty hl := by
    rw [lookup_put] at hl
    split at hl
    · exact htouched working dirty (Option.some.inj hl)
    · exact h.keyed other working dirty hl

/-- A look at a keyed collection gives a keyed copy. -/
theorem Filed.look (h : tx.Filed) (hs : ∀ name, (s.docs name).Keyed) {name : String}
    {working : Collection} {dirty : Bool}
    (hlook : look s name (tx.lookup name) = .ok (working, dirty)) : working.docs.Keyed :=
  look_holds (hs name) (h.keyed name) (fun _ _ _ hinsert => (hs name).insertAll hinsert) hlook

/-- A command that renames nothing in the private copy on which it is made. -/
theorem Filed.apply (h : tx.Filed) (hs : ∀ name, (s.docs name).Keyed) {command : Command}
    (hkeeps : ∀ working dirty,
      Transaction.look s command.collection (tx.lookup command.collection) = .ok (working, dirty) →
      ¬ working.docs.Renames command.action) :
    (tx.apply s command).1.Filed := by
  rcases tx.apply_cases s command with ⟨doc, inserts, -, -, he⟩ | ⟨-, he⟩ |
    ⟨working, dirty, wrote, hlook, he⟩ <;> rw [he] <;> refine h.put _ ?_
  · nofun
  · nofun
  · rintro _ _ ⟨⟩
    exact (h.look hs hlook).apply _ (hkeeps working dirty hlook)

/-- A commit installs what is keyed: copies are, and insertions come in under their own
keys. -/
theorem Filed.commit (h : tx.Filed) (hs : ∀ name, (s.docs name).Keyed)
    (hcommit : tx.commit s = .ok t) (name : String) : (t.docs name).Keyed :=
  commit_holds (hs name) (h.keyed name) (fun _ _ _ hinsert => (hs name).insertAll hinsert) h.nodup
    hcommit

end Transaction

/-! ### Histories -/

namespace Traffic

variable {t : Traffic} {e : Event} {history : List Event}

/-- The step edits a document so that its `_id` has another key: in the store, by a
statement by itself, or in the private copy of an open transaction. -/
inductive Renames (t : Traffic) : Event → Prop
  | single {client : Nat} {fresh : String} {command : Command}
      (h : (t.server.store.docs command.collection).Renames command.action) :
      Renames t (.call client fresh (.exec (.document command)))
  | inside {e : Event} {client : Nat} {command : Command} {tx : Transaction}
      {working : Collection} {dirty : Bool} (hinside : e.inside? = some (client, command))
      (hheld : t.held client = some tx)
      (hlook : Transaction.look t.server.store command.collection
        (tx.lookup command.collection) = .ok (working, dirty))
      (h : working.docs.Renames command.action) : Renames t e

/-- None of the steps renames a document, each in the state that those before it left. -/
def NeverRenames : Traffic → List Event → Prop
  | _, [] => True
  | t, e :: rest => ¬ t.Renames e ∧ NeverRenames (t.answer e).1 rest

/-- Every stored document is under the key of its `_id`. -/
def Filed (t : Traffic) : Prop := ∀ name, (t.server.store.docs name).Keyed

/-- The commands of a step address other fields than the `_id`. -/
def Event.LeavesIdentities (e : Event) : Prop :=
  match e with
  | .call _ _ (.exec (.document command)) | .call _ _ (.execIn (.document command)) =>
    ∀ change ∈ command.action.changes, change.field ≠ "_id"
  | _ => True

end Traffic

/-- The document that a command inserts is identified, and nothing else of the
command is changed. -/
theorem Command.changes_identified (command : Command) (fresh : String) :
    (command.identified fresh).action.changes = command.action.changes := by
  obtain ⟨name, action⟩ := command
  cases action <;> rfl

/-- A fresh identity makes no difference, as only insertions get one and they edit
nothing. -/
theorem Documents.renames_identified (docs : Documents) (command : Command) (fresh : String) :
    docs.Renames (command.identified fresh).action ↔ docs.Renames command.action := by
  obtain ⟨name, action⟩ := command
  cases action <;> rfl

namespace Traffic

variable {t : Traffic} {e : Event} {history : List Event}

/-- A step whose commands leave identities alone renames nothing. -/
theorem not_renames_of_leavesIdentities (h : e.LeavesIdentities) : ¬ t.Renames e := by
  intro hrenames
  cases hrenames with
  | single hdocs => exact Documents.not_renames_of_field h hdocs
  | inside hinside _ _ hcopy =>
      refine Documents.not_renames_of_field ?_ hcopy
      unfold Event.inside? at hinside
      split at hinside
      · cases hinside
        rw [Command.changes_identified]
        exact h
      · -- A query edits nothing.
        split at hinside
        · rename_i hread
          cases hinside
          rw [Action.changes_of_isRead hread]
          nofun
        · cases hinside
      · cases hinside

/-- Commands that address other fields never rename anything. This can be told from the
commands alone. -/
theorem neverRenames_of_leavesIdentities (h : ∀ e ∈ history, e.LeavesIdentities) :
    t.NeverRenames history := by
  induction history generalizing t with
  | nil => trivial
  | cons e rest ih =>
      obtain ⟨he, hrest⟩ := List.forall_mem_cons.mp h
      exact ⟨not_renames_of_leavesIdentities he, ih hrest⟩

/-- A statement by itself that renames nothing keeps the store filed, also if it is
given up half-way. -/
theorem Filed.exec (h : t.Filed) {client : Nat} {fresh : String} {statement : Statement}
    (hkeeps : ¬ t.Renames (.call client fresh (.exec statement))) :
    (t.answer (.call client fresh (.exec statement))).1.Filed := by
  intro name
  rcases hexec : t.server.exec fresh statement with ⟨server, result⟩
  simp only [answer, Server.answer, hexec]
  cases result with
  | error failure =>
      rw [Server.exec_error hexec]
      exact h name
  | ok n =>
      obtain ⟨command, outcome, rfl, -, hperform⟩ := Server.exec_ok hexec
      have hdocs : server.store.docs
          = (Contents.perform t.server.store.docs (command.identified fresh)).1 := by
        rw [hperform]
      rw [hdocs]
      -- Only the collection of the command is changed.
      by_cases hname : (command.identified fresh).collection = name
      · subst hname
        rw [Contents.perform_self]
        refine (h _).apply _ ?_
        rw [Documents.renames_identified, Command.collection_identified]
        exact fun hrenames => hkeeps (.single hrenames)
      · rw [Contents.perform_other (Ne.symm hname)]
        exact h name

/-- Such a statement that succeeds on keyed collections leaves them keyed just when
it renames nothing. -/
theorem Filed.exec_iff (h : t.Filed) {client : Nat} {fresh : String} {command : Command} {n : Nat}
    (hok : (t.answer (.call client fresh (.exec (.document command)))).2 = .ok n) :
    (t.answer (.call client fresh (.exec (.document command)))).1.Filed ↔
      ¬ t.Renames (.call client fresh (.exec (.document command))) := by
  refine ⟨fun hafter hrenames => ?_, fun hkeeps => h.exec hkeeps⟩
  cases hrenames with
  | inside hinside => cases hinside
  | single hrenames =>
      rcases hexec : t.server.exec fresh (.document command) with ⟨server, result⟩
      simp only [answer, Server.answer, hexec] at hok hafter
      subst hok
      obtain ⟨_, outcome, ⟨⟩, -, hperform⟩ := Server.exec_ok hexec
      -- The collection is after that what the action made of it.
      have happly : (t.server.store.docs (command.identified fresh).collection).apply
          (command.identified fresh).collection (command.identified fresh).action
            = (server.store.docs (command.identified fresh).collection, .ok outcome) := by
        refine Prod.ext ?_ ?_
        · rw [← Contents.perform_self, hperform]
        · show (Contents.perform t.server.store.docs (command.identified fresh)).2 = _
          rw [hperform]
      refine ((h _).apply_iff happly).mp (hafter _) ?_
      rwa [Documents.renames_identified, Command.collection_identified]

/-- What is kept by every step that renames nothing. -/
structure Kept (t : Traffic) : Prop where
  stored : t.Filed
  copied : ∀ client tx, t.held client = some tx → tx.Filed

/-- A new server stores nothing, and nobody holds anything. -/
theorem kept_new (faults : List Fault) (latency : Span) : Kept (new faults latency) where
  stored name := by
    rw [new, Store.docs_empty]
    exact Documents.keyed_empty
  copied := nofun

/-- What is kept by one step. The copies are part of it, as a commit installs them. -/
theorem Kept.step (h : t.Kept) (hkeeps : ¬ t.Renames e) : (t.answer e).1.Kept where
  stored := by
    -- The store is changed by a statement by itself, a commit or a reset.
    rcases t.store_answer_cases e with hsame | ⟨client, fresh, statement, rfl⟩ |
      ⟨client, fresh, rfl⟩ | rfl
    · intro name
      rw [hsame]
      exact h.stored name
    · exact h.stored.exec hkeeps
    · intro name
      cases hreply : (t.answer (.call client fresh .commit)).2 with
      | error e =>
          rw [store_of_refused hreply]
          exact h.stored name
      | ok done =>
          obtain ⟨tx, hheld, hcommit⟩ := commit_ok hreply
          exact (h.copied client tx hheld).commit h.stored hcommit name
    · intro name
      simp only [answer, Server.reset]
      split
      · rw [Store.docs_clear]
        exact Documents.keyed_empty
      · exact h.stored name
  copied client after hafter := by
    -- What a client holds is changed by what it does itself.
    rcases t.held_cases client e with he | he | ⟨he, -⟩ | ⟨tx, command, hheld, hinside, he⟩ <;>
      rw [he] at hafter
    · exact h.copied client after hafter
    · cases hafter
    · cases hafter
      exact Transaction.filed_nil
    · cases hafter
      refine (h.copied client tx hheld).apply h.stored ?_
      intro working dirty hlook hrenames
      exact hkeeps (.inside hinside hheld hlook hrenames)

/-- That documents are stored under their keys is kept by any history that renames
nothing. -/
theorem Kept.pass (h : t.Kept) (hkeeps : t.NeverRenames history) : (t.pass history).Kept := by
  induction history generalizing t with
  | nil => exact h
  | cons e rest ih => exact ih (h.step hkeeps.1) hkeeps.2

/-- After a history that renames no document, every stored document is under the key
of the `_id` that it has, and no two of one collection have equal ones, unless a
negative zero is in them. A further statement by itself leaves it so just when it
renames nothing either. -/
theorem stored_under_identity (faults : List Fault) (latency : Span) (history : List Event)
    (h : (new faults latency).NeverRenames history) :
    let t := (new faults latency).pass history
    (∀ (name key : String) (doc : Json),
      (t.server.store.docs name)[key]? = some doc → doc.key? = some key) ∧
    (∀ (name key other : String) (doc doc' id id' : Json), key ≠ other →
      (t.server.store.docs name)[key]? = some doc →
      (t.server.store.docs name)[other]? = some doc' →
      doc.get? "_id" = some id → doc'.get? "_id" = some id' →
      id.plain = true → id'.plain = true → id.same id' = false) ∧
    ∀ (client : Nat) (fresh : String) (command : Command) (n : Nat),
      (t.answer (.call client fresh (.exec (.document command)))).2 = .ok n →
      ((t.answer (.call client fresh (.exec (.document command)))).1.Filed ↔
        ¬ t.Renames (.call client fresh (.exec (.document command)))) := by
  intro t
  have hfiled : t.Filed := ((kept_new faults latency).pass h).stored
  refine ⟨hfiled, ?_, fun client fresh command n hok => hfiled.exec_iff hok⟩
  intro name key other doc doc' id id' hne hdoc hdoc' hid hid' hplain hplain'
  exact (hfiled name).not_same hdoc hdoc' hne hid hid' hplain hplain'

/-- Two goods, one of them brought in by a transaction that changes both. -/
def restocked : List Event :=
  [ .connect "memory://",
    .call 0 "a" (.exec (.on "stock" (.insertOne (.obj [("left", .int 3)])))),
    .call 1 "" .begin,
    .call 1 "b" (.execIn (.on "stock" (.insertOne (.obj [])))),
    .call 1 "" (.execIn (.on "stock" (.updateMany .all [.inc "left" 1]))),
    .call 1 "" .commit ]

/-- The first of them is to go by the name of the second. -/
def confused : Event :=
  .call 0 "" (.exec (.on "stock" (.updateOne .all [.set "_id" (.str "b")])))

/-- The two goods are stored under what they are called, and the step that would confuse
them is one that renames. -/
theorem stored_under_identity_restocked :
    let t := (new [] .zero).pass restocked
    (new [] .zero).NeverRenames restocked ∧ t.Filed ∧ t.Renames confused ∧
    ¬ (t.answer confused).1.Filed := by
  intro t
  have hkeeps : (new [] .zero).NeverRenames restocked := by
    refine neverRenames_of_leavesIdentities ?_
    simp [restocked, Event.LeavesIdentities, Statement.on, Action.changes, Change.field]
  have hrenames : t.Renames confused := .single ⟨("a", .obj [("_id", .str "a"), ("left", .int 4)]),
    List.mem_of_getElem? (i := 0) rfl, by decide⟩
  obtain ⟨hfiled, -, hexec⟩ := stored_under_identity [] .zero restocked hkeeps
  exact ⟨hkeeps, hfiled, hrenames, fun hafter => (hexec 0 "" _ 1 rfl).mp hafter hrenames⟩

/-- An update gives a document the `_id` of another, and a zero is inserted with
either sign. -/
theorem not_always_stored_under_identity :
    let named := (new [] .zero).pass
      [ .connect "memory://",
        .call 0 "" (.exec (.on "stock" (.insertOne (.obj [("_id", .str "a")])))),
        .call 0 "" (.exec (.on "stock" (.updateOne .all [.set "_id" (.str "b")]))),
        .call 0 "" (.exec (.on "stock" (.insertOne (.obj [("_id", .str "b")])))) ]
    let signed := (new [] .zero).pass
      [ .connect "memory://",
        .call 0 "" (.exec (.on "stock" (.insertOne (.obj [("_id", .float .zero)])))),
        .call 0 "" (.exec (.on "stock" (.insertOne (.obj [("_id", .float .negativeZero)])))) ]
    (named.server.store.docs "stock").toList
      = [("a", .obj [("_id", .str "b")]), ("b", .obj [("_id", .str "b")])] ∧
    ¬ named.Filed ∧
    (signed.server.store.docs "stock").toList
      = [("-0.0", .obj [("_id", .float .negativeZero)]), ("0.0", .obj [("_id", .float .zero)])] ∧
    Json.same (.float .negativeZero) (.float .zero) = true := by
  intro named signed
  refine ⟨rfl, fun hfiled => ?_, rfl, by decide⟩
  exact absurd (hfiled "stock" "a" (.obj [("_id", .str "b")]) rfl) (by decide)

end Traffic

end StoreBench
