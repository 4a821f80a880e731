import StoreBench.Proofs.Document.Answers

/-!
# `StoreBench.Proofs.Document.Commit`: which transactions can be committed

A commit stages the touched collections in some order, each against the same
store, and installs what was staged. Whether it can is a matter of each collection
alone (`commit_isOk_iff`): what is held of it has to fit the store
(`Touched.Fits`). A private copy fits as long as the collection has the version
of the copy, and documents that are held back fit when each can be inserted
(`Documents.insertAll_isOk_iff`). Neither depends on the order in which the
collections are visited, and neither do the documents afterwards
(`docs_commit_perm`). What differs with the order is the first failure to be met,
and the versions that are given.

A commit is a conflict only for a private copy whose version is not the current
one (`stale_of_conflict`). A server commits as its store does, unless a fault comes
in between (`Server.commit_of_no_fault`).
-/

set_option autoImplicit false

namespace StoreBench

namespace Documents

/-- Keys are free after an insertion when they were before, and the new one is not
among them. -/
theorem free_insert_iff (docs : Documents) (key : String) (doc : Json) (keys : List String) :
    (∀ other ∈ keys, (docs.insert key doc).contains other = false) ↔
      key ∉ keys ∧ ∀ other ∈ keys, docs.contains other = false := by
  simp only [Std.ExtTreeMap.contains_insert, Bool.or_eq_false_iff, beq_eq_false_iff_ne, ne_eq,
    Std.compare_eq_iff_eq]
  constructor
  · intro hall
    exact ⟨fun hmem => (hall key hmem).1 rfl, fun other hother => (hall other hother).2⟩
  · rintro ⟨hnew, hall⟩ other hother
    refine ⟨?_, hall other hother⟩
    rintro rfl
    exact hnew hother

/-- A batch can be inserted just when each of its documents has a key, no two
have the same, and none has one that is taken. -/
theorem insertAll_isOk_iff (collection : String) (docs : Documents) (batch : List Json) :
    (∃ after, docs.insertAll collection batch = .ok after) ↔
      (∀ doc ∈ batch, doc.key?.isSome = true) ∧ (batch.filterMap Json.key?).Nodup ∧
        ∀ key ∈ batch.filterMap Json.key?, docs.contains key = false := by
  induction batch generalizing docs with
  | nil => simp [insertAll]
  | cons doc rest ih =>
      cases hkey : doc.key? with
      | none => simp [insertAll, hkey]
      | some key =>
          cases htaken : docs.contains key with
          | true => simp [insertAll, hkey, htaken]
          | false =>
              -- The rest meets the documents with this one among them.
              simp only [insertAll, hkey, htaken, Bool.false_eq_true, if_false, ih, free_insert_iff,
                List.filterMap_cons, List.nodup_cons, List.forall_mem_cons, Option.isSome_some,
                true_and, and_assoc, and_left_comm]

end Documents

/-- What is held of a collection fits a store, so that it can be committed there.
A private copy fits while the collection has its version. Documents that are held
back fit when they are objects whose keys are different from each other and from
those of the documents there. -/
def Touched.Fits (s : Store) (name : String) : Touched → Prop
  | .copied working _ => s.version name = working.version
  | .blind inserts =>
    (∀ doc ∈ inserts, ∃ fields, doc = .obj fields) ∧ (inserts.filterMap Json.key?).Nodup ∧
      ∀ key ∈ inserts.filterMap Json.key?, (s.docs name).contains key = false

namespace Transaction

variable {s t : Store} {tx order : Transaction} {name : String}

/-- No collection is held twice, and every object that is held back has a key. -/
structure WellFormed (tx : Transaction) : Prop where
  nodup : (tx.map Prod.fst).Nodup
  keyed : ∀ name inserts, (name, .blind inserts) ∈ tx →
    ∀ fields, .obj fields ∈ inserts → (Json.key? (.obj fields)).isSome = true

/-- The order in which collections were touched is nothing that a transaction is
well-formed by. -/
theorem WellFormed.perm (h : tx.WellFormed) (horder : order.Perm tx) : order.WellFormed where
  nodup := (horder.map Prod.fst).nodup_iff.mpr h.nodup
  keyed name inserts hmem := h.keyed name inserts (horder.mem_iff.mp hmem)

/-! ### Whether a transaction can be committed -/

/-- A collection can be staged just when what is held of it fits. -/
theorem stage_isOk_iff {touched : Touched}
    (hkeyed : ∀ inserts, touched = .blind inserts →
      ∀ fields, .obj fields ∈ inserts → (Json.key? (.obj fields)).isSome = true) :
    (∃ staged, stage s name touched = .ok staged) ↔ touched.Fits s name := by
  cases touched with
  | copied working dirty =>
      simp only [stage, Touched.Fits]
      split <;> simp_all
  | blind inserts =>
      have hinsert : (∃ staged, stage s name (.blind inserts) = .ok staged) ↔
          ∃ after, (s.docs name).insertAll name inserts = .ok after := by
        cases inserts with
        | nil => simp [stage, Documents.insertAll]
        | cons doc rest =>
            simp only [stage, bind, Except.bind]
            split <;> simp_all
      -- Objects have keys here, and nothing else has.
      have hobjects : (∀ doc ∈ inserts, doc.key?.isSome = true) ↔
          ∀ doc ∈ inserts, ∃ fields, doc = .obj fields := by
        refine forall₂_congr fun doc hmem => ?_
        cases doc with
        | obj fields => exact iff_of_true (hkeyed _ rfl fields hmem) ⟨fields, rfl⟩
        | null | bool | int | float | str | arr => simp [Json.key?]
      rw [hinsert, Documents.insertAll_isOk_iff, hobjects]
      rfl

/-- All collections can be staged just when each can. -/
theorem stageAll_isOk_iff (s : Store) (tx : Transaction) :
    (∃ staged, tx.stageAll s = .ok staged) ↔
      ∀ entry ∈ tx, ∃ staged, stage s entry.1 entry.2 = .ok staged := by
  induction tx with
  | nil => simp [stageAll]
  | cons entry rest ih =>
      obtain ⟨first, held⟩ := entry
      rw [List.forall_mem_cons, ← ih]
      simp only [stageAll, bind, Except.bind]
      cases stage s first held with
      | error e => simp
      | ok one =>
          cases stageAll s rest with
          | error e => simp
          | ok others => simp

/-- A transaction can be committed just when what it holds of each collection
fits. -/
theorem commit_isOk_iff (h : tx.WellFormed) :
    (∃ t, tx.commit s = .ok t) ↔ ∀ entry ∈ tx, entry.2.Fits s entry.1 := by
  have hstaged : (∃ t, tx.commit s = .ok t) ↔ ∃ staged, tx.stageAll s = .ok staged := by
    simp only [commit, bind, Except.bind]
    split <;> simp_all
  rw [hstaged, stageAll_isOk_iff]
  refine forall₂_congr fun entry hentry => ?_
  refine stage_isOk_iff ?_
  rintro inserts hblind
  exact h.keyed entry.1 inserts (by rw [← hblind]; exact hentry)

/-! ### What it leaves -/

/-- Where no name occurs twice, what is found under a name is what stands
there. -/
theorem lookup_eq_some_iff_mem {α : Type} {entries : List (String × α)}
    (hnodup : (entries.map Prod.fst).Nodup) {a : α} :
    entries.lookup name = some a ↔ (name, a) ∈ entries := by
  rw [List.lookup_eq_some_iff]
  constructor
  · rintro ⟨before, later, rfl, -⟩
    exact List.mem_append_right before List.mem_cons_self
  · intro hmem
    obtain ⟨before, later, rfl⟩ := List.append_of_mem hmem
    refine ⟨before, later, rfl, fun entry hentry => bne_iff_ne.mpr ?_⟩
    rintro rfl
    rw [List.map_append, List.nodup_append] at hnodup
    exact hnodup.2.2 _ (List.mem_map_of_mem hentry) _ List.mem_cons_self rfl

/-- The order of the entries makes no difference to what is found. -/
theorem lookup_perm (hnodup : (tx.map Prod.fst).Nodup) (horder : order.Perm tx) (name : String) :
    order.lookup name = tx.lookup name := by
  refine Option.ext fun touched => ?_
  rw [lookup_eq_some_iff_mem hnodup,
    lookup_eq_some_iff_mem ((horder.map Prod.fst).nodup_iff.mpr hnodup)]
  exact horder.mem_iff

/-- In whatever order the collections are visited, a commit leaves the same
documents. -/
theorem docs_commit_perm (h : tx.WellFormed) (horder : order.Perm tx) {t' : Store}
    (hcommit : tx.commit s = .ok t) (hcommit' : order.commit s = .ok t') : t'.docs = t.docs := by
  funext name
  have hlookup := lookup_perm h.nodup horder name
  rcases docs_commit h.nodup hcommit name with ⟨hheld, hdocs⟩ |
      ⟨touched, staged, hheld, hstage, hdocs⟩ <;>
    rcases docs_commit (h.perm horder).nodup hcommit' name with ⟨hheld', hdocs'⟩ |
      ⟨touched', staged', hheld', hstage', hdocs'⟩
  · rw [hdocs, hdocs']
  · cases hheld'.symm.trans (hlookup.trans hheld)
  · cases hheld'.symm.trans (hlookup.trans hheld)
  · -- The same is held in both orders, and so the same was staged.
    cases hheld'.symm.trans (hlookup.trans hheld)
    cases hstage'.symm.trans hstage
    rw [hdocs, hdocs']

/-! ### Conflicts -/

/-- A batch is never refused for a conflict. -/
theorem insertAll_ne_conflict {collection : String} {docs : Documents} {batch : List Json}
    {code message : String} :
    docs.insertAll collection batch ≠ .error (.conflict code message) := by
  intro h
  induction batch generalizing docs with
  | nil => cases h
  | cons doc rest ih =>
      simp only [Documents.insertAll] at h
      split at h
      · cases h
      · split at h
        · cases h
        · exact ih h

/-- A commit is a conflict for a private copy whose version is not the current
one. -/
theorem stale_of_conflict {code message : String}
    (h : tx.commit s = .error (.conflict code message)) :
    ∃ name working dirty, (name, .copied working dirty) ∈ tx ∧
      s.version name ≠ working.version := by
  have hall : tx.stageAll s = .error (.conflict code message) := by
    simp only [commit, bind, Except.bind] at h
    split at h
    · rename_i e he
      rw [he, Except.error.inj h]
    · cases h
  clear h
  induction tx with
  | nil => cases hall
  | cons entry rest ih =>
      obtain ⟨first, held⟩ := entry
      simp only [stageAll, bind, Except.bind] at hall
      split at hall
      · rename_i e hstage
        cases hall
        cases held with
        | copied working dirty =>
            refine ⟨first, working, dirty, List.mem_cons_self, ?_⟩
            intro hsame
            simp [stage, hsame] at hstage
        | blind inserts =>
            -- Documents that are held back are not refused for a conflict.
            cases inserts with
            | nil => cases hstage
            | cons doc batch =>
                simp only [stage, bind, Except.bind] at hstage
                split at hstage
                · rename_i hinsert
                  cases hstage
                  exact absurd hinsert insertAll_ne_conflict
                · cases hstage
      · split at hall
        · rename_i e hrest
          cases hall
          obtain ⟨name, working, dirty, hmem, hstale⟩ := ih hrest
          exact ⟨name, working, dirty, List.mem_cons_of_mem _ hmem, hstale⟩
        · cases hall

end Transaction

/-! ### The commit of a server -/

namespace Server

variable {s : Server} {tx order : Transaction}

/-- Without a fault the commit of a server is that of its store. -/
theorem commit_of_no_fault (hfault : s.takeFault.2 = none) (tx : Transaction) :
    (∃ store, tx.commit s.store = .ok store ∧ (s.commit tx).2 = .ok () ∧
      (s.commit tx).1.store = store) ∨
    ∃ e, tx.commit s.store = .error e ∧ (s.commit tx).2 = .error e ∧
      (s.commit tx).1.store = s.store := by
  have hstore := store_takeFault s
  rcases htake : s.takeFault with ⟨s', fault⟩
  rw [htake] at hfault hstore
  simp only at hfault hstore
  subst hfault
  simp only [commit, htake, hstore]
  cases tx.commit s.store with
  | ok store => exact .inl ⟨store, rfl, rfl, rfl⟩
  | error e => exact .inr ⟨e, rfl, rfl, rfl⟩

/-- Without a fault a commit succeeds just when everything fits. -/
theorem commit_isOk_iff (hfault : s.takeFault.2 = none) (h : tx.WellFormed) :
    (s.commit tx).2 = .ok () ↔ ∀ entry ∈ tx, entry.2.Fits s.store entry.1 := by
  rw [← Transaction.commit_isOk_iff h]
  rcases commit_of_no_fault hfault tx with ⟨store, hcommit, hreply, -⟩ | ⟨e, hcommit, hreply, -⟩
  · exact iff_of_true hreply ⟨store, hcommit⟩
  · rw [hcommit, hreply]
    exact iff_of_false nofun nofun

/-- Without a fault a commit leaves the same documents in every order. -/
theorem docs_commit_perm (hfault : s.takeFault.2 = none) (h : tx.WellFormed)
    (horder : order.Perm tx) : (s.commit order).1.store.docs = (s.commit tx).1.store.docs := by
  have hboth : (s.commit order).2 = .ok () ↔ (s.commit tx).2 = .ok () := by
    rw [commit_isOk_iff hfault h, commit_isOk_iff hfault (h.perm horder)]
    exact forall_congr' fun entry => imp_congr_left horder.mem_iff
  rcases commit_of_no_fault hfault tx with ⟨store, hcommit, hreply, hstore⟩ | ⟨e, -, hreply, hstore⟩
  · rcases commit_of_no_fault hfault order with ⟨store', hcommit', -, hstore'⟩ |
      ⟨e', -, hreply', -⟩
    · rw [hstore, hstore']
      exact Transaction.docs_commit_perm h horder hcommit hcommit'
    · cases hreply'.symm.trans (hboth.mpr hreply)
  · rcases commit_of_no_fault hfault order with ⟨store', -, hreply', -⟩ | ⟨e', -, -, hstore'⟩
    · cases hreply.symm.trans (hboth.mp hreply')
    · -- Neither installs anything.
      rw [hstore, hstore']

end Server

end StoreBench
