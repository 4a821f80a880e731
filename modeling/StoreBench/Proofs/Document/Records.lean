import Mathlib.Data.List.Nodup
import Mathlib.Data.List.Perm.Basic
import StoreBench.Proofs.Document.Listing
import StoreBench.Proofs.Document.Serial

/-!
# `StoreBench.Proofs.Document.Records`: documents of one form

A collection that only one kind of document goes into is a list of records in
disguise. `Documents.Records entry docs records` says that each record has its
document in the collection, under a key of its own, and that nothing else is
there.

Inserting the document of a record adds it (`Records.apply_insertOne`), and
changing the document of one changes that record (`Records.modify`). A query
finds the rows of the records whose documents it selects, in the order of their
keys (`Records.rows_find`). `Contents.Shows.records_insertOne` is the
first of these for a deed.
-/

set_option autoImplicit false

namespace StoreBench

/-- A list of items each of which can be decoded. -/
theorem mapM_map_ok {α β γ ε : Type} {decode : β → Except ε γ} {write : α → β} {field : α → γ}
    (items : List α) (h : ∀ a ∈ items, decode (write a) = .ok (field a)) :
    (items.map write).mapM decode = .ok (items.map field) := by
  induction items with
  | nil => rfl
  | cons a rest ih =>
      obtain ⟨hfirst, hrest⟩ := List.forall_mem_cons.mp h
      rw [List.map_cons, List.mapM_cons, hfirst, ih hrest]
      rfl

/-- What is the same as mapped records but for its order, is mapped records in that
order. -/
theorem exists_map_of_perm {α β : Type} {f : α → β} {items : List β} {records : List α}
    (h : items.Perm (records.map f)) :
    ∃ found : List α, items = found.map f ∧ found.Perm records :=
  (congrFun₂ (List.eq_map_comp_perm f) items records).mpr h

namespace Documents

variable {docs : Documents} {collection key : String} {doc : Json} {outcome : Outcome}

/-- What is found after an insertion: the document under its key, and all else as
before. -/
theorem getElem?_insert_eq (other : String) :
    (docs.insert key doc)[other]? = if key = other then some doc else docs[other]? := by
  simp only [Std.ExtTreeMap.getElem?_insert, Std.compare_eq_iff_eq]

/-- An insertion that succeeds is of a document with a key that is not taken. -/
theorem apply_insertOne_ok
    (h : (docs.apply collection (.insertOne doc)).2 = .ok outcome) :
    ∃ key, doc.key? = some key ∧ docs[key]? = none ∧
      (docs.apply collection (.insertOne doc)).1 = docs.insert key doc := by
  cases hkey : doc.key? with
  | none => simp [apply, insertAll, hkey] at h
  | some key =>
      cases htaken : docs.contains key with
      | true => simp [apply, insertAll, hkey, htaken] at h
      | false =>
          refine ⟨key, rfl, ?_, ?_⟩
          · rw [Std.ExtTreeMap.contains_eq_isSome_getElem?] at htaken
            exact Option.isNone_iff_eq_none.mp (Option.isSome_eq_false_iff.mp htaken)
          · simp [apply, insertAll, hkey, htaken]

/-- One document more is in the collection after an insertion that succeeds. -/
theorem size_apply_insertOne
    (h : (docs.apply collection (.insertOne doc)).2 = .ok outcome) :
    (docs.apply collection (.insertOne doc)).1.size = docs.size + 1 := by
  obtain ⟨key, -, hfree, hafter⟩ := apply_insertOne_ok h
  have hnew : docs.contains key = false := by
    rw [Std.ExtTreeMap.contains_eq_isSome_getElem?, hfree]
    rfl
  rw [hafter, Std.ExtTreeMap.size_insert, hnew]
  rfl

variable {α : Type} {entry : α → String × Json} {records : List α} {a : α}

/-- The collection holds the documents of these records, each under its key,
and no other. -/
structure Records (entry : α → String × Json) (docs : Documents) (records : List α) : Prop where
  nodup : (records.map fun r => (entry r).1).Nodup
  mem_iff : ∀ (key : String) (doc : Json),
    docs[key]? = some doc ↔ ∃ r ∈ records, entry r = (key, doc)

/-- A collection without documents records nothing, which is where inductions begin. -/
theorem records_of_size_eq_zero (entry : α → String × Json) (h : docs.size = 0) :
    Records entry docs [] where
  nodup := List.nodup_nil
  mem_iff key doc := by
    rw [Std.ExtTreeMap.eq_empty_iff_size_eq_zero.mpr h, Std.ExtTreeMap.getElem?_empty]
    constructor
    · nofun
    · rintro ⟨r, hr, -⟩
      cases hr

/-- A collection that lists the documents of records, one after the other, holds them. -/
theorem records_of_toList (h : docs.toList = records.map entry) : Records entry docs records where
  nodup := by
    have hnodup := docs.nodup_keys
    rwa [h, List.map_map] at hnodup
  mem_iff key doc := by
    rw [← Std.ExtTreeMap.mem_toList_iff_getElem?_eq_some, h, List.mem_map]

/-- The order of the records does not matter, as the collection has an order of its own. -/
theorem Records.perm {others : List α} (h : Records entry docs records)
    (hperm : records.Perm others) : Records entry docs others where
  nodup := (hperm.map _).nodup_iff.mp h.nodup
  mem_iff key doc := by
    rw [h.mem_iff]
    simp only [hperm.mem_iff]

/-- A document under a new key is that of one record more. -/
theorem Records.insert (h : Records entry docs records) (hfree : docs[(entry a).1]? = none) :
    Records entry (docs.insert (entry a).1 (entry a).2) (a :: records) where
  nodup := by
    refine List.nodup_cons.mpr ⟨?_, h.nodup⟩
    intro htaken
    obtain ⟨r, hr, hkey⟩ := List.mem_map.mp htaken
    have hfound := (h.mem_iff (entry r).1 (entry r).2).mpr ⟨r, hr, rfl⟩
    rw [hkey, hfree] at hfound
    cases hfound
  mem_iff key doc := by
    rw [getElem?_insert_eq, List.exists_mem_cons_iff]
    split
    · rename_i hkey
      subst hkey
      constructor
      · intro hdoc
        exact .inl (Prod.ext rfl (Option.some.inj hdoc))
      · rintro (hdoc | hold)
        · rw [hdoc]
        · -- The key was not taken before.
          rw [← h.mem_iff, hfree] at hold
          cases hold
    · rename_i hkey
      rw [h.mem_iff, or_iff_right]
      intro hentry
      exact hkey (congrArg Prod.fst hentry)

/-- Inserting the document of a record adds it, if the insertion is not refused. -/
theorem Records.apply_insertOne (h : Records entry docs records)
    (hkey : (entry a).2.key? = some (entry a).1)
    (hok : (docs.apply collection (.insertOne (entry a).2)).2 = .ok outcome) :
    Records entry (docs.apply collection (.insertOne (entry a).2)).1 (a :: records) := by
  obtain ⟨key, hsome, hfree, hafter⟩ := apply_insertOne_ok hok
  obtain rfl := Option.some.inj (hkey.symm.trans hsome)
  rw [hafter]
  exact h.insert hfree

/-- So does a batch with the documents of several records. -/
theorem Records.insertAll {after : Documents} {new : List α} (h : Records entry docs records)
    (hkey : ∀ a, (entry a).2.key? = some (entry a).1)
    (hok : docs.insertAll collection (new.map fun a => (entry a).2) = .ok after) :
    Records entry after (new.reverse ++ records) := by
  induction new generalizing docs records with
  | nil =>
      cases hok
      exact h
  | cons a rest ih =>
      simp only [List.map_cons, Documents.insertAll, hkey] at hok
      split at hok
      · cases hok
      · rename_i hfree
        rw [Std.ExtTreeMap.contains_eq_isSome_getElem?, Option.not_isSome_iff_eq_none] at hfree
        rw [List.reverse_cons, List.append_assoc]
        exact ih (h.insert hfree) hok

/-- What is inserted into an empty collection is all that it holds. -/
theorem records_of_insertAll {after : Documents} {list : List Json} (hempty : docs = ∅)
    (hok : docs.insertAll collection list = .ok after)
    (hlist : list = records.map fun a => (entry a).2)
    (hkey : ∀ a, (entry a).2.key? = some (entry a).1) : Records entry after records := by
  subst hempty hlist
  have hall := (records_of_size_eq_zero entry Std.ExtTreeMap.size_empty).insertAll hkey hok
  rw [List.append_nil] at hall
  exact hall.perm (List.reverse_perm _)

/-- Putting another document in the place of a record's changes this record. -/
theorem Records.modify (h : Records entry docs records) (ha : a ∈ records) {change : α → α}
    (hkeys : ∀ r, (entry (change r)).1 = (entry r).1)
    (hothers : ∀ r, (entry r).1 ≠ (entry a).1 → change r = r) :
    Records entry (docs.insert (entry a).1 (entry (change a)).2) (records.map change) where
  nodup := by
    rw [List.map_map]
    have hsame : (fun r => (entry r).1) ∘ change = fun r => (entry r).1 := funext hkeys
    rw [hsame]
    exact h.nodup
  mem_iff key doc := by
    -- There is one record only under the key.
    have honly (r : α) (hr : r ∈ records) (hrkey : (entry r).1 = (entry a).1) : r = a :=
      List.inj_on_of_nodup_map h.nodup hr ha hrkey
    have hmapped : (∃ r ∈ records.map change, entry r = (key, doc)) ↔
        ∃ r ∈ records, entry (change r) = (key, doc) := by
      simp only [List.mem_map, exists_exists_and_eq_and]
    rw [getElem?_insert_eq, hmapped]
    split
    · rename_i hkey
      subst hkey
      constructor
      · intro hdoc
        exact ⟨a, ha, Prod.ext (hkeys a) (Option.some.inj hdoc)⟩
      · rintro ⟨r, hr, hentry⟩
        have hrkey : (entry r).1 = (entry a).1 := by
          rw [← hkeys r, hentry]
        rw [← honly r hr hrkey, hentry]
    · rename_i hkey
      rw [h.mem_iff]
      constructor
      · rintro ⟨r, hr, hentry⟩
        refine ⟨r, hr, ?_⟩
        rw [hothers r ?_]
        · exact hentry
        · rw [hentry]
          exact fun hsame => hkey hsame.symm
      · rintro ⟨r, hr, hentry⟩
        have hrkey : (entry r).1 = key := by
          rw [← hkeys r, hentry]
        refine ⟨r, hr, ?_⟩
        rwa [hothers r fun hsame => hkey (hsame.symm.trans hrkey)] at hentry

/-! ### Reading -/

/-- The collection lists the documents of its records, each once. -/
theorem Records.toList_perm (h : Records entry docs records) :
    docs.toList.Perm (records.map entry) := by
  have hlisted : docs.toList.Nodup := List.Nodup.of_map Prod.fst docs.nodup_keys
  have hentries : (records.map entry).Nodup := by
    refine List.Nodup.of_map Prod.fst ?_
    rw [List.map_map]
    exact h.nodup
  refine (List.perm_ext_iff_of_nodup hlisted hentries).mpr ?_
  rintro ⟨key, doc⟩
  rw [Std.ExtTreeMap.mem_toList_iff_getElem?_eq_some, h.mem_iff, List.mem_map]

/-- There are as many documents as records, since no two records share a key. -/
theorem Records.size_eq (h : Records entry docs records) : docs.size = records.length := by
  rw [← Std.ExtTreeMap.length_toList, h.toList_perm.length_eq, List.length_map]

/-- Records that are told apart by their documents are the same in any list of them. -/
theorem Records.perm_of_records {others : List α} (h : Records entry docs records)
    (hothers : Records entry docs others) (hinjective : Function.Injective entry) :
    records.Perm others :=
  (List.map_perm_map_iff hinjective).mp (h.toList_perm.symm.trans hothers.toList_perm)

/-- The documents that a filter selects are those of its records, in some
order. -/
theorem Records.exists_matching (h : Records entry docs records) (filter : Filter) :
    ∃ found : List α, found.Perm (records.filter fun r => filter.selects (entry r).2) ∧
      docs.matching filter = found.map entry := by
  have hperm := h.toList_perm.filter fun e => filter.selects e.2
  rw [List.filter_map] at hperm
  obtain ⟨found, hfound, hsame⟩ := exists_map_of_perm hperm
  exact ⟨found, hsame, hfound⟩

/-- What a query finds are the rows of those records that the filter selects. -/
theorem Records.rows_find (h : Records entry docs records) (filter : Filter) :
    ∃ found : List α, found.Perm (records.filter fun r => filter.selects (entry r).2) ∧
      docs.rows (.find filter) = found.map fun r => (entry r).2.toRow := by
  obtain ⟨found, hperm, hmatching⟩ := h.exists_matching filter
  refine ⟨found, hperm, ?_⟩
  rw [rows, hmatching, List.map_map]
  rfl

/-- What a query for everything finds, read item by item. -/
theorem Records.read_all (h : Records entry docs records) {β : Type}
    (decode : Row → Except BenchError β) (field : α → β)
    (hdecode : ∀ r, decode (entry r).2.toRow = .ok (field r)) :
    ∃ read : List β, read.Perm (records.map field) ∧
      (docs.rows (.find .all)).mapM decode = .ok read := by
  obtain ⟨found, hperm, hrows⟩ := h.rows_find .all
  refine ⟨found.map field, ?_, ?_⟩
  · have heverything : (records.filter fun r => Filter.all.selects (entry r).2) = records :=
      List.filter_eq_self.mpr fun _ _ => rfl
    rw [heverything] at hperm
    exact hperm.map field
  · rw [hrows]
    exact mapM_map_ok found fun r _ => hdecode r

end Documents

namespace Contents

variable {c : Contents} {α : Type} {entry : α → String × Json} {records : List α} {a : α}

/-- A command changes its collection as its action does, by itself. -/
theorem perform_self (c : Contents) (command : Command) :
    (c.perform command).1 command.collection
      = ((c command.collection).apply command.collection command.action).1 := set_self

/-- A command leaves the other collections as they are, whatever its action is. -/
theorem perform_other {command : Command} {other : String} (h : other ≠ command.collection) :
    (c.perform command).1 other = c other := set_of_ne h.symm

/-- A deed that inserts the document of a record adds it. -/
theorem Shows.records_insertOne {name : String} {seen : Seen}
    (h : c.Shows ⟨⟨name, .insertOne (entry a).2⟩, seen⟩)
    (hrecords : (c name).Records entry records) (hkey : (entry a).2.key? = some (entry a).1) :
    ((c.perform ⟨name, .insertOne (entry a).2⟩).1 name).Records entry (a :: records) := by
  obtain ⟨outcome, hok, -⟩ := h
  rw [c.perform_self ⟨name, .insertOne (entry a).2⟩]
  exact hrecords.apply_insertOne hkey hok

/-- A command that reads changes nothing, in its own collection either. -/
theorem perform_of_isRead (c : Contents) {command : Command} (h : command.action.isRead = true) :
    (c.perform command).1 = c :=
  set_eq_self (congrArg Prod.fst
    (Documents.apply_of_isRead command.collection (c command.collection) h))

end Contents

end StoreBench
