import Mathlib.Data.List.Nodup
import StoreBench.Document.Collection

/-!
# `StoreBench.Proofs.Document.Listing`: what is read of a collection

A check asks for all documents of a collection and decodes each row. What comes
of it is a list, in which the keys of the documents do not show any more.
`Documents.Listed` keeps the keys beside what was read, so that what is said of
the list can be said of the stored documents: something is in the list just when
a document tells it (`Listed.mem_values_iff`), and once in it just when one
document does (`Listed.count_values_iff`).

There is such a list whenever every document can be decoded
(`Legible.exists_listed`), whatever else is in the documents.
-/

set_option autoImplicit false

namespace StoreBench

section Entries

variable {α β ε : Type} {decode : β → Except ε α}

/-- Items that can all be decoded are decoded together, each in its place. -/
theorem exists_mapM_ok {items : List (String × β)}
    (h : ∀ item ∈ items, ∃ a, decode item.2 = .ok a) :
    ∃ listed : List (String × α),
      (items.map Prod.snd).mapM decode = .ok (listed.map Prod.snd) ∧
      listed.map Prod.fst = items.map Prod.fst ∧
      ∀ key a, (key, a) ∈ listed ↔ ∃ b, (key, b) ∈ items ∧ decode b = .ok a := by
  induction items with
  | nil => exact ⟨[], rfl, rfl, by simp⟩
  | cons item rest ih =>
      obtain ⟨key, b⟩ := item
      obtain ⟨a, ha⟩ := h (key, b) List.mem_cons_self
      obtain ⟨listed, hread, hkeys, hmem⟩ :=
        ih fun item hitem => h item (List.mem_cons_of_mem _ hitem)
      refine ⟨(key, a) :: listed, ?_, ?_, ?_⟩
      · rw [List.map_cons, List.mapM_cons, ha, hread]
        rfl
      · rw [List.map_cons, List.map_cons, hkeys]
      · -- What is listed first comes from the first item.
        intro other c
        simp only [List.mem_cons, Prod.mk.injEq, hmem, or_and_right, exists_or]
        refine or_congr_left ⟨?_, ?_⟩
        · rintro ⟨rfl, rfl⟩
          exact ⟨b, ⟨rfl, rfl⟩, ha⟩
        · rintro ⟨_, ⟨rfl, rfl⟩, hc⟩
          exact ⟨rfl, Except.ok.inj (hc.symm.trans ha)⟩

/-- Where no key occurs twice, something occurs once just when it stands beside
one key. -/
theorem count_values_iff [BEq α] [LawfulBEq α] {listed : List (String × α)}
    (hnodup : (listed.map Prod.fst).Nodup) (a : α) :
    (listed.map Prod.snd).count a = 1 ↔ ∃! key, (key, a) ∈ listed := by
  induction listed with
  | nil => simp
  | cons item rest ih =>
      obtain ⟨key, b⟩ := item
      obtain ⟨hkey, hrest⟩ := List.nodup_cons.mp hnodup
      replace hkey (c : α) : (key, c) ∉ rest :=
        fun hmem => hkey (List.mem_map.mpr ⟨(key, c), hmem, rfl⟩)
      rw [List.map_cons, List.count_cons]
      by_cases hb : b = a
      · -- It is the first, so the rest has to be without it.
        subst hb
        have hnone : (rest.map Prod.snd).count b = 0 ↔ ∀ other, (other, b) ∉ rest := by
          simp [List.count_eq_zero]
        simp only [beq_self_eq_true, if_true, Nat.add_eq_right, hnone, List.mem_cons,
          Prod.mk.injEq, and_true]
        constructor
        · intro hfree
          exact ⟨key, .inl rfl, fun other hother => hother.resolve_right (hfree other)⟩
        · rintro ⟨first, -, honly⟩ other hother
          have hsame := (honly other (.inr hother)).trans (honly key (.inl rfl)).symm
          rw [hsame] at hother
          exact hkey b hother
      · simp only [beq_eq_false_iff_ne.mpr hb, Bool.false_eq_true, if_false, Nat.add_zero,
          ih hrest, List.mem_cons, Prod.mk.injEq, Ne.symm hb, and_false, false_or]

end Entries

namespace Documents

variable {α : Type} {docs : Documents} {decode : Row → Except BenchError α} {key : String} {a : α}

/-- No key is listed twice. A listing is the collection, in the order of its keys. -/
theorem nodup_keys (docs : Documents) : (docs.toList.map Prod.fst).Nodup := by
  refine List.pairwise_map.mpr (Std.ExtTreeMap.distinct_keys_toList.imp ?_)
  intro x y hne hsame
  exact hne (Std.compare_eq_iff_eq.mpr hsame)

/-! ### What a filter selects -/

section Matching

variable {filter : Filter} {doc : Json}

/-- A document is selected where it is stored and meets the filter. -/
theorem mem_matching_iff :
    (key, doc) ∈ docs.matching filter ↔ docs[key]? = some doc ∧ filter.selects doc = true := by
  rw [matching, List.mem_filter, Std.ExtTreeMap.mem_toList_iff_getElem?_eq_some]

/-- Every document is selected by the filter without conditions, in the order of the
keys. -/
theorem matching_all (docs : Documents) : docs.matching .all = docs.toList :=
  List.filter_eq_self.mpr fun _ _ => rfl

/-- A filter that selects no document matches nothing, and what is made of it is empty. -/
theorem matching_eq_nil
    (h : ∀ (key : String) (doc : Json), docs[key]? = some doc → filter.selects doc = false) :
    docs.matching filter = [] := by
  refine List.eq_nil_iff_forall_not_mem.mpr ?_
  rintro ⟨key, doc⟩ hentry
  obtain ⟨hstored, hselects⟩ := mem_matching_iff.mp hentry
  exact Bool.false_ne_true ((h key doc hstored).symm.trans hselects)

/-- A filter that selects a document under one key only matches that one. -/
theorem matching_eq_singleton (hstored : docs[key]? = some doc)
    (hselects : filter.selects doc = true)
    (honly : ∀ (other : String) (found : Json), docs[other]? = some found →
      filter.selects found = true → other = key) : docs.matching filter = [(key, doc)] := by
  have hmem (entry : String × Json) : entry ∈ docs.matching filter ↔ entry = (key, doc) := by
    obtain ⟨other, found⟩ := entry
    rw [mem_matching_iff]
    constructor
    · rintro ⟨hfound, hsel⟩
      obtain rfl := honly other found hfound hsel
      rw [hfound] at hstored
      rw [Option.some.inj hstored]
    · intro he
      cases he
      exact ⟨hstored, hselects⟩
  -- No key occurs twice, so neither does an entry.
  have hnodup : (docs.matching filter).Nodup := (List.Nodup.of_map _ docs.nodup_keys).filter _
  exact List.perm_singleton.mp ((List.perm_ext_iff_of_nodup hnodup (List.nodup_singleton _)).mpr
    fun entry => (hmem entry).trans List.mem_singleton.symm)

end Matching

/-! ### What the documents tell -/

/-- The row of the document under a key is decoded as this. -/
def Tells (docs : Documents) (decode : Row → Except BenchError α) (key : String) (a : α) : Prop :=
  ∃ doc, docs[key]? = some doc ∧ decode doc.toRow = .ok a

/-- A document tells one thing only, as it is decoded in one way. -/
theorem Tells.unique {b : α} (ha : docs.Tells decode key a) (hb : docs.Tells decode key b) :
    a = b := by
  obtain ⟨doc, hdoc, hdecode⟩ := ha
  obtain ⟨other, hother, hdecode'⟩ := hb
  obtain rfl := Option.some.inj (hdoc.symm.trans hother)
  exact Except.ok.inj (hdecode.symm.trans hdecode')

/-- The row of every document can be decoded, which a check takes for granted. -/
def Legible (docs : Documents) (decode : Row → Except BenchError α) : Prop :=
  ∀ (key : String) (doc : Json), docs[key]? = some doc → ∃ a, decode doc.toRow = .ok a

/-- Legibility can be checked document by document, so that it can be evaluated. -/
theorem legible_of_all (h : docs.toList.all (fun entry => (decode entry.2.toRow).toBool) = true) :
    docs.Legible decode := by
  intro key doc hdoc
  have hentry := List.all_eq_true.mp h (key, doc)
    (Std.ExtTreeMap.mem_toList_iff_getElem?_eq_some.mpr hdoc)
  cases hread : decode doc.toRow with
  | ok a => exact ⟨a, rfl⟩
  | error e =>
      rw [hread] at hentry
      cases hentry

/-- This is what the documents tell, each under its key, in the order in which a
query for everything finds it. -/
structure Listed (docs : Documents) (decode : Row → Except BenchError α)
    (listed : List (String × α)) : Prop where
  read : (docs.rows (.find .all)).mapM decode = .ok (listed.map Prod.snd)
  size : listed.length = docs.size
  nodup : (listed.map Prod.fst).Nodup
  mem_iff : ∀ key a, (key, a) ∈ listed ↔ docs.Tells decode key a

/-- All documents are read when each can be, in the order of their keys. -/
theorem Legible.exists_listed (h : docs.Legible decode) : ∃ listed, docs.Listed decode listed := by
  have hrows : docs.rows (.find .all)
      = (docs.toList.map fun entry => (entry.1, entry.2.toRow)).map Prod.snd := by
    rw [rows, matching_all, List.map_map]
    rfl
  have hlegible : ∀ item ∈ docs.toList.map fun entry => (entry.1, entry.2.toRow),
      ∃ a, decode item.2 = .ok a := by
    intro item hitem
    obtain ⟨⟨key, doc⟩, hentry, rfl⟩ := List.mem_map.mp hitem
    exact h key doc (Std.ExtTreeMap.mem_toList_iff_getElem?_eq_some.mp hentry)
  obtain ⟨listed, hread, hkeys, hmem⟩ := exists_mapM_ok hlegible
  rw [List.map_map] at hkeys
  refine ⟨listed, by rw [hrows, hread], ?_, ?_, ?_⟩
  · have hlength := congrArg List.length hkeys
    rwa [List.length_map, List.length_map, Std.ExtTreeMap.length_toList] at hlength
  · rw [hkeys]
    exact docs.nodup_keys
  · intro key a
    simp only [hmem, List.mem_map, Prod.mk.injEq, Prod.exists, Tells,
      ← Std.ExtTreeMap.mem_toList_iff_getElem?_eq_some]
    constructor
    · rintro ⟨row, ⟨_, doc, hentry, rfl, rfl⟩, ha⟩
      exact ⟨doc, hentry, ha⟩
    · rintro ⟨doc, hentry, ha⟩
      exact ⟨_, ⟨key, doc, hentry, rfl, rfl⟩, ha⟩

namespace Listed

variable {listed : List (String × α)}

/-- A value is listed if some document tells it, under whatever key. -/
theorem mem_values_iff (h : docs.Listed decode listed) :
    a ∈ listed.map Prod.snd ↔ ∃ key, docs.Tells decode key a := by
  simp only [List.mem_map, Prod.exists, exists_eq_right, h.mem_iff]

/-- A value is listed once if exactly one document tells it. That is how checks count
duplicates. -/
theorem count_values_iff [BEq α] [LawfulBEq α] (h : docs.Listed decode listed) :
    (listed.map Prod.snd).count a = 1 ↔ ∃! key, docs.Tells decode key a := by
  rw [StoreBench.count_values_iff h.nodup]
  simp only [h.mem_iff]

/-- Where one thing is never told by two documents, it is not twice in the list,
and the other way round. -/
theorem nodup_map_values_iff {β : Type} (h : docs.Listed decode listed) (field : α → β) :
    ((listed.map Prod.snd).map field).Nodup ↔
      ∀ key other a b, docs.Tells decode key a → docs.Tells decode other b →
        field a = field b → key = other := by
  have hpairs := List.pairwise_map.mp h.nodup
  simp only [← h.mem_iff]
  rw [List.map_map]
  constructor
  · intro hnodup key other a b ha hb hsame
    exact congrArg Prod.fst (List.inj_on_of_nodup_map hnodup ha hb hsame)
  · intro hdistinct
    refine List.pairwise_map.mpr (hpairs.imp_of_mem ?_)
    rintro ⟨key, a⟩ ⟨other, b⟩ ha hb hne hsame
    exact hne (hdistinct key other a b ha hb hsame)

end Listed

end Documents

end StoreBench
