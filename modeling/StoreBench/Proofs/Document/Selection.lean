import StoreBench.Proofs.Document.Keys

/-!
# `StoreBench.Proofs.Document.Selection`: commands that share a filter

Six commands take a filter, and go through a collection in three ways: they list what
the filter selects, they keep what it does not select, or they edit documents where
these are. All of them mean the same documents (`commands_agree`).

An update edits the documents that were selected before the first edit. It is the same
to walk through the keys and to look at each document as it is found there (`walk`),
since an edit changes no other document (`walk_eq`). What the edits of an update do to
a collection, whether all of them succeed or not, is `Edits`.
-/

set_option autoImplicit false

namespace StoreBench.Documents

variable {docs after : Documents} {filter : Filter} {changes : Update} {key : String} {doc : Json}
  {chosen : List (String × Json)}

/-! ### What is selected -/

/-- What is selected is listed in the order of the keys. -/
theorem matching_ordered (docs : Documents) (filter : Filter) :
    (docs.matching filter).Pairwise fun a b => compare a.1 b.1 = .lt :=
  Std.ExtTreeMap.ordered_keys_toList.filter _

/-- Two collections with the same keys list them in the same order. -/
theorem keys_congr (h : ∀ key, key ∈ after ↔ key ∈ docs) : after.keys = docs.keys := by
  have hnodup (docs : Documents) : docs.keys.Nodup := by
    rw [← Std.ExtTreeMap.map_fst_toList_eq_keys]
    exact docs.nodup_keys
  have hperm : after.keys.Perm docs.keys :=
    (List.perm_ext_iff_of_nodup (hnodup after) (hnodup docs)).mpr fun key => by
      rw [Std.ExtTreeMap.mem_keys, Std.ExtTreeMap.mem_keys, h]
  refine List.Perm.eq_of_pairwise ?_ Std.ExtTreeMap.ordered_keys Std.ExtTreeMap.ordered_keys hperm
  exact fun a b _ _ hlt hgt => absurd hgt (Std.OrientedCmp.not_lt_of_lt hlt)

/-! ### Deleting -/

/-- What a deletion leaves: the documents that the filter does not select, under the
keys that they had. -/
def without (docs : Documents) (filter : Filter) : Documents :=
  docs.filter fun _ doc => !filter.selects doc

/-- A document is left just when it was there and was not selected. -/
theorem getElem?_without_iff :
    (docs.without filter)[key]? = some doc ↔
      docs[key]? = some doc ∧ (key, doc) ∉ docs.matching filter := by
  rw [without, Std.ExtTreeMap.getElem?_filter', Option.filter_eq_some_iff, mem_matching_iff]
  simp only [Bool.not_eq_true', not_and, Bool.not_eq_true]
  exact ⟨fun h => ⟨h.1, fun _ => h.2⟩, fun h => ⟨h.1, h.2 h.1⟩⟩

/-- The filter selects nothing of it, so that deleting again deletes nothing. -/
theorem matching_without (docs : Documents) (filter : Filter) :
    (docs.without filter).matching filter = [] := by
  rw [matching, without, Std.ExtTreeMap.toList_filter, List.filter_filter]
  refine List.filter_eq_nil_iff.mpr fun entry _ => ?_
  rw [Bool.and_not_self]
  exact Bool.false_ne_true

/-- As many are gone as were selected, which is what the answer counts. -/
theorem size_without (docs : Documents) (filter : Filter) :
    docs.size - (docs.without filter).size = (docs.matching filter).length := by
  have hsplit := List.length_eq_length_filter_add (l := docs.toList)
    fun entry => filter.selects entry.2
  rw [without, ← Std.ExtTreeMap.length_toList, ← Std.ExtTreeMap.length_toList,
    Std.ExtTreeMap.toList_filter, hsplit]
  exact Nat.add_sub_cancel_right _ _

/-- A deletion leaves this and answers with the number of what it deleted. -/
theorem apply_deleteMany (collection : String) (docs : Documents) (filter : Filter) :
    docs.apply collection (.deleteMany filter) = (docs.without filter, .ok
      { affected := (docs.matching filter).length
        wrote := 0 < (docs.matching filter).length }) := by
  rw [← size_without]
  rfl

/-! ### Editing in place -/

/-- What an update of these documents has done to a collection when it comes to its
end, or to the first edit that fails. -/
structure Edits (changes : Update) (chosen : List (String × Json)) (docs after : Documents)
    (result : Attempted Unit) : Prop where
  keys : after.keys = docs.keys
  others : ∀ key ∉ chosen.map Prod.fst, after[key]? = docs[key]?
  edited : result = .ok () → ∀ entry ∈ chosen, after[entry.1]? = some (changes.edit entry.2).1

/-- A document that is replaced does not change the keys. -/
theorem mem_editAll_iff (h : ∀ entry ∈ chosen, entry.1 ∈ docs) :
    key ∈ (editAll changes docs chosen).1 ↔ key ∈ docs := by
  induction chosen generalizing docs with
  | nil => rfl
  | cons entry rest ih =>
      obtain ⟨hentry, hrest⟩ := List.forall_mem_cons.mp h
      have hmem (other : String) :
          other ∈ docs.insert entry.1 (changes.edit entry.2).1 ↔ other ∈ docs := by
        rw [Std.ExtTreeMap.mem_insert, Std.compare_eq_iff_eq, or_iff_right_iff_imp]
        rintro rfl
        exact hentry
      simp only [editAll]
      split
      · rw [ih fun other hother => (hmem other.1).mpr (hrest other hother), hmem]
      · exact hmem key

/-- Going through the documents makes these edits, if they are stored as listed and none
is listed twice. -/
theorem edits_editAll (hstored : ∀ entry ∈ chosen, docs[entry.1]? = some entry.2)
    (hnodup : (chosen.map Prod.fst).Nodup) :
    Edits changes chosen docs (editAll changes docs chosen).1 (editAll changes docs chosen).2 where
  keys := keys_congr fun key => mem_editAll_iff fun entry hentry =>
    Std.ExtTreeMap.mem_iff_isSome_getElem?.mpr (by rw [hstored entry hentry]; rfl)
  others _ hkey := getElem?_editAll_of_not_mem hkey
  edited hok _ hentry := getElem?_editAll_of_mem hnodup hok hentry

/-- All of some documents, or the first of them only. -/
def limited (many : Bool) (chosen : List (String × Json)) : List (String × Json) :=
  if many then chosen else chosen.take 1

/-- An update of one comes to the first of those that an update of many comes to. -/
theorem limited_sublist (many : Bool) (chosen : List (String × Json)) :
    (limited many chosen).Sublist chosen := by
  cases many with
  | true => exact List.Sublist.refl chosen
  | false => exact List.take_sublist 1 chosen

/-- The update of all documents that a filter selects, or of the first one. -/
def updating (many : Bool) (filter : Filter) (changes : Update) : Action :=
  if many then .updateMany filter changes else .updateOne filter changes

/-- An update of either kind goes through what it is limited to. -/
theorem apply_updating_eq (collection : String) (many : Bool) (docs : Documents) (filter : Filter)
    (changes : Update) :
    docs.apply collection (updating many filter changes)
      = docs.update (limited many (docs.matching filter)) changes := by
  cases many <;> rfl

/-- An update as a walk through keys. Each document is looked at as it is found there,
and edited if the filter selects it. An edit that fails ends the walk, and so does one
that succeeds unless there are many to make. The walk answers how many were made. -/
def walk (many : Bool) (filter : Filter) (changes : Update) :
    Documents → List String → Documents × Attempted Nat
  | docs, [] => (docs, .ok 0)
  | docs, key :: rest =>
    match docs[key]? with
    | none => walk many filter changes docs rest
    | some doc =>
      if filter.selects doc then
        let (edited, result) := changes.edit doc
        let docs := docs.insert key edited
        match result with
        | .ok () =>
          if many then
            let (docs, result) := walk many filter changes docs rest
            (docs, result.map (· + 1))
          else (docs, .ok 1)
        | .error failure => (docs, .error failure)
      else walk many filter changes docs rest

/-- The edits of some documents, with their number. -/
def counted (changes : Update) (docs : Documents) (chosen : List (String × Json)) :
    Documents × Attempted Nat :=
  ((editAll changes docs chosen).1,
    (editAll changes docs chosen).2.map fun () => chosen.length)

/-- Something is updated wherever something is selected. -/
theorem limited_cons (many : Bool) (entry : String × Json) (rest : List (String × Json)) :
    limited many (entry :: rest) = entry :: (if many then limited many rest else []) := by
  cases many <;> rfl

/-- An edit that fails is the last one, and is not counted. -/
theorem counted_cons (changes : Update) (docs : Documents) (entry : String × Json)
    (rest : List (String × Json)) :
    counted changes docs (entry :: rest)
      = match (changes.edit entry.2).2 with
        | .ok () =>
          let later := counted changes (docs.insert entry.1 (changes.edit entry.2).1) rest
          (later.1, later.2.map (· + 1))
        | .error failure => (docs.insert entry.1 (changes.edit entry.2).1, .error failure) := by
  simp only [counted, editAll]
  cases (changes.edit entry.2).2 with
  | error failure => rfl
  | ok done =>
      cases (editAll changes (docs.insert entry.1 (changes.edit entry.2).1) rest).2 with
      | error failure => rfl
      | ok done => rfl

/-- The walk makes the edits of the documents that were selected at its start. -/
theorem walk_eq (many : Bool) {entries : List (String × Json)}
    (hstored : ∀ entry ∈ entries, docs[entry.1]? = some entry.2)
    (hnodup : (entries.map Prod.fst).Nodup) :
    walk many filter changes docs (entries.map Prod.fst)
      = counted changes docs
        (limited many (entries.filter fun entry => filter.selects entry.2)) := by
  induction entries generalizing docs with
  | nil => cases many <;> rfl
  | cons entry rest ih =>
      obtain ⟨hentry, hrest⟩ := List.forall_mem_cons.mp hstored
      obtain ⟨hnew, hothers⟩ := List.nodup_cons.mp hnodup
      simp only [List.map_cons, walk, hentry]
      by_cases hselects : filter.selects entry.2 = true
      · -- It is edited, and the documents that come later are as they were.
        have hlater : ∀ other ∈ rest, (docs.insert entry.1 (changes.edit entry.2).1)[other.1]?
            = some other.2 := by
          intro other hother
          have hne : entry.1 ≠ other.1 := fun hsame =>
            hnew (hsame ▸ List.mem_map_of_mem hother)
          rw [getElem?_insert_eq, if_neg hne]
          exact hrest other hother
        have hwalk := ih hlater hothers
        rw [if_pos hselects,
          List.filter_cons_of_pos (p := fun e : String × Json => filter.selects e.2) hselects,
          limited_cons, counted_cons]
        cases (changes.edit entry.2).2 with
        | error failure => rfl
        | ok done =>
            cases many with
            | true => simp only [if_true, hwalk]
            | false => rfl
      · rw [if_neg hselects,
          List.filter_cons_of_neg (p := fun e : String × Json => filter.selects e.2) hselects]
        exact ih hrest hothers

/-- Going through the keys of the collection, it is the update. -/
theorem apply_updating (collection : String) (many : Bool) (docs : Documents) (filter : Filter)
    (changes : Update) :
    ∃ after result,
      docs.apply collection (updating many filter changes) = (after, result.map fun () =>
        { affected := (limited many (docs.matching filter)).length
          wrote := !(limited many (docs.matching filter)).isEmpty }) ∧
      walk many filter changes docs docs.keys
        = (after, result.map fun () => (limited many (docs.matching filter)).length) ∧
      Edits changes (limited many (docs.matching filter)) docs after result := by
  have hsub : (limited many (docs.matching filter)).Sublist docs.toList :=
    (limited_sublist many _).trans List.filter_sublist
  have hstored : ∀ entry ∈ docs.toList, docs[entry.1]? = some entry.2 := fun entry hentry =>
    Std.ExtTreeMap.mem_toList_iff_getElem?_eq_some.mp hentry
  refine ⟨(editAll changes docs (limited many (docs.matching filter))).1,
    (editAll changes docs (limited many (docs.matching filter))).2,
    apply_updating_eq collection many docs filter changes, ?_, ?_⟩
  · rw [← Std.ExtTreeMap.map_fst_toList_eq_keys]
    exact walk_eq many hstored docs.nodup_keys
  · exact edits_editAll (fun entry hentry => hstored entry (hsub.subset hentry))
      ((hsub.map Prod.fst).nodup docs.nodup_keys)

/-! ### All commands -/

/-- What the filter selects is a list of the stored documents that meet it, in the
order of the keys, and all commands go by it. A query finds its rows, a count its
length, and a query for one its first row. A deletion takes these documents out, and
no others, so that nothing is selected afterwards. An update that succeeds has edited
as many of them as it should, the first or all. No update, be it one that fails, changes
another document or the keys, and deciding anew at every document would not change
what it does. -/
theorem commands_agree (collection : String) (docs : Documents) (filter : Filter) :
    ∃ chosen : List (String × Json),
      (∀ key doc, (key, doc) ∈ chosen ↔ docs[key]? = some doc ∧ filter.selects doc = true) ∧
      (chosen.Pairwise fun a b => compare a.1 b.1 = .lt) ∧
      docs.apply collection (.find filter) = (docs, .ok
        { affected := chosen.length, rows := chosen.map fun entry => entry.2.toRow }) ∧
      docs.apply collection (.count filter) = (docs, .ok
        { affected := 1, rows := [.ofPairs [("count", .int chosen.length)]] }) ∧
      docs.apply collection (.findOne filter) = (docs, .ok
        { affected := min 1 chosen.length
          rows := (chosen.map fun entry => entry.2.toRow).head?.toList }) ∧
      (∃ left : Documents,
        docs.apply collection (.deleteMany filter) = (left, .ok
          { affected := chosen.length, wrote := 0 < chosen.length }) ∧
        (∀ key doc, left[key]? = some doc ↔ docs[key]? = some doc ∧ (key, doc) ∉ chosen) ∧
        left.apply collection (.count filter) = (left, .ok
          { affected := 1, rows := [.ofPairs [("count", .int 0)]] })) ∧
      ∀ changes : Update,
        (∃ after result,
          docs.apply collection (.updateMany filter changes) = (after, result.map fun () =>
            { affected := chosen.length, wrote := 0 < chosen.length }) ∧
          walk true filter changes docs docs.keys
            = (after, result.map fun () => chosen.length) ∧
          Edits changes chosen docs after result) ∧
        ∃ after result,
          docs.apply collection (.updateOne filter changes) = (after, result.map fun () =>
            { affected := min 1 chosen.length, wrote := 0 < chosen.length }) ∧
          walk false filter changes docs docs.keys
            = (after, result.map fun () => min 1 chosen.length) ∧
          Edits changes chosen.head?.toList docs after result := by
  refine ⟨docs.matching filter, fun key doc => mem_matching_iff, matching_ordered docs filter,
    ?_, ?_, ?_, ⟨docs.without filter, apply_deleteMany collection docs filter,
      fun key doc => getElem?_without_iff, ?_⟩, fun changes => ⟨?_, ?_⟩⟩
  · simp only [apply, read, rows, List.length_map]
  · rfl
  · simp only [apply, read, rows]
    cases docs.matching filter <;> rfl
  · simp only [apply, read, rows, matching_without]
    rfl
  · -- All that are chosen are updated.
    have hupdate := apply_updating collection true docs filter changes
    have hwrote : (!(docs.matching filter).isEmpty)
        = decide (0 < (docs.matching filter).length) := by
      cases docs.matching filter <;> simp
    simpa only [limited, updating, if_true, hwrote] using hupdate
  · -- The first that is chosen is updated, if there is one.
    have hupdate := apply_updating collection false docs filter changes
    have htake : (docs.matching filter).take 1 = (docs.matching filter).head?.toList := by
      cases docs.matching filter <;> rfl
    have hlength : ((docs.matching filter).head?.toList).length
        = min 1 (docs.matching filter).length := by
      cases docs.matching filter <;> simp
    have hwrote : (!(docs.matching filter).head?.toList.isEmpty)
        = decide (0 < (docs.matching filter).length) := by
      cases docs.matching filter <;> simp
    simpa only [limited, updating, Bool.false_eq_true, if_false, htake, hlength, hwrote]
      using hupdate

end StoreBench.Documents
