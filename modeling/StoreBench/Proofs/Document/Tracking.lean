import StoreBench.Proofs.Document.Serial
import StoreBench.Proofs.Document.Versions

/-!
# `StoreBench.Proofs.Document.Tracking`: what an open transaction stands for

`Transaction.Tracks s tx deeds` ties a transaction, open at the store `s`, to
the deeds that its client has done in it so far. It is the one invariant of
the optimistic protocol:

* `tracks_nil`: a new transaction has done nothing;
* `Tracks.apply`: a successful action adds its deed;
* `Tracks.since`: whatever others do to the store, the transaction goes on
  standing for the same deeds;
* `Tracks.commit`: a transaction that can be committed changes the contents
  of the store exactly as a serial run of its deeds does, and that run shows
  what its client saw.

A transaction looks at different collections at different moments, so there
need not be any one state of the store that it saw. What `TracksFrom` keeps
is weaker, and enough: *if* every private copy is still what the store holds,
*then* the deeds explain the step from the store's contents to those of the
copies (`Leads`, one collection at a time). Blind inserts are part of the
same statement, as they make no assumption on what they will meet.
-/

set_option autoImplicit false

namespace StoreBench.Transaction

variable {s t : Store} {tx : Transaction} {name other : String} {deeds : List Deed}

/-! ### Putting things in place -/

/-- `put` changes what is held under its name only. -/
theorem lookup_put (tx : Transaction) (name other : String) (touched : Touched) :
    (tx.put name touched).lookup other
      = if name = other then some touched else tx.lookup other := by
  induction tx with
  | nil =>
      rw [put, List.lookup_cons, List.lookup_nil]
      by_cases h : name = other
      · simp [h]
      · simp [h, beq_eq_false_iff_ne.mpr (Ne.symm h)]
  | cons entry rest ih =>
      obtain ⟨first, held⟩ := entry
      rw [put]
      split
      · rename_i hfirst
        subst hfirst
        simp only [List.lookup_cons]
        by_cases h : first = other
        · simp [h]
        · simp [h, beq_eq_false_iff_ne.mpr (Ne.symm h)]
      · rename_i hfirst
        simp only [List.lookup_cons, ih]
        by_cases h : other = first
        · simp [h, Ne.symm hfirst]
        · simp [beq_eq_false_iff_ne.mpr h]

/-- Under a name that does not occur nothing is found. -/
theorem lookup_of_not_mem {α : Type} {entries : List (String × α)}
    (h : name ∉ entries.map Prod.fst) : entries.lookup name = none := by
  rw [List.lookup_eq_none_iff]
  intro entry hentry
  have hne : name ≠ entry.1 := fun he => h (List.mem_map.mpr ⟨entry, hentry, he.symm⟩)
  simpa using hne

/-- A name under which nothing is found does not occur. -/
theorem not_mem_of_lookup {α : Type} {entries : List (String × α)}
    (h : entries.lookup name = none) : name ∉ entries.map Prod.fst := by
  rw [List.lookup_eq_none_iff] at h
  intro hmem
  obtain ⟨entry, hentry, rfl⟩ := List.mem_map.mp hmem
  simpa using h entry hentry

/-- The names after a `put`: a new one comes last. -/
theorem map_fst_put (tx : Transaction) (name : String) (touched : Touched) :
    (tx.put name touched).map Prod.fst
      = if name ∈ tx.map Prod.fst then tx.map Prod.fst else tx.map Prod.fst ++ [name] := by
  induction tx with
  | nil => rfl
  | cons entry rest ih =>
      obtain ⟨first, held⟩ := entry
      rw [put]
      split
      · rename_i hfirst
        simp [hfirst]
      · rename_i hfirst
        rw [List.map_cons, ih]
        simp only [List.map_cons, List.mem_cons, Ne.symm hfirst, false_or]
        split <;> simp

/-- A collection is never held twice. -/
theorem nodup_put (h : (tx.map Prod.fst).Nodup) (name : String) (touched : Touched) :
    ((tx.put name touched).map Prod.fst).Nodup := by
  rw [map_fst_put]
  split
  · exact h
  · -- A new name comes last, and was not there before.
    rename_i hname
    refine List.nodup_append.mpr ⟨h, by simp, ?_⟩
    rintro a ha b hb rfl
    exact hname (by simpa [List.mem_singleton.mp hb] using ha)

/-! ### The invariant -/

/-- How what is held of a collection leads from its documents before the
commit to those after it. A private copy that was taken of `base` does so
only from `base`. -/
def Leads (name : String) (base : Documents) : Option Touched → Documents → Documents → Prop
  | none, before, after => after = before
  | some (.blind inserts), before, after => before.insertAll name inserts = .ok after
  | some (.copied working _), before, after => before = base ∧ after = working.docs

/-- A private copy that was taken of `base`: as long as the version of the
collection is the one of the copy, the store still holds `base`. -/
structure Taken (s : Store) (name : String) (base : Documents) (working : Collection)
    (dirty : Bool) : Prop where
  version_le : working.version ≤ s.clock
  base_of_zero : working.version = 0 → base = ∅
  base_of_version : s.version name = working.version → s.docs name = base
  clean : dirty = false → working.docs = base

/-- The transaction stands for the deeds, where each private copy was taken
of what `base` says. -/
structure TracksFrom (base : Contents) (s : Store) (tx : Transaction) (deeds : List Deed) :
    Prop where
  nodup : (tx.map Prod.fst).Nodup
  taken : ∀ name working dirty, tx.lookup name = some (.copied working dirty) →
    Taken s name (base name) working dirty
  explains : ∀ before after : Contents,
    (∀ name, Leads name (base name) (tx.lookup name) (before name) (after name)) →
    before.Explains deeds ∧ before.run deeds = after

/-- The transaction, open at the store, stands for the deeds. -/
def Tracks (s : Store) (tx : Transaction) (deeds : List Deed) : Prop :=
  ∃ base, TracksFrom base s tx deeds

/-- A new transaction has done nothing. -/
theorem tracks_nil (s : Store) : Tracks s [] [] := by
  refine ⟨Contents.empty, ⟨List.nodup_nil, ?_, ?_⟩⟩
  · intro name working dirty h
    cases h
  · intro before after h
    exact ⟨trivial, (funext h).symm⟩

/-! ### Others change the store -/

/-- A private copy stays one of `base`, by what versions tell. -/
theorem Taken.since {base : Documents} {working : Collection} {dirty : Bool}
    (h : Taken s name base working dirty) (hst : s.Since t) :
    Taken t name base working dirty where
  version_le := Nat.le_trans h.version_le hst.clock_le
  base_of_zero := h.base_of_zero
  base_of_version hv := hst.docs_eq h.version_le h.base_of_zero h.base_of_version hv
  clean := h.clean

/-- A transaction stands for the same deeds at every later state of the
store. -/
theorem Tracks.since (h : Tracks s tx deeds) (hst : s.Since t) : Tracks t tx deeds := by
  obtain ⟨base, h⟩ := h
  exact ⟨base, h.nodup, fun name working dirty hl => (h.taken name working dirty hl).since hst,
    h.explains⟩

/-! ### One action -/

/-- What is put in the place of one collection leaves the other private copies
with the bases that they have. -/
theorem TracksFrom.taken_put {base : Contents} (h : TracksFrom base s tx deeds)
    {touched : Touched} {newBase : Documents}
    (htaken : ∀ working dirty, touched = .copied working dirty →
      Taken s name newBase working dirty)
    {other : String} {working : Collection} {dirty : Bool}
    (hl : (tx.put name touched).lookup other = some (.copied working dirty)) :
    Taken s other (base.set name newBase other) working dirty := by
  rw [lookup_put] at hl
  by_cases hother : name = other
  · subst hother
    rw [Contents.set_self]
    rw [if_pos rfl] at hl
    exact htaken working dirty (Option.some.inj hl)
  · rw [if_neg hother] at hl
    rw [Contents.set_of_ne hother]
    exact h.taken other working dirty hl

/-- Where the collection held `mid` before something was put in its place, and
the others lead to what they hold at the end, the deeds so far lead there. -/
theorem TracksFrom.explains_put {base : Contents} (h : TracksFrom base s tx deeds)
    {touched : Touched} {newBase mid : Documents} {before after : Contents}
    (hall : ∀ other, Leads other (base.set name newBase other)
      ((tx.put name touched).lookup other) (before other) (after other))
    (hmid : Leads name (base name) (tx.lookup name) (before name) mid) :
    before.Explains deeds ∧ before.run deeds = after.set name mid := by
  refine h.explains before (after.set name mid) ?_
  intro other
  by_cases hother : name = other
  · subst hother
    rwa [Contents.set_self]
  · have hthere := hall other
    rw [lookup_put, if_neg hother, Contents.set_of_ne hother] at hthere
    rwa [Contents.set_of_ne hother]

/-- The step of the invariant, for whatever is put in the place of one
collection. What has to be shown is about that collection alone: a base for
a private copy, and that the new deed leads from what was held to what is
held now. -/
theorem TracksFrom.put {base : Contents} (h : TracksFrom base s tx deeds) {touched : Touched}
    {deed : Deed} (newBase : Documents) (hname : deed.command.collection = name)
    (htaken : ∀ working dirty, touched = .copied working dirty →
      Taken s name newBase working dirty)
    (hleads : ∀ before after, Leads name newBase (some touched) before after →
      ∃ mid outcome, Leads name (base name) (tx.lookup name) before mid ∧
        mid.apply name deed.command.action = (after, .ok outcome) ∧ deed.seen.Shows outcome) :
    TracksFrom (base.set name newBase) s (tx.put name touched) (deeds ++ [deed]) where
  nodup := nodup_put h.nodup name touched
  taken _ _ _ hl := h.taken_put htaken hl
  explains before after hall := by
    have hhere := hall name
    rw [lookup_put, if_pos rfl, Contents.set_self] at hhere
    obtain ⟨mid, outcome, hmid, happly, hseen⟩ := hleads _ _ hhere
    -- Before the last deed, the collection holds `mid`; the others are as at the end.
    have hbefore := h.explains_put hall hmid
    have hperform : (after.set name mid).perform deed.command = (after, .ok outcome) := by
      simp only [Contents.perform, hname, Contents.set_self, happly, Contents.set_set]
      rw [Contents.set_eq_self rfl]
    refine ⟨(Contents.explains_append _ _ _).mpr ⟨hbefore.1, ?_⟩, ?_⟩
    · rw [hbefore.2]
      exact ⟨⟨outcome, by rw [hperform], hseen⟩, trivial⟩
    · rw [Contents.run_append, hbefore.2, Contents.run, Contents.run, hperform]

/-- What is held of one collection may be replaced by what leads to no other
documents than it did, with no new deed. -/
theorem TracksFrom.replace {base : Contents} (h : TracksFrom base s tx deeds) {touched : Touched}
    (newBase : Documents)
    (htaken : ∀ working dirty, touched = .copied working dirty →
      Taken s name newBase working dirty)
    (hleads : ∀ before after, Leads name newBase (some touched) before after →
      Leads name (base name) (tx.lookup name) before after) :
    TracksFrom (base.set name newBase) s (tx.put name touched) deeds where
  nodup := nodup_put h.nodup name touched
  taken _ _ _ hl := h.taken_put htaken hl
  explains before after hall := by
    have hhere := hall name
    rw [lookup_put, if_pos rfl, Contents.set_self] at hhere
    have hbefore := h.explains_put hall (hleads _ _ hhere)
    rwa [Contents.set_eq_self rfl] at hbefore

/-- The private copy that a look gives, and what it was taken of. -/
theorem look_ok {base : Contents} (h : TracksFrom base s tx deeds) (hs : s.Sound)
    {working : Collection} {dirty : Bool}
    (hlook : look s name (tx.lookup name) = .ok (working, dirty)) :
    ∃ newBase, Taken s name newBase working dirty ∧
      Leads name (base name) (tx.lookup name) newBase working.docs := by
  cases hheld : tx.lookup name with
  | none =>
      -- The copy is taken now.
      simp only [hheld, look, Except.ok.injEq, Prod.mk.injEq] at hlook
      obtain ⟨rfl, rfl⟩ := hlook
      exact ⟨s.docs name, ⟨hs.version_le name, hs.docs_of_zero name, fun _ => rfl, fun _ => rfl⟩,
        rfl⟩
  | some touched =>
      cases touched with
      | copied held heldDirty =>
          simp only [hheld, look, Except.ok.injEq, Prod.mk.injEq] at hlook
          obtain ⟨rfl, rfl⟩ := hlook
          exact ⟨base name, h.taken name _ _ hheld, rfl, rfl⟩
      | blind inserts =>
          -- It is taken now as well, and what was inserted blindly is folded into it.
          simp only [hheld, look, bind, Except.bind] at hlook
          split at hlook
          · cases hlook
          · rename_i docs hdocs
            simp only [Except.ok.injEq, Prod.mk.injEq] at hlook
            obtain ⟨rfl, rfl⟩ := hlook
            exact ⟨s.docs name, ⟨hs.version_le name, hs.docs_of_zero name, fun _ => rfl, nofun⟩,
              hdocs⟩

/-- An action on the private copy adds its deed. -/
theorem Tracks.applyToCopy (h : Tracks s tx deeds) (hs : s.Sound) {command : Command}
    {after : Transaction} {outcome : Outcome} {seen : Seen}
    (happly : tx.applyToCopy s command = (after, .ok outcome)) (hseen : seen.Shows outcome) :
    Tracks s after (deeds ++ [⟨command, seen⟩]) := by
  obtain ⟨base, h⟩ := h
  simp only [Transaction.applyToCopy] at happly
  split at happly
  · cases happly
  · rename_i working dirty hlook
    obtain ⟨newBase, htaken, hlead⟩ := look_ok h hs hlook
    rcases hdone : working.docs.apply command.collection command.action with ⟨docs, result⟩
    simp only [hdone, Prod.mk.injEq] at happly
    obtain ⟨rfl, rfl⟩ := happly
    refine ⟨_, h.put newBase rfl ?_ ?_⟩
    · -- The copy keeps its version, and is clean only if nothing was written to it at all.
      rintro _ _ ⟨⟩
      refine ⟨htaken.version_le, htaken.base_of_zero, htaken.base_of_version, ?_⟩
      intro hclean
      obtain ⟨hd, hw⟩ := Bool.or_eq_false_iff.mp hclean
      exact (Documents.apply_of_not_wrote hdone hw).trans (htaken.clean hd)
    · rintro before final ⟨rfl, rfl⟩
      exact ⟨working.docs, outcome, hlead, hdone, hseen⟩

/-- A blind insert adds its deed, which will be as it was seen whatever
collection it meets, provided that the batch can be inserted at all. -/
theorem Tracks.blindInsert (h : Tracks s tx deeds) {doc : Json} (inserts : List Json)
    (hheld : tx.lookup name = none ∧ inserts = [] ∨ tx.lookup name = some (.blind inserts))
    {seen : Seen} (hseen : seen.Shows { affected := 1, wrote := true }) :
    Tracks s (tx.put name (.blind (inserts ++ [doc])))
      (deeds ++ [⟨⟨name, .insertOne doc⟩, seen⟩]) := by
  obtain ⟨base, h⟩ := h
  refine ⟨_, h.put (base name) rfl nofun ?_⟩
  intro before final hlead
  simp only [Leads, Documents.insertAll_append] at hlead
  cases hmid : before.insertAll name inserts with
  | error e =>
      rw [hmid] at hlead
      cases hlead
  | ok mid =>
      -- Before the new document, the batch so far led to `mid`.
      rw [hmid] at hlead
      refine ⟨mid, _, ?_, Documents.apply_insertOne hlead, hseen⟩
      rcases hheld with ⟨hnone, rfl⟩ | hblind
      · cases hmid
        rw [hnone]
        rfl
      · rw [hblind]
        exact hmid

/-- A successful action adds its deed, whatever its client looks at of the
outcome. -/
theorem Tracks.apply (h : Tracks s tx deeds) (hs : s.Sound) {command : Command}
    {after : Transaction} {outcome : Outcome} {seen : Seen}
    (happly : tx.apply s command = (after, .ok outcome)) (hseen : seen.Shows outcome) :
    Tracks s after (deeds ++ [⟨command, seen⟩]) := by
  obtain ⟨name, action⟩ := command
  simp only [Transaction.apply] at happly
  split at happly
  · rename_i doc hnone
    cases happly
    exact h.blindInsert [] (.inl ⟨hnone, rfl⟩) hseen
  · rename_i doc inserts hblind
    cases happly
    exact h.blindInsert inserts (.inr hblind) hseen
  · exact h.applyToCopy hs happly hseen

/-! ### The commit -/

/-- A collection that can be staged leads from the documents in the store to
the ones staged, or stays as it is. -/
theorem leads_of_stage {base : Documents} {touched : Touched} {staged : Option Documents}
    (htaken : ∀ working dirty, touched = .copied working dirty → Taken s name base working dirty)
    (hstage : stage s name touched = .ok staged) :
    Leads name base (some touched) (s.docs name) (staged.getD (s.docs name)) := by
  cases touched with
  | copied working dirty =>
      have hcopy := htaken working dirty rfl
      simp only [stage] at hstage
      split at hstage
      · cases hstage
      · rename_i hversion
        have hbase := hcopy.base_of_version (Decidable.not_not.mp hversion)
        cases hstage
        refine ⟨hbase, ?_⟩
        -- A clean copy is not staged, but it is what the store holds anyway.
        cases dirty with
        | true => rfl
        | false => exact hbase.trans (hcopy.clean rfl).symm
  | blind inserts =>
      cases inserts with
      | nil =>
          cases hstage
          rfl
      | cons doc rest =>
          simp only [stage, bind, Except.bind] at hstage
          split at hstage
          · cases hstage
          · rename_i docs hdocs
            cases hstage
            exact hdocs

/-- Staging goes through the touched collections one by one: what is staged
comes in their order, each under its own name. -/
theorem stageAll_ok {staged : List (String × Documents)} (hnodup : (tx.map Prod.fst).Nodup)
    (hall : tx.stageAll s = .ok staged) :
    (staged.map Prod.fst).Sublist (tx.map Prod.fst) ∧
    ∀ name touched, tx.lookup name = some touched →
      stage s name touched = .ok (staged.lookup name) := by
  induction tx generalizing staged with
  | nil =>
      cases hall
      exact ⟨.slnil, nofun⟩
  | cons entry rest ih =>
      obtain ⟨first, held⟩ := entry
      simp only [stageAll, bind, Except.bind] at hall
      split at hall
      · cases hall
      rename_i one hone
      split at hall
      · cases hall
      rename_i others hothers
      obtain ⟨hfirst, hrest⟩ := List.nodup_cons.mp hnodup
      obtain ⟨hsub, hlookup⟩ := ih hrest hothers
      -- No later collection has the name of the first.
      have hnone : others.lookup first = none :=
        lookup_of_not_mem fun hmem => hfirst (hsub.subset hmem)
      cases one with
      | none =>
          cases hall
          refine ⟨.cons _ hsub, ?_⟩
          intro name touched hl
          by_cases hname : name = first
          · subst hname
            simp only [List.lookup_cons_self, Option.some.injEq] at hl
            rw [← hl, hnone, hone]
          · rw [List.lookup_cons, beq_eq_false_iff_ne.mpr hname] at hl
            exact hlookup name touched hl
      | some docs =>
          cases hall
          refine ⟨.cons_cons _ hsub, ?_⟩
          intro name touched hl
          by_cases hname : name = first
          · subst hname
            simp only [List.lookup_cons_self, Option.some.injEq] at hl
            rw [← hl, List.lookup_cons_self, hone]
          · rw [List.lookup_cons, beq_eq_false_iff_ne.mpr hname] at hl ⊢
            exact hlookup name touched hl

/-- The documents after a list of collections with different names is
installed. -/
theorem docs_installAll {staged : List (String × Documents)}
    (hnodup : (staged.map Prod.fst).Nodup) (s : Store) (name : String) :
    (staged.foldl (fun s entry => s.install entry.1 entry.2) s).docs name
      = (staged.lookup name).getD (s.docs name) := by
  induction staged generalizing s with
  | nil => rfl
  | cons entry rest ih =>
      obtain ⟨first, docs⟩ := entry
      obtain ⟨hfirst, hrest⟩ := List.nodup_cons.mp hnodup
      rw [List.foldl_cons, ih hrest, Store.docs_install]
      by_cases hname : name = first
      · subst hname
        rw [lookup_of_not_mem hfirst, List.lookup_cons_self, if_pos rfl]
        rfl
      · rw [List.lookup_cons, beq_eq_false_iff_ne.mpr hname, if_neg (Ne.symm hname)]

/-- Installing several collections is installing them one after the other. -/
theorem becomes_installAll (staged : List (String × Documents)) (s : Store) :
    s.Becomes (staged.foldl (fun s entry => s.install entry.1 entry.2) s) := by
  induction staged generalizing s with
  | nil => exact .same
  | cons entry rest ih => exact (Store.Becomes.same.install entry.1 entry.2).trans (ih _)

/-- A commit stages everything and then installs what was staged. -/
theorem commit_ok (hcommit : tx.commit s = .ok t) :
    ∃ staged, tx.stageAll s = .ok staged ∧
      t = staged.foldl (fun s entry => s.install entry.1 entry.2) s := by
  simp only [commit, bind, Except.bind] at hcommit
  split at hcommit
  · cases hcommit
  · rename_i staged hstaged
    cases hcommit
    exact ⟨staged, hstaged, rfl⟩

/-- A commit installs one collection after the other, whatever their order. -/
theorem becomes_commit (hcommit : tx.commit s = .ok t) : s.Becomes t := by
  obtain ⟨staged, -, rfl⟩ := commit_ok hcommit
  exact becomes_installAll staged s

/-- The documents of a collection after a commit: those that there were, if it was
not touched, or else what was staged of it. -/
theorem docs_commit (hnodup : (tx.map Prod.fst).Nodup) (hcommit : tx.commit s = .ok t)
    (name : String) :
    (tx.lookup name = none ∧ t.docs name = s.docs name) ∨
    ∃ touched staged, tx.lookup name = some touched ∧ stage s name touched = .ok staged ∧
      t.docs name = staged.getD (s.docs name) := by
  obtain ⟨staged, hall, rfl⟩ := commit_ok hcommit
  obtain ⟨hsub, hstage⟩ := stageAll_ok hnodup hall
  rw [docs_installAll (hsub.nodup hnodup)]
  cases hheld : tx.lookup name with
  | some touched => exact .inr ⟨touched, _, rfl, hstage name touched hheld, rfl⟩
  | none =>
      -- What was not touched was not staged.
      have hnone : staged.lookup name = none :=
        lookup_of_not_mem fun hmem => not_mem_of_lookup hheld (hsub.subset hmem)
      rw [hnone]
      exact .inl ⟨rfl, rfl⟩

/-- A transaction that commits has the effect of a serial run of its deeds on
what the store holds at that moment, and the run shows what its client
saw. -/
theorem Tracks.commit (h : Tracks s tx deeds) (hcommit : tx.commit s = .ok t) :
    Contents.Explains s.docs deeds ∧ Contents.run s.docs deeds = t.docs := by
  obtain ⟨base, h⟩ := h
  refine h.explains s.docs _ ?_
  intro name
  rcases docs_commit h.nodup hcommit name with ⟨hheld, hdocs⟩ |
    ⟨touched, staged, hheld, hstage, hdocs⟩
  · rw [hheld, hdocs]
    rfl
  · rw [hheld, hdocs]
    exact leads_of_stage (fun working dirty he => h.taken name working dirty (he ▸ hheld)) hstage

end StoreBench.Transaction
