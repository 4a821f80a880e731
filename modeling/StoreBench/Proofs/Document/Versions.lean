import StoreBench.Document.Store

/-!
# `StoreBench.Proofs.Document.Versions`: what a version tells

Optimistic transactions compare versions in place of documents. Two facts
make this enough. `Store.Sound` holds of every store that began empty: no
version is ahead of the clock, and version zero stands for no documents,
whether the collection was never there or was cleared away. `Store.Since`
relates a store to a later state of itself: a collection is as it was, or
was installed under a version that the earlier clock had not reached, or
was cleared away.

`Since.docs_eq` puts the two together: a copy that was taken at a version
which is current again holds the current documents.

All that is done to a store is to install collections and to clear it.
`Store.Becomes` says so of two stores, and what holds of both ways to
change a store holds of all that it becomes (`Becomes.since`,
`Becomes.sound`).
-/

set_option autoImplicit false

namespace StoreBench.Store

variable {s t u : Store} {name : String}

/-! ### Looking a collection up -/

/-- Installing a collection changes the documents under its name only, so a commit of
several collections can be looked at one by one. -/
theorem docs_install (s : Store) (name other : String) (docs : Documents) :
    (s.install name docs).docs other = if name = other then docs else s.docs other := by
  simp only [install, Store.docs, collection, Std.ExtTreeMap.getElem?_insert,
    Std.compare_eq_iff_eq]
  split <;> rfl

/-- An installed collection has the next tick of the clock as its version, and no other
version changes. -/
theorem version_install (s : Store) (name other : String) (docs : Documents) :
    (s.install name docs).version other
      = if name = other then s.clock + 1 else s.version other := by
  simp only [install, Store.version, collection, Std.ExtTreeMap.getElem?_insert,
    Std.compare_eq_iff_eq]
  split <;> rfl

/-- The clock ticks with each collection that is installed, so two of them never have
the same version. -/
@[simp] theorem clock_install (s : Store) (name : String) (docs : Documents) :
    (s.install name docs).clock = s.clock + 1 := rfl

/-- A store that is cleared has no documents anywhere. -/
@[simp] theorem docs_clear (s : Store) (name : String) : s.clear.docs name = ∅ := by
  simp [clear, Store.docs, collection]

/-- A store that is cleared has no versions: they start again at zero, while the clock
goes on. -/
@[simp] theorem version_clear (s : Store) (name : String) : s.clear.version name = 0 := by
  simp [clear, Store.version, collection]

/-- A new store has no documents. -/
@[simp] theorem docs_empty (name : String) : ({} : Store).docs name = ∅ := by
  simp [Store.docs, collection]

/-- All versions of a new store are zero, which stands for a collection that is not
there. -/
@[simp] theorem version_empty (name : String) : ({} : Store).version name = 0 := by
  simp [Store.version, collection]

/-! ### Sound stores -/

/-- Versions are ticks of the clock that have passed, and version zero
means that there are no documents. -/
structure Sound (s : Store) : Prop where
  version_le : ∀ name, s.version name ≤ s.clock
  docs_of_zero : ∀ name, s.version name = 0 → s.docs name = ∅

/-- A new store has only collections of version zero, and these have no documents. -/
theorem sound_empty : Sound {} where
  version_le name := by simp
  docs_of_zero name _ := docs_empty name

/-- An installed collection gets the tick that the clock is then at, so its version is
not ahead of the clock. -/
theorem Sound.install (h : Sound s) (name : String) (docs : Documents) :
    Sound (s.install name docs) where
  version_le other := by
    have hle := h.version_le other
    rw [version_install, clock_install]
    split <;> omega
  docs_of_zero other hzero := by
    rw [version_install] at hzero
    rw [docs_install]
    split at hzero
    · -- The tick that was given is not zero.
      omega
    · rename_i hne
      rw [if_neg hne]
      exact h.docs_of_zero other hzero

/-- Clearing takes every collection back to version zero and away with its documents, so
it needs no assumption on the store before. -/
theorem Sound.clear (s : Store) : Sound s.clear where
  version_le name := by simp
  docs_of_zero name _ := docs_clear s name

/-! ### Later states -/

/-- The store `t` is a later state of `s`: the clock has not gone back, and
each collection is as it was, was installed since, or is cleared away. -/
structure Since (s t : Store) : Prop where
  clock_le : s.clock ≤ t.clock
  collection : ∀ name,
    (t.version name = s.version name ∧ t.docs name = s.docs name) ∨
    s.clock < t.version name ∨
    (t.version name = 0 ∧ t.docs name = ∅)

/-- A store is a later state of itself, with every collection as it was. -/
theorem Since.refl (s : Store) : Since s s := ⟨Nat.le_refl _, fun _ => .inl ⟨rfl, rfl⟩⟩

/-- Later states of later states are later. A collection that was installed on the way
has a version beyond the earlier clock, whatever became of it afterwards. -/
theorem Since.trans (hst : Since s t) (htu : Since t u) : Since s u where
  clock_le := Nat.le_trans hst.clock_le htu.clock_le
  collection name := by
    -- What became of the collection last decides; if nothing did, what became of it first.
    rcases htu.collection name with ⟨hv, hd⟩ | hv | hgone
    · rw [hv, hd]
      exact hst.collection name
    · exact .inr (.inl (Nat.lt_of_le_of_lt hst.clock_le hv))
    · exact .inr (.inr hgone)

/-- Installing a collection gives it a version that the earlier clock had not reached. -/
theorem since_install (s : Store) (name : String) (docs : Documents) :
    Since s (s.install name docs) where
  clock_le := Nat.le_succ _
  collection other := by
    rw [version_install, docs_install]
    split
    · exact .inr (.inl (Nat.lt_succ_self _))
    · exact .inl ⟨rfl, rfl⟩

/-- A store that is cleared is a later state of the one before, with every collection
cleared away. -/
theorem since_clear (s : Store) : Since s s.clear where
  clock_le := Nat.le_refl _
  collection name := .inr (.inr ⟨version_clear s name, docs_clear s name⟩)

/-- A version that is current again shows the documents of its time. The
one version that can come back is zero, which a cleared collection shares
with one that was never there; both are empty. -/
theorem Since.docs_eq (hst : Since s t) {version : Nat} {docs : Documents}
    (hle : version ≤ s.clock) (hzero : version = 0 → docs = ∅)
    (hthen : s.version name = version → s.docs name = docs)
    (hnow : t.version name = version) : t.docs name = docs := by
  rcases hst.collection name with ⟨hv, hd⟩ | hv | ⟨hv, hd⟩
  · rw [hd]
    exact hthen (by omega)
  · -- A version that was given since is beyond all that were known then.
    omega
  · rw [hd, hzero (by omega)]

/-! ### What becomes of a store -/

/-- The store `t` has come of `s` by collections that were installed and by clearing, in
any order. Nothing else is ever done to a store. -/
inductive Becomes (s : Store) : Store → Prop
  | same : Becomes s s
  | install {t : Store} (h : Becomes s t) (name : String) (docs : Documents) :
      Becomes s (t.install name docs)
  | clear {t : Store} (h : Becomes s t) : Becomes s t.clear

/-- What a store becomes in two steps it becomes altogether. -/
theorem Becomes.trans (hst : Becomes s t) (htu : Becomes t u) : Becomes s u := by
  induction htu with
  | same => exact hst
  | install h name docs ih => exact ih.install name docs
  | clear h ih => exact ih.clear

/-- What a store becomes is a later state of it, by induction on the collections that
were installed. -/
theorem Becomes.since (h : Becomes s t) : Since s t := by
  induction h with
  | same => exact .refl s
  | install h name docs ih => exact ih.trans (since_install _ name docs)
  | clear h ih => exact ih.trans (since_clear _)

/-- Soundness is kept by all that a store becomes, as it is by installing and by
clearing. -/
theorem Becomes.sound (h : Becomes s t) (hs : Sound s) : Sound t := by
  induction h with
  | same => exact hs
  | install h name docs ih => exact ih.install name docs
  | clear h ih => exact .clear _

/-! ### Single commands -/

/-- What a command by itself leaves: the same store, or the store with one
collection installed. -/
theorem perform_cases (s : Store) (command : Command) :
    (s.perform command).1 = s ∨
    ∃ docs, (s.perform command).1 = s.install command.collection docs := by
  unfold perform
  rcases (s.docs command.collection).apply command.collection command.action with ⟨docs, result⟩
  cases result with
  | error failure => exact .inl rfl
  | ok outcome =>
      by_cases hw : outcome.wrote = true
      · exact .inr ⟨docs, by simp [hw]⟩
      · exact .inl (by simp [hw])

/-- A command by itself installs its collection if it wrote something, and else leaves
the store as it is. -/
theorem becomes_perform (s : Store) (command : Command) : s.Becomes (s.perform command).1 := by
  rcases perform_cases s command with he | ⟨docs, he⟩ <;> rw [he]
  · exact .same
  · exact Becomes.same.install _ docs

end StoreBench.Store
