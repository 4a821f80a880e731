import StoreBench.Proofs.Document.Failure
import StoreBench.Proofs.Document.Turns

/-!
# `StoreBench.Proofs.Document.Stamps`: a version stands for its documents

A commit compares versions in place of documents, so a version must never come back with
other documents. Two facts make sure of it. Every installed collection carries a tick of
the clock that no other one carries (`Store.Stamped`). And whatever a store becomes, a
version that is current again shows the documents of its time (`Store.Becomes.docs_eq`).

Both hold of all that is ever done to a store, which is to install collections and to
clear it (`Store.Becomes`). In what order a commit installs its collections makes no
difference to them. Clearing takes all versions away and leaves the clock as it is, so
that no tick is given a second time. The one version that does come back is zero, of
collections that are not there. A collection that was dropped is still there, without
documents and under a tick of its own.
-/

set_option autoImplicit false

namespace StoreBench

namespace Store

variable {s t : Store} {name other : String}

/-! ### One store -/

/-- Installing a collection adds its name to those that are installed. -/
theorem mem_install {docs : Documents} :
    other ∈ (s.install name docs).collections ↔ name = other ∨ other ∈ s.collections := by
  rw [Store.install, Std.ExtTreeMap.mem_insert, Std.compare_eq_iff_eq]

/-- Every installed collection has a version of its own, a tick that has passed. -/
structure Stamped (s : Store) : Prop where
  sound : s.Sound
  version_pos : ∀ name ∈ s.collections, 0 < s.version name
  version_injective : ∀ first ∈ s.collections, ∀ second ∈ s.collections,
    s.version first = s.version second → first = second

/-- Nothing is installed in a new store. -/
theorem stamped_empty : Stamped {} where
  sound := sound_empty
  version_pos := by simp
  version_injective := by simp

/-- The next tick is later than all versions, so it is a version of its own. -/
theorem Stamped.install (h : Stamped s) (name : String) (docs : Documents) :
    Stamped (s.install name docs) where
  sound := h.sound.install name docs
  version_pos other hother := by
    rw [version_install]
    split
    · omega
    · rename_i hne
      exact h.version_pos other ((mem_install.mp hother).resolve_left hne)
  version_injective first hfirst second hsecond hsame := by
    have hfirst_le := h.sound.version_le first
    have hsecond_le := h.sound.version_le second
    rw [version_install, version_install] at hsame
    by_cases hf : name = first <;> by_cases hs : name = second
    · exact hf.symm.trans hs
    · -- Only one of the two has the new tick.
      rw [if_pos hf, if_neg hs] at hsame
      omega
    · rw [if_neg hf, if_pos hs] at hsame
      omega
    · rw [if_neg hf, if_neg hs] at hsame
      exact h.version_injective first ((mem_install.mp hfirst).resolve_left hf) second
        ((mem_install.mp hsecond).resolve_left hs) hsame

/-- Nothing is installed in a store that was cleared. -/
theorem Stamped.clear (s : Store) : Stamped s.clear where
  sound := .clear s
  version_pos := by simp [Store.clear]
  version_injective := by simp [Store.clear]

/-! ### Two stores -/

/-- Versions stay stamped however the store changes, since each change takes the next
tick. -/
theorem Becomes.stamped (h : s.Becomes t) (hs : s.Stamped) : t.Stamped := by
  induction h with
  | same => exact hs
  | install h name docs ih => exact ih.install name docs
  | clear h ih => exact .clear _

/-- A version that a collection has again stands for the same documents. -/
theorem Becomes.docs_eq (h : s.Becomes t) (hs : s.Sound)
    (hversion : t.version name = s.version name) : t.docs name = s.docs name :=
  h.since.docs_eq (hs.version_le name) (hs.docs_of_zero name) (fun _ => rfl) hversion

end Store

namespace Traffic

/-- What a store becomes by any steps of any clients. -/
theorem becomes_pass (t : Traffic) (steps : List Event) :
    t.server.store.Becomes (t.pass steps).server.store := by
  induction steps generalizing t with
  | nil => exact .same
  | cons e rest ih => exact (becomes_step t e).trans (ih _)

/-- At any two moments of any traffic with a new server, a collection that has the same
version at both has the same documents at both. At any moment, version zero means that
there are no documents, and the installed collections have different versions, each of
them a tick that the clock has reached. The clock never goes back. -/
theorem version_tells_documents (faults : List Fault) (latency : Span)
    (before between : List Event) :
    let s := ((new faults latency).pass before).server.store
    let t := ((new faults latency).pass (before ++ between)).server.store
    (∀ name, t.version name = s.version name → t.docs name = s.docs name) ∧
    (∀ name, t.version name = 0 → t.docs name = ∅) ∧
    (∀ name ∈ t.collections, 0 < t.version name ∧ t.version name ≤ t.clock) ∧
    (∀ first ∈ t.collections, ∀ second ∈ t.collections,
      t.version first = t.version second → first = second) ∧
    s.clock ≤ t.clock := by
  intro s t
  have hthen : Store.Becomes {} s := becomes_pass (new faults latency) before
  have hlater : s.Becomes t := by
    show s.Becomes ((new faults latency).pass (before ++ between)).server.store
    rw [pass_append]
    exact becomes_pass _ between
  have hs : s.Sound := hthen.sound Store.sound_empty
  have ht : t.Stamped := (hthen.trans hlater).stamped Store.stamped_empty
  exact ⟨fun name => hlater.docs_eq hs, ht.sound.docs_of_zero,
    fun name hname => ⟨ht.version_pos name hname, ht.sound.version_le name⟩,
    ht.version_injective, hlater.since.clock_le⟩

/-- A stock, and carts that a transaction fills. -/
def stocked : List Event :=
  [ .connect "memory://",
    .call 0 "a" (.exec (.on "stock" (.insertOne (.obj [])))),
    .call 1 "" .begin,
    .call 1 "b" (.execIn (.on "carts" (.insertOne (.obj [])))),
    .call 1 "" .commit ]

/-- A transaction looks at the stock and adds an order, and the carts are dropped
meanwhile. -/
def dropped : List Event :=
  [ .call 1 "" .begin,
    .call 1 "" (.queryIn (.on "stock" (.find .all))),
    .call 1 "c" (.execIn (.on "orders" (.insertOne (.obj [])))),
    .call 0 "" (.exec (.on "carts" .dropCollection)),
    .call 1 "" .commit ]

/-- A collection that a transaction only looks at, and another that is dropped in the
meantime. -/
theorem version_tells_documents_dropped :
    let s := ((new [] .zero).pass stocked).server.store
    let t := ((new [] .zero).pass (stocked ++ dropped)).server.store
    t.version "stock" = s.version "stock" ∧ t.docs "stock" = s.docs "stock" ∧
    "stock" ∈ t.collections ∧ "carts" ∈ t.collections ∧
    0 < t.version "carts" ∧ t.version "stock" ≠ t.version "carts" := by
  intro s t
  have hsame : t.version "stock" = s.version "stock" := rfl
  have hstock : "stock" ∈ t.collections := rfl
  have hcarts : "carts" ∈ t.collections := rfl
  obtain ⟨htells, -, hticks, hown, -⟩ := version_tells_documents [] .zero stocked dropped
  refine ⟨hsame, htells "stock" hsame, hstock, hcarts, (hticks "carts" hcarts).1, ?_⟩
  intro hversion
  exact absurd (hown "stock" hstock "carts" hcarts hversion) (by decide)

end Traffic

end StoreBench
