import StoreBench.Document.Collection

/-!
# `StoreBench.Document.Store`: versioned collections

A store keeps collections by name and a clock that ticks with every
installed collection. The tick becomes the collection's version, so that
two versions of one collection are equal only when nothing was installed
between them. Clearing the store leaves the clock alone.
-/

set_option autoImplicit false

namespace StoreBench

/-- Collections by their names, with the clock that their versions are taken from. -/
structure Store where
  collections : Std.ExtTreeMap String Collection := ∅
  clock : Nat := 0

instance : Inhabited Store := ⟨{}⟩

namespace Store

/-- The collection of a name, empty if there is none. -/
def collection (s : Store) (name : String) : Collection := (s.collections[name]?).getD {}

/-- The documents of a collection. One that is not there has none. -/
def docs (s : Store) (name : String) : Documents := (s.collection name).docs

/-- The version of a collection, which is zero before anything was installed. -/
def version (s : Store) (name : String) : Nat := (s.collection name).version

/-- Installs new documents of a collection under a fresh version. -/
def install (s : Store) (name : String) (docs : Documents) : Store :=
  let clock := s.clock + 1
  { collections := s.collections.insert name { docs := docs, version := clock }, clock := clock }

/-- Forgets every collection. -/
def clear (s : Store) : Store := { s with collections := ∅ }

/-- Makes one action by itself: what it wrote is installed if it succeeds,
and nothing changes if it fails. -/
def perform (s : Store) (command : Command) : Store × Attempted Outcome :=
  let (docs, result) := (s.docs command.collection).apply command.collection command.action
  match result with
  | .ok outcome => (if outcome.wrote then s.install command.collection docs else s, .ok outcome)
  | .error failure => (s, .error failure)

end Store

end StoreBench
