import StoreBench.Document.Store

/-!
# `StoreBench.Document.Transaction`: optimistic transactions

A transaction works on private copies. The first action on a collection
that needs to see it takes a copy, whose version `commit` later compares
with the store's: a collection that was changed in between makes the
commit a conflict. Documents inserted before that first look are held back
(`Touched.blind`) and meet the collection only at the commit or at the
look, so that inserting alone never conflicts.

`commit` first stages every touched collection and installs only when all
of them could be staged.
-/

set_option autoImplicit false

namespace StoreBench

/-- What a transaction holds of one collection. -/
inductive Touched
  /-- Documents inserted without a look at the collection. -/
  | blind (inserts : List Json)
  /-- A private copy under the version it was taken at, and whether it was
  written to. -/
  | copied (working : Collection) (dirty : Bool)
deriving Inhabited

/-- The touched collections by name, in the order they were first touched. -/
abbrev Transaction := List (String × Touched)

namespace Transaction

/-- Puts what is held of a collection in its place. -/
def put : Transaction → String → Touched → Transaction
  | [], name, touched => [(name, touched)]
  | (other, held) :: rest, name, touched =>
    if other = name then (name, touched) :: rest else (other, held) :: put rest name touched

/-- The private copy of a collection that what is held of it leads to. The
documents held back so far are inserted into the copy. -/
def look (store : Store) (name : String) : Option Touched → Except BenchError (Collection × Bool)
  | none => .ok (store.collection name, false)
  | some (.copied working dirty) => .ok (working, dirty)
  | some (.blind inserts) => do
    let snapshot := store.collection name
    let docs ← snapshot.docs.insertAll name inserts
    .ok ({ snapshot with docs := docs }, true)

/-- Makes an action on the private copy. Edits made before a failure stay
in the copy. When the copy cannot take the documents held back, they are
lost. -/
def applyToCopy (tx : Transaction) (store : Store) (command : Command) :
    Transaction × Attempted Outcome :=
  let name := command.collection
  match look store name (tx.lookup name) with
  | .error e => (tx.put name (.blind []), .error (.error e))
  | .ok (working, dirty) =>
    let (docs, result) := working.docs.apply name command.action
    let wrote := match result with
      | .ok outcome => outcome.wrote
      | .error _ => false
    (tx.put name (.copied { working with docs := docs } (dirty || wrote)), result)

/-- Makes one action inside a transaction. -/
def apply (tx : Transaction) (store : Store) (command : Command) :
    Transaction × Attempted Outcome :=
  let name := command.collection
  match command.action, tx.lookup name with
  | .insertOne doc, none => (tx.put name (.blind [doc]), .ok { affected := 1, wrote := true })
  | .insertOne doc, some (.blind inserts) =>
    (tx.put name (.blind (inserts ++ [doc])), .ok { affected := 1, wrote := true })
  | _, _ => tx.applyToCopy store command

/-- The new documents that one touched collection commits, if it changed. -/
def stage (store : Store) (name : String) : Touched → Except BenchError (Option Documents)
  | .copied working dirty =>
    if store.version name ≠ working.version then
      .error (.conflict "MEM_CONFLICT" s!"collection `{name}` changed during transaction")
    else .ok (if dirty then some working.docs else none)
  | .blind [] => .ok none
  | .blind inserts => do
    let docs ← (store.docs name).insertAll name inserts
    .ok (some docs)

/-- Stages every touched collection against the same store. -/
def stageAll (store : Store) : Transaction → Except BenchError (List (String × Documents))
  | [] => .ok []
  | (name, touched) :: rest => do
    let staged ← stage store name touched
    let others ← stageAll store rest
    .ok (match staged with
      | some docs => (name, docs) :: others
      | none => others)

/-- The store after a transaction, or why it cannot be committed. -/
def commit (tx : Transaction) (store : Store) : Except BenchError Store := do
  let staged ← tx.stageAll store
  .ok (staged.foldl (fun s entry => s.install entry.1 entry.2) store)

end Transaction

end StoreBench
