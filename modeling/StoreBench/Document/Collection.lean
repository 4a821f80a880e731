import StoreBench.Document.Edit
import StoreBench.Document.Match
import StoreBench.Row
import Std.Data.ExtTreeMap

/-!
# `StoreBench.Document.Collection`: documents under their keys

A collection holds documents under text keys, in the order of the keys.
The key of a document is taken from its `_id` when it is inserted, and no
later change moves it. `Documents.apply` makes one action; an update that
fails keeps the edits it made before failing, which the caller may then
drop together with the collection.
-/

set_option autoImplicit false

namespace StoreBench

/-- Documents by key. -/
abbrev Documents := Std.ExtTreeMap String Json

/-- What an action answers: the documents it affected, the rows it read,
and whether it wrote. -/
structure Outcome where
  affected : Nat
  rows : List Row := []
  wrote : Bool := false
deriving Repr, Inhabited

namespace Json

/-- The text that a value goes by as a key: a string itself, anything else
in its written form. -/
def label : Json → String
  | .str s => s
  | other => other.render

/-- An object without an `_id` gets the one given. -/
def identified (id : String) (doc : Json) : Json :=
  match doc with
  | .obj fields =>
    match Fields.get? fields "_id" with
    | some _ => doc
    | none => .obj (Fields.insert fields "_id" (.str id))
  | other => other

/-- The key of a document to be inserted. -/
def key? : Json → Option String
  | .obj fields => (Fields.get? fields "_id").map label
  | _ => none

/-- The row of a document: its fields, or the document itself under the
name `value`. -/
def toRow : Json → Row
  | .obj fields => .ofPairs (fields.map fun f => (f.1, Value.ofJson f.2))
  | other => .ofPairs [("value", Value.ofJson other)]

end Json

namespace Documents

/-! ### Inserting -/

/-- Adds the documents of a batch, each of which needs a key of its own. -/
def insertAll (collection : String) (docs : Documents) : List Json → Except BenchError Documents
  | [] => .ok docs
  | doc :: rest =>
    match doc.key? with
    | none => .error (.backend s!"{collection}: document must be an object")
    | some key =>
      if docs.contains key then .error (.backend s!"{collection}: duplicate key `{key}`")
      else insertAll collection (docs.insert key doc) rest

/-! ### Reading -/

/-- The documents a filter selects with their keys, in the order of the
keys. -/
def matching (docs : Documents) (filter : Filter) : List (String × Json) :=
  docs.toList.filter fun entry => filter.selects entry.2

/-- One group of documents with a common label: the value it was first
seen under, and the sum so far. -/
structure Group where
  value : Json
  total : Double

/-- Adds a document to the group of its label. -/
def addToGroup (groupBy sumField : String) (groups : Std.ExtTreeMap String Group)
    (entry : String × Json) : Std.ExtTreeMap String Group :=
  let value := (entry.2.lookup groupBy).getD .null
  let amount := ((entry.2.lookup sumField).bind Json.toDouble?).getD .zero
  let group := (groups[value.label]?).getD ⟨value, .zero⟩
  groups.insert value.label { group with total := group.total.add amount }

/-- A row for every label under which matching documents stand, in the
order of the labels, with the sum over them. A missing amount counts as
nothing. -/
def groupSum (docs : Documents) (filter : Filter) (groupBy sumField : String) : List Row :=
  let groups := (docs.matching filter).foldl (addToGroup groupBy sumField) ∅
  groups.toList.map fun entry =>
    .ofPairs [("_id", Value.ofJson entry.2.value), ("total", .float entry.2.total)]

/-- The rows an action reads. -/
def rows (docs : Documents) : Action → List Row
  | .findOne filter => ((docs.matching filter).take 1).map fun entry => entry.2.toRow
  | .find filter => (docs.matching filter).map fun entry => entry.2.toRow
  | .count filter => [.ofPairs [("count", .int (docs.matching filter).length)]]
  | .groupSum filter groupBy sumField => docs.groupSum filter groupBy sumField
  | _ => []

/-- What a reading action finds. -/
def read (docs : Documents) (action : Action) : Outcome :=
  let rows := docs.rows action
  { affected := rows.length, rows := rows }

/-! ### Writing -/

/-- Edits the given entries in place, one after the other, up to the first
that cannot be edited; what was done to that one stays. -/
def editAll (update : Update) : Documents → List (String × Json) → Documents × Attempted Unit
  | docs, [] => (docs, .ok ())
  | docs, (key, doc) :: rest =>
    let (edited, result) := update.edit doc
    let docs := docs.insert key edited
    match result with
    | .ok () => editAll update docs rest
    | .error failure => (docs, .error failure)

/-- Edits the entries and answers how many there are. -/
def update (docs : Documents) (entries : List (String × Json)) (update : Update) :
    Documents × Attempted Outcome :=
  let (docs, result) := editAll update docs entries
  (docs, result.map fun () => { affected := entries.length, wrote := !entries.isEmpty })

/-- Makes one action on the documents of the collection of that name. -/
def apply (collection : String) (docs : Documents) : Action → Documents × Attempted Outcome
  | .insertOne doc =>
    match docs.insertAll collection [doc] with
    | .ok docs => (docs, .ok { affected := 1, wrote := true })
    | .error e => (docs, .error (.error e))
  | .updateOne filter changes => docs.update ((docs.matching filter).take 1) changes
  | .updateMany filter changes => docs.update (docs.matching filter) changes
  | .deleteMany filter =>
    let kept := docs.filter fun _ doc => !filter.selects doc
    let affected := docs.size - kept.size
    (kept, .ok { affected := affected, wrote := 0 < affected })
  | .dropCollection => (∅, .ok { affected := docs.size, wrote := true })
  | action => (docs, .ok (docs.read action))

end Documents

/-- The documents of a collection and the store's clock when they were
last written, zero if they never were. -/
structure Collection where
  docs : Documents := ∅
  version : Nat := 0

instance : Inhabited Collection := ⟨{}⟩

end StoreBench
