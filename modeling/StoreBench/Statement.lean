import StoreBench.Value
import StoreBench.Text.Blank

/-!
# `StoreBench.Statement`: what a driver is asked to do

A statement is SQL text with parameters, or a command on one collection of
documents. Each driver speaks one of the two.
-/

set_option autoImplicit false

namespace StoreBench

/-- A condition on the value of a field. -/
inductive Predicate
  /-- Equal to a document; of a list, some element is. -/
  | eq (expected : Json)
  /-- Greater than a document it compares with. -/
  | gt (bound : Json)
  /-- Equal to one of several documents. -/
  | isIn (choices : List Json)
  /-- A list of more than `n` elements. -/
  | sizeGt (n : Nat)
deriving Repr, Inhabited

/-- Conditions on fields, all of which must hold. A field is named by its
path, with dots between the names. -/
abbrev Filter := List (String × Predicate)

namespace Filter

/-- The filter that selects every document. -/
def all : Filter := []

/-- The filter of one field with one value. -/
def eq (field : String) (expected : Json) : Filter := [(field, .eq expected)]

end Filter

/-- A change to one field of a document. -/
inductive Change
  | inc (field : String) (amount : Int)
  | push (field : String) (item : Json)
  | set (field : String) (value : Json)
deriving Repr, Inhabited

/-- Changes made to a document one after the other. -/
abbrev Update := List Change

/-- What is done to a collection. -/
inductive Action
  | insertOne (document : Json)
  | updateOne (filter : Filter) (update : Update)
  | updateMany (filter : Filter) (update : Update)
  | deleteMany (filter : Filter)
  | findOne (filter : Filter)
  | find (filter : Filter)
  | count (filter : Filter)
  /-- Groups the matching documents by one field and sums another. -/
  | groupSum (filter : Filter) (groupBy sumField : String)
  | dropCollection
deriving Repr, Inhabited

namespace Action

def verb : Action → String
  | insertOne _ => "insert_one"
  | updateOne _ _ => "update_one"
  | updateMany _ _ => "update_many"
  | deleteMany _ => "delete_many"
  | findOne _ => "find_one"
  | find _ => "find"
  | count _ => "count"
  | groupSum _ _ _ => "group_sum"
  | dropCollection => "drop_collection"

/-- Whether the action leaves the collection as it is. -/
def isRead : Action → Bool
  | findOne _ | find _ | count _ | groupSum _ _ _ => true
  | _ => false

end Action

/-- An action on a named collection. -/
structure Command where
  collection : String
  action : Action
deriving Repr, Inhabited

/-- What a client sends: a text of SQL with its parameters, or a command for documents. -/
inductive Statement
  | sql (text : String) (params : List Value)
  | document (command : Command)
deriving Repr, Inhabited

namespace Statement

/-- An action on a collection, as a statement. -/
def on (collection : String) (action : Action) : Statement := .document ⟨collection, action⟩

/-- A short description. -/
def describe : Statement → String
  | sql text _ => " ".intercalate (Text.words text)
  | document command => s!"{command.action.verb} {command.collection}"

end Statement

end StoreBench
