import StoreBench.Error
import StoreBench.Number.Scan
import StoreBench.Text.Pieces

/-!
# `StoreBench.Settings.Tree`: settings from several sources

A tree is a table of named trees, a list, or a single value, each with the
source it came from. Sources are merged one after the other: tables name by
name, everything else by replacement (`set`). A table that was merged comes
from no source in particular.

A tree is read leniently: texts, booleans and numbers stand for one
another where that makes sense. What cannot be read is reported with its
place in the tree and with its source.
-/

set_option autoImplicit false

namespace StoreBench

/-- The name of a source, if there is one to name. -/
abbrev Origin := Option String

/-- What sources are merged into, with where each value came from. -/
inductive Tree
  /-- A value that is no list and no object. -/
  | leaf (origin : Origin) (value : Json)
  | list (origin : Origin) (items : List Tree)
  | table (origin : Origin) (entries : List (String × Tree))
deriving Inhabited

namespace Tree

/-! ### Building -/

mutual

/-- A document from a source. Whole numbers that do not fit a signed word
become fractional. -/
def ofJson (origin : Origin) : Json → Tree
  | .arr items => .list origin (ofItems origin items)
  | .obj fields => .table origin (ofFields origin fields)
  | .int i => .leaf origin (if i < 2 ^ 63 then .int i else .float (.ofInt i))
  | value => .leaf origin value

def ofItems (origin : Origin) : List Json → List Tree
  | [] => []
  | item :: rest => ofJson origin item :: ofItems origin rest

def ofFields (origin : Origin) : Fields → List (String × Tree)
  | [] => []
  | (name, value) :: rest => (name, ofJson origin value) :: ofFields origin rest

end

/-- The entries of a table; other trees have none. -/
def entries : Tree → List (String × Tree)
  | .table _ entries => entries
  | .leaf _ _ | .list _ _ => []

def empty : Tree := .table none []

/-- Puts a tree under a name, in the place of what was there. -/
def put : List (String × Tree) → String → Tree → List (String × Tree)
  | [], name, t => [(name, t)]
  | (other, held) :: rest, name, t =>
    if other = name then (name, t) :: rest else (other, held) :: put rest name t

mutual

/-- Merges a tree into the entry of a name. -/
def set (root : Tree) (name : String) : Tree → Tree
  | .table _ incoming =>
    let target := (root.entries.lookup name).getD empty
    .table none (put root.entries name (target.setAll incoming))
  | value => .table none (put root.entries name value)

/-- Merges each of several named trees. -/
def setAll (root : Tree) : List (String × Tree) → Tree
  | [] => root
  | (name, value) :: rest => (root.set name value).setAll rest

end

/-- Merges a tree into the entry at a path. -/
def setAt (root : Tree) : (path : List String) → Tree → Tree
  | [], value => root.setAll value.entries
  | [name], value => root.set name value
  | name :: rest, value =>
    let parent := (root.entries.lookup name).getD empty
    .table none (put root.entries name (parent.setAt rest value))

/-- Whether a text can be one name in a path. -/
def isName (cs : List Char) : Bool :=
  !cs.isEmpty && cs.all fun c => c.isAlphanum || c == '_' || c == '-'

/-- The path that a key writes, with dots between the names. A key that
writes no path is a name of its own. -/
def pathOf (key : String) : List String :=
  let parts := Text.pieces '.' key.toList
  if parts.all isName then parts.map String.ofList else [key]

/-- Merges the entries of a source, whose keys may be paths. -/
def merge (root : Tree) (source : List (String × Tree)) : Tree :=
  source.foldl (fun t entry => t.setAt (pathOf entry.1) entry.2) root

/-! ### Reading -/

/-- Why a tree cannot be read. -/
inductive Flaw
  /-- A value is not of the type expected, at a place in the tree. -/
  | wrongType (found expected : String) (key : Option String) (origin : Origin)
  /-- Anything else, which is reported without a place. -/
  | other (message : String)
deriving DecidableEq, Repr, Inhabited

namespace Flaw

def message : Flaw → String
  | wrongType found expected key origin =>
    let place := match key with
      | some key => s!" for key `{key}`"
      | none => ""
    let source := match origin with
      | some origin => s!" in {origin}"
      | none => ""
    s!"invalid type: {found}, expected {expected}{place}{source}"
  | other message => message

/-- The flaw as seen from one step further up in the tree. -/
def under (segment : String) : Flaw → Flaw
  | wrongType found expected key origin =>
    let rest := key.getD ""
    let dot := if rest.isEmpty || rest.startsWith "[" then "" else "."
    wrongType found expected (some (segment ++ dot ++ rest)) origin
  | other message => other message

end Flaw

abbrev Read := Except Flaw

/-- A whole tree's kind, in the report of a value of the wrong type. -/
def found : Tree → String
  | .leaf _ (.bool b) => s!"boolean `{b}`"
  | .leaf _ (.int i) => s!"64-bit integer `{i}`"
  | .leaf _ (.float x) => s!"floating point `{x.plainPointed}`"
  | .leaf _ (.str s) => "string " ++ Text.quoted s
  | .leaf _ _ => "unit value"
  | .list _ _ => "sequence"
  | .table _ _ => "map"

/-- Where a tree came from. -/
def origin : Tree → Origin
  | .leaf origin _ | .list origin _ | .table origin _ => origin

def wrongType {α : Type} (t : Tree) (expected : String) : Read α :=
  .error (.wrongType t.found expected none t.origin)

/-- A text that stands for a number. -/
def natOfText? (s : String) : Option Nat :=
  let word := String.ofList (s.toList.map Char.toLower)
  if ["true", "on", "yes"].contains word then some 1
  else if ["false", "off", "no"].contains word then some 0
  else scanNat? (2 ^ 64 - 1) s

/-- A word of 64 bits without sign. -/
def toNat (t : Tree) : Read Nat :=
  match t with
  | .leaf _ (.bool b) => .ok b.toNat
  | .leaf _ (.int i) =>
    if 0 ≤ i then .ok i.toNat else t.wrongType "an unsigned 64 bit or less integer"
  | .leaf _ (.float x) => .ok x.saturated
  | .leaf _ (.str s) => match natOfText? s with
    | some n => .ok n
    | none => t.wrongType "an integer"
  | _ => t.wrongType "an integer"

/-- A word of fewer bits. -/
def toWord (bits : Nat) (t : Tree) : Read Nat := do
  let n ← t.toNat
  if n < 2 ^ bits then .ok n
  else .error (.wrongType s!"64-bit unsigned integer `{n}`" s!"an unsigned {bits} bit integer"
    none none)

def toText (t : Tree) : Read String :=
  match t with
  | .leaf _ (.str s) => .ok s
  | .leaf _ (.bool b) => .ok (toString b)
  | .leaf _ (.int i) => .ok (String.ofList (intText i))
  | .leaf _ (.float x) => .ok x.plain
  | _ => t.wrongType "a string"

/-- Null, or a value. -/
def toOption {α : Type} (read : Tree → Read α) (t : Tree) : Read (Option α) :=
  match t with
  | .leaf _ .null => .ok none
  | t => (read t).map some

/-! ### Records -/

/-- A record under a reader: its entries by name, or its values in the
order of its fields. -/
inductive Parts
  | named (entries : List (String × Tree))
  | listed (items : List Tree)

/-- The parts of a record. -/
def parts (title : String) (t : Tree) : Read Parts :=
  match t with
  | .table _ entries => .ok (.named entries)
  | .list _ items => .ok (.listed items)
  | .leaf _ .null => .error (.other s!"invalid type: unit value, expected struct {title}")
  | .leaf _ value =>
    .error (.other (Mismatch.wrongType (.ofJson value) s!"struct {title}").message)

namespace Parts

/-- Reads the field of a name and a number, if it is there. -/
def field {α : Type} (p : Parts) (i : Nat) (name : String) (read : Tree → Read α) :
    Read (Option α) :=
  match p with
  | named entries => match entries.lookup name with
    | some t => ((read t).map some).mapError (Flaw.under name)
    | none => .ok none
  | listed items => match items[i]? with
    | some t => ((read t).map some).mapError (Flaw.under s!"[{i}]")
    | none => .ok none

/-- The value of a field that must be there. -/
def need {α : Type} (p : Parts) (title : String) (size i : Nat) (name : String) :
    Option α → Read α
  | some a => .ok a
  | none => match p with
    | named _ => .error (.other (Mismatch.missingField name).message)
    | listed _ =>
      .error (.other (Mismatch.wrongLength i s!"struct {title} with {size} elements").message)

end Parts

end Tree

end StoreBench
