import StoreBench.Backend
import StoreBench.Statement
import StoreBench.Text.Digits
import StoreBench.Time.Instant

/-!
# `StoreBench.Scenario.Schema`: SQL in two dialects, and documents

A template is SQL text with numbered placeholders, `$1`, `$2`, … One
dialect takes it as it is, the other writes `?1` for `$1` (`render`). The
dialects also differ in the names of some column types and in how an item
is appended to a list.

Documents hold instants as text with six places, so that for years of four
digits the order of the texts is the order of the instants.
-/

set_option autoImplicit false

namespace StoreBench

namespace Dialect

/-- The type of a column of instants. -/
def instantType : Dialect → String
  | sqlite => "TEXT"
  | postgres => "TIMESTAMPTZ"

/-- The type of columns for fractional numbers. -/
def doubleType : Dialect → String
  | sqlite => "REAL"
  | postgres => "DOUBLE PRECISION"

/-- The type of a column of lists of texts. -/
def textListType : Dialect → String
  | sqlite => "TEXT"
  | postgres => "TEXT[]"

/-- What follows the name of a table that is dropped. -/
def dropSuffix : Dialect → String
  | sqlite => ""
  | postgres => " CASCADE"

/-- The expression that appends a value to the list in a column. -/
def append (d : Dialect) (column value : String) : String :=
  match d with
  | sqlite => s!"json_insert({column}, '$[#]', {value})"
  | postgres => s!"array_append({column}, {value})"

/-- Every `$` in front of a digit becomes `?`. -/
def renderChars : List Char → List Char
  | [] => []
  | [c] => [c]
  | c :: d :: rest =>
    (if c = '$' ∧ Text.isDigit d then '?' else c) :: renderChars (d :: rest)

/-- A template in the form of the dialect. -/
def render (d : Dialect) (template : String) : String :=
  match d with
  | sqlite => String.ofList (renderChars template.toList)
  | postgres => template

/-- The statement of a template with its parameters. -/
def statement (d : Dialect) (template : String) (params : List Value) : Statement :=
  .sql (d.render template) params

/-- Makes a table, unless it is there, from lines that describe it. -/
def createTable (name : String) (lines : List String) : Statement :=
  let indented := lines.map fun line => "                    " ++ line
  .sql (s!"CREATE TABLE IF NOT EXISTS {name} (\n" ++ ",\n".intercalate indented
    ++ "\n                )") []

/-- The statement that drops a table, if it is there. -/
def dropTable (d : Dialect) (name : String) : Statement :=
  .sql s!"DROP TABLE IF EXISTS {name}{d.dropSuffix}" []

end Dialect

namespace Statement

/-- Inserts a document of these fields. -/
def insert (collection : String) (fields : List (String × Json)) : Statement :=
  on collection (.insertOne (Json.object fields))

def find (collection : String) (filter : Filter) : Statement := on collection (.find filter)

end Statement

/-- An instant inside a document. -/
def Json.ofInstant (t : Instant) : Json := .str t.microText

end StoreBench
