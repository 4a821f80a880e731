import StoreBench.Error
import StoreBench.Json.Typed
import StoreBench.Time.Instant

/-!
# `StoreBench.Value`: column values and statement parameters

A value is a parameter of a statement or a column of a result row. Stores
differ in what they give back: one keeps a list as JSON text, another an
instant as text or a sum of integers as a fractional number. The decoders
below accept these forms, so that a workload reads its rows alike from
every store.
-/

set_option autoImplicit false

namespace StoreBench

/-- What statements are given and rows are made of. -/
inductive Value
  | null
  | bool (b : Bool)
  | int (i : Int)
  | float (x : Double)
  | text (s : String)
  | timestamp (t : Instant)
  | textList (items : List String)
  | json (j : Json)
deriving Repr, Inhabited

namespace Value

/-- The name of a value's type in a decoding error. -/
def kind : Value → String
  | null => "null"
  | bool _ => "bool"
  | int _ => "int"
  | float _ => "float"
  | text _ => "text"
  | timestamp _ => "timestamp"
  | textList _ => "text[]"
  | json _ => "json"

/-! ### Documents -/

/-- The strings of a list that holds nothing else. -/
def stringItems? : List Json → Option (List String)
  | [] => some []
  | .str s :: rest => (stringItems? rest).map (s :: ·)
  | _ :: _ => none

/-- The value of a document field. Whole numbers that fit a signed word
are integers, lists of strings are text lists; objects and mixed lists
stay documents. -/
def ofJson : Json → Value
  | .null => null
  | .bool b => bool b
  | .int i => if i < 2 ^ 63 then int i else float (.ofInt i)
  | .float x => float x
  | .str s => text s
  | .arr items => match stringItems? items with
    | some strings => textList strings
    | none => json (.arr items)
  | .obj fields => json (.obj fields)

/-! ### Decoding -/

/-- What a decoder answers: a value of its type, or why there is none. -/
abbrev Decoder (α : Type) := Value → Except BenchError α

def mismatch {α : Type} (expected : String) (v : Value) : Except BenchError α :=
  .error (.decode s!"expected {expected}, found {v.kind}")

/-- An integer, or a whole fractional number in the range of integers. -/
def toInt : Decoder Int
  | int i => .ok i
  | float x => match x.toInt? with
    | some i =>
      if -2 ^ 63 ≤ i ∧ i < 2 ^ 63 then .ok i
      else .error (.decode s!"float {x.plain} is outside the int range")
    | none => mismatch "int" (float x)
  | v => mismatch "int" v

/-- A fractional number, or a whole one as such. -/
def toDouble : Decoder Double
  | float x => .ok x
  | int i => .ok (.ofInt i)
  | v => mismatch "float" v

/-- A boolean, or an integer as the store keeps booleans. -/
def toBool : Decoder Bool
  | bool b => .ok b
  | int i => .ok (i != 0)
  | v => mismatch "bool" v

def toText : Decoder String
  | text s => .ok s
  | v => mismatch "text" v

/-- A list of texts, or a document or text that writes one. -/
def toTexts : Decoder (List String)
  | textList items => .ok items
  | text s => (Json.readText (Json.readList Json.readString) s).mapError BenchError.ofReadError
  | json j => (Json.expectStrings j).mapError fun m => .decode m.message
  | v => mismatch "text[]" v

/-- An instant, the milliseconds to it, or its written form. -/
def toInstant : Decoder Instant
  | timestamp t => .ok t
  | int millis => match Instant.ofMillis? millis with
    | some t => .ok t
    | none => .error (.decode s!"invalid timestamp {millis}")
  | text s => (Instant.ofText s).mapError fun flaw => .decode flaw.message
  | v => mismatch "timestamp" v

/-- Null, or a value of the given type. -/
def toOption {α : Type} (decode : Decoder α) : Decoder (Option α)
  | null => .ok none
  | v => (decode v).map some

/-! ### The written form

A value is written as an object whose one field is named for its type; the
null value is the bare name. -/

/-- A value with its type, as it is written. -/
def toJson : Value → Json
  | null => .str "Null"
  | bool b => .obj [("Bool", .bool b)]
  | int i => .obj [("Int", .int i)]
  | float x => .obj [("Float", .ofDouble x)]
  | text s => .obj [("Text", .str s)]
  | timestamp t => .obj [("Timestamp", .str t.isoText)]
  | textList items => .obj [("TextArray", .arr (items.map Json.str))]
  | json j => .obj [("Json", j)]

/-- An instant, which is written as text. -/
def readInstant : List Char → Json.Read (Instant × List Char) :=
  Json.readParsed "an RFC 3339 formatted date and time string" fun s =>
    (Instant.ofLooseText s).mapError fun flaw => .unreadable flaw.message

def variants : List (Json.Variant Value) :=
  [ .unit "Null" null,
    .holding "Bool" bool Json.readBool,
    .holding "Int" int (Json.readInt .i64),
    .holding "Float" float Json.readDouble,
    .holding "Text" text Json.readString,
    .holding "Timestamp" timestamp readInstant,
    .holding "TextArray" textList (Json.readList Json.readString),
    .holding "Json" json (Json.readDocument (Json.depthLimit - 1)) ]

/-- The value that a document text writes. -/
def ofJsonText (s : String) : Except BenchError Value :=
  (Json.readText (Json.readChoice variants) s).mapError BenchError.ofReadError

end Value

end StoreBench
