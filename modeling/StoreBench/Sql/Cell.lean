import StoreBench.Value
import StoreBench.Text.Utf8
import StoreBench.Text.Blank
import StoreBench.Number.Text

/-!
# `StoreBench.Sql.Cell`: what a table stores

A cell holds one of five kinds of content. Parameters become cells
(`Cell.ofValue`) and cells become values again (`Cell.toValue`): booleans
are stored as integers, instants and documents as text. A column's declared
type gives it an affinity, towards which `Affinity.convert` moves a cell
that is stored or compared.
-/

set_option autoImplicit false

namespace StoreBench.Sql

/-- Text is kept apart from bytes that were called text without being so. -/
inductive Cell
  | null
  | int (i : Int)
  | real (x : Double)
  | text (s : String)
  | brokenText (bytes : List UInt8)
  | blob (bytes : List UInt8)
deriving DecidableEq, Repr, Inhabited

namespace Cell

/-- A fractional number; one that is no number is null. -/
def ofReal (x : Double) : Cell := if x.isNaN then null else real x

/-- A parameter as it is bound. -/
def ofValue : Value → Cell
  | .null => null
  | .bool b => int (if b then 1 else 0)
  | .int i => int i
  | .float x => ofReal x
  | .text s => text s
  | .timestamp t => text t.microText
  | .textList items => text (Json.arr (items.map Json.str)).render
  | .json j => text j.render

/-- A stored cell in column `index` of a row. -/
def toValue (index : Nat) : Cell → Except BenchError Value
  | null => .ok .null
  | int i => .ok (.int i)
  | real x => .ok (.float x)
  | text s => .ok (.text s)
  | brokenText bytes =>
    match Utf8.decode bytes with
    | .ok s => .ok (.text s)
    | .error flaw =>
      .error (.decode s!"error occurred while decoding column {index}: {flaw.message}")
  | blob _ => .error (.decode s!"unsupported SQLite column type `BLOB` at index {index}")

/-- Bytes read as text. -/
def ofBytes (bytes : List UInt8) : Cell :=
  match Utf8.decode bytes with
  | .ok s => text s
  | .error _ => brokenText bytes

def isNull : Cell → Bool
  | null => true
  | _ => false

/-- Truth in a condition: a number other than zero. -/
def isTrue : Cell → Bool
  | int i => i != 0
  | real x => !x.isZero
  | _ => false

/-- The truth value of a comparison. -/
def ofBool (b : Bool) : Cell := int (if b then 1 else 0)

/-! ### Order -/

/-- Numbers come before texts, and texts before bytes. -/
def rank : Cell → Nat
  | null => 0
  | int _ | real _ => 1
  | text _ | brokenText _ => 2
  | blob _ => 3

def toDouble? : Cell → Option Double
  | int i => some (.ofInt i)
  | real x => some x
  | _ => none

/-- The order of two cells. -/
def order : Cell → Cell → Ordering
  | int a, int b => compare a b
  | text a, text b => compare a b
  | blob a, blob b | brokenText a, brokenText b => compare (a.map UInt8.toNat) (b.map UInt8.toNat)
  | a, b => match a.toDouble?, b.toDouble? with
    | some x, some y => (x.compare? y).getD .eq
    | _, _ => compare a.rank b.rank

end Cell

/-! ### Affinity -/

/-- The kind of content that a column prefers. -/
inductive Affinity
  | integer
  | real
  | numeric
  | text
  | none
deriving DecidableEq, Repr, Inhabited

/-- Whether one text occurs inside another. -/
def occursIn (part : List Char) : List Char → Bool
  | [] => part.isEmpty
  | c :: cs => part.isPrefixOf (c :: cs) || occursIn part cs

namespace Affinity

/-- The affinity of a declared type, by the words that occur in it. -/
def ofType (declared : String) : Affinity :=
  let name := declared.toList.map Char.toUpper
  let has (part : String) : Bool := occursIn part.toList name
  if has "INT" then .integer
  else if has "CHAR" || has "CLOB" || has "TEXT" then .text
  else if has "BLOB" || name.isEmpty then .none
  else if has "REAL" || has "FLOA" || has "DOUB" then .real
  else .numeric

def isNumeric : Affinity → Bool
  | .integer | .real | .numeric => true
  | .text | .none => false

/-- The number that a whole text writes. -/
def numberOfText? (s : String) : Option Cell :=
  let trimmed := (Text.skipBlank (Text.skipBlank s.toList).reverse).reverse
  let unsigned := match trimmed with
    | '+' :: rest => rest
    | cs => cs
  match Json.readNumber unsigned with
  | .ok (.int i, []) =>
    some (if -2 ^ 63 ≤ i ∧ i < 2 ^ 63 then .int i else .real (.ofInt i))
  | .ok (.float x, []) => some (.real x)
  | _ => Option.none

/-- A fractional number that is a whole one becomes so. -/
def wholeIfExact (x : Double) : Cell :=
  match x.toInt? with
  | some i => if -2 ^ 63 ≤ i ∧ i < 2 ^ 63 then .int i else .real x
  | Option.none => .real x

/-- The text of a fractional number, in at most fifteen digits. -/
def realText (x : Double) : String :=
  if x.isZero then "0.0"
  else if !x.isFinite then String.ofList (x.signed "Inf".toList)
  else
    let (num, den) := x.fraction
    let last := Double.leadingPower num den - 14
    let (n, d) := Double.scaleDecimal num den last
    let digits := Decimal.trim 15 ⟨Double.roundHalfEven n d, last⟩
    if -4 ≤ digits.leading ∧ digits.leading ≤ 14 then String.ofList (x.signed digits.pointed)
    else
      let one : Decimal := { digits with exponent := digits.exponent - digits.leading }
      let sign := if digits.leading < 0 then '-' else '+'
      String.ofList (x.signed (one.pointed ++ 'e' :: sign :: padded 2 digits.leading.natAbs))

/-- Moves a cell towards an affinity, as far as that loses nothing. -/
def convert : Affinity → Cell → Cell
  | .text, .int i => .text (String.ofList (intText i))
  | .text, .real x => .text (realText x)
  | .integer, .real x | .numeric, .real x => wholeIfExact x
  | .real, .int i => .real (.ofInt i)
  | .integer, .text s | .numeric, .text s =>
    match numberOfText? s with
    | some (.real x) => wholeIfExact x
    | some number => number
    | Option.none => .text s
  | .real, .text s =>
    match numberOfText? s with
    | some (.int i) => .real (.ofInt i)
    | some number => number
    | Option.none => .text s
  | _, cell => cell

/-- The affinities that the two sides of a comparison take on. -/
def forComparison (a b : Affinity) : Affinity × Affinity :=
  if a.isNumeric && !b.isNumeric then (.none, .numeric)
  else if b.isNumeric && !a.isNumeric then (.numeric, .none)
  else if a == .text && b == .none then (.none, .text)
  else if b == .text && a == .none then (.text, .none)
  else (.none, .none)

end Affinity

end StoreBench.Sql
