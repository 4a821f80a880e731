import StoreBench.Json.Reader

/-!
# `StoreBench.Json.Typed`: reading values of a known shape

Readers of booleans, integers of a given range, strings, lists and
records. A record may be written as an object, whose unknown fields are
passed over, or as the list of its values in the order of its fields.
`Json.expectStrings` takes the same shape from a document instead of a
text.
-/

set_option autoImplicit false

namespace StoreBench.Json

/-! ### Values of the wrong type -/

/-- The value under the reader, read as far as naming it takes. -/
def readFound : List Char → Read (Found × List Char)
  | 'n' :: r => readWord .null "ull".toList r
  | 't' :: r => readWord (.bool true) "rue".toList r
  | 'f' :: r => readWord (.bool false) "alse".toList r
  | '"' :: r => do
    let (s, r) ← readStringBody r
    .ok (.str s, r)
  | '[' :: r => .ok (.seq, '[' :: r)
  | '\x7b' :: r => .ok (.map, '\x7b' :: r)
  | c :: r =>
    if c = '-' ∨ Text.isDigit c then do
      let (n, r) ← readNumber (c :: r)
      .ok (Found.ofJson n, r)
    else failOn .expectedValue (c :: r)
  | [] => failOn .expectedValue []

/-- Reports the value under the reader, which is not of the type
expected. -/
def wrongType {α : Type} (expected : String) (cs : List Char) : Read (α × List Char) := do
  let (found, r) ← readFound cs
  failAt (.mismatch (.wrongType found expected)) r

/-! ### Scalars -/

def readBool (cs : List Char) : Read (Bool × List Char) :=
  match skipBlanks cs with
  | [] => failOn .eofInValue []
  | 't' :: r => readWord true "rue".toList r
  | 'f' :: r => readWord false "alse".toList r
  | r => wrongType "a boolean" r

/-- The integers of one machine word type, and its name. -/
structure IntRange where
  name : String
  least : Int
  greatest : Int

namespace IntRange

def i64 : IntRange := ⟨"i64", -2 ^ 63, 2 ^ 63 - 1⟩
def u64 : IntRange := ⟨"u64", 0, 2 ^ 64 - 1⟩
def usize : IntRange := ⟨"usize", 0, 2 ^ 64 - 1⟩
def u32 : IntRange := ⟨"u32", 0, 2 ^ 32 - 1⟩
def u8 : IntRange := ⟨"u8", 0, 2 ^ 8 - 1⟩

end IntRange

/-- A whole number within a range. -/
def readInt (range : IntRange) (cs : List Char) : Read (Int × List Char) :=
  match skipBlanks cs with
  | [] => failOn .eofInValue []
  | c :: r =>
    if c = '-' ∨ Text.isDigit c then do
      let (n, r) ← readNumber (c :: r)
      match n with
      | .int i =>
        if range.least ≤ i ∧ i ≤ range.greatest then .ok (i, r)
        else failAt (.mismatch (.wrongValue (.int i) range.name)) r
      | other => failAt (.mismatch (.wrongType (Found.ofJson other) range.name)) r
    else wrongType range.name (c :: r)

/-- A whole number within a range that has no sign. -/
def readNat (range : IntRange) (cs : List Char) : Read (Nat × List Char) := do
  let (i, r) ← readInt range cs
  .ok (i.toNat, r)

/-- Any number, as a fractional one. -/
def readDouble (cs : List Char) : Read (Double × List Char) :=
  match skipBlanks cs with
  | [] => failOn .eofInValue []
  | c :: r =>
    if c = '-' ∨ Text.isDigit c then do
      let (n, r) ← readNumber (c :: r)
      .ok ((n.toDouble?).getD .zero, r)
    else wrongType "f64" (c :: r)

/-- A string, turned into a value that it may not denote. -/
def readParsed {α : Type} (expected : String) (parse : String → Except Mismatch α)
    (cs : List Char) : Read (α × List Char) :=
  match skipBlanks cs with
  | [] => failOn .eofInValue []
  | '"' :: r => do
    let (s, r) ← readStringBody r
    match parse s with
    | .ok a => .ok (a, r)
    | .error m => failAt (.mismatch m) r
  | r => wrongType expected r

/-- A string, and no value of another kind. -/
def readString (cs : List Char) : Read (String × List Char) :=
  readParsed "a string" .ok cs

/-- Nothing but null. -/
def readNull (cs : List Char) : Read (Unit × List Char) :=
  match skipBlanks cs with
  | [] => failOn .eofInValue []
  | 'n' :: r => readWord () "ull".toList r
  | r => wrongType "unit" r

/-- Null, or a value. -/
def readOption {α : Type} (value : List Char → Read (α × List Char)) (cs : List Char) :
    Read (Option α × List Char) :=
  match skipBlanks cs with
  | 'n' :: r => readWord none "ull".toList r
  | r => do
    let (a, r) ← value r
    .ok (some a, r)

/-! ### Lists and records -/

/-- A list whose items are read one way. -/
def readList {α : Type} (item : List Char → Read (α × List Char)) (cs : List Char) :
    Read (List α × List Char) :=
  match skipBlanks cs with
  | [] => failOn .eofInValue []
  | '[' :: r => closingList (readItems item (r.length + 1) true r)
  | r => wrongType "a sequence" r

/-- A field of a record under construction, of type `σ`: its name,
whether it has been read, how it is read, and whether the record needs
it. -/
structure Field (σ : Type) where
  name : String
  isSet : σ → Bool
  read : σ → List Char → Read (σ × List Char)
  required : Bool

/-- A field stored through `set`. -/
def Field.of {σ α : Type} (name : String) (get : σ → Option α) (set : σ → α → σ)
    (value : List Char → Read (α × List Char)) (required : Bool) : Field σ where
  name := name
  isSet s := (get s).isSome
  read s cs := do
    let (a, r) ← value cs
    .ok (set s a, r)
  required := required

/-- The fields of a record written as an object. -/
def readNamedFields {σ : Type} (fields : List (Field σ)) :
    Nat → Bool → σ → List Char → Read (σ × List Char)
  | 0, _, _, cs => failAt .eofInObject cs
  | fuel + 1, first, s, cs => do
    let (more, cs) ← nextField first cs
    if more then
      let (name, cs) ← readStringBody (cs.drop 1)
      match fields.find? fun f => f.name == name with
      | some field =>
        if field.isSet s then failOpen (.duplicateField name) cs
        else
          let ((), cs) ← readColon cs
          let (s, cs) ← field.read s cs
          readNamedFields fields fuel false s cs
      | none =>
        let ((), cs) ← readColon cs
        let ((), cs) ← skipValue cs
        readNamedFields fields fuel false s cs
    else match fields.find? fun f => f.required && !f.isSet s with
      | some field => failOpen (.missingField field.name) cs
      | none => .ok (s, cs)

/-- The fields of a record written as a list. -/
def readListedFields {σ : Type} (expected : String) :
    List (Field σ) → Nat → σ → List Char → Read (σ × List Char)
  | [], _, s, cs => .ok (s, cs)
  | field :: fields, n, s, cs => do
    let (more, cs) ← nextItem (n == 0) cs
    if more then
      let (s, cs) ← field.read s cs
      readListedFields expected fields (n + 1) s cs
    else if field.required then failOpen (.wrongLength n expected) cs
    else readListedFields expected fields n s cs

/-- A record named `title`, from the record with nothing set. -/
def readRecord {σ : Type} (title : String) (fields : List (Field σ)) (empty : σ)
    (cs : List Char) : Read (σ × List Char) :=
  match skipBlanks cs with
  | [] => failOn .eofInValue []
  | '[' :: r =>
    let elements := if fields.length = 1 then "element" else "elements"
    let expected := s!"struct {title} with {fields.length} {elements}"
    closingList (readListedFields expected fields 0 empty r)
  | '\x7b' :: r => closingObject (readNamedFields fields (r.length + 1) true empty r)
  | r => wrongType s!"struct {title}" r

/-! ### Choices -/

/-- A variant of a choice: its name, the value it is when its name stands
alone, if it can, and how its content is read. -/
structure Variant (α : Type) where
  name : String
  bare : Option α
  read : List Char → Read (α × List Char)

namespace Variant

/-- A variant without content. -/
def unit {α : Type} (name : String) (value : α) : Variant α where
  name := name
  bare := some value
  read cs := do
    let ((), r) ← readNull cs
    .ok (value, r)

/-- A variant with content. -/
def holding {α β : Type} (name : String) (make : β → α)
    (content : List Char → Read (β × List Char)) : Variant α where
  name := name
  bare := none
  read cs := do
    let (b, r) ← content cs
    .ok (make b, r)

end Variant

/-- A value of a choice: the name of a variant alone, or an object with
the variant's name and content. -/
def readChoice {α : Type} (variants : List (Variant α)) (cs : List Char) :
    Read (α × List Char) :=
  let named (cs : List Char) : Read (Variant α × List Char) :=
    readParsed "variant identifier" (fun s => match variants.find? fun v => v.name == s with
      | some v => .ok v
      | none => .error (.unknownVariant s (variants.map Variant.name))) cs
  match skipBlanks cs with
  | [] => failOn .eofInValue []
  | '"' :: r => do
    let (v, r) ← named ('"' :: r)
    match v.bare with
    | some a => .ok (a, r)
    | none => failOpen (.wrongType .bareVariant "newtype variant") r
  | '\x7b' :: r => do
    let (v, r) ← named r
    let ((), r) ← readColon r
    let (a, r) ← v.read r
    match skipBlanks r with
    | [] => failAt .eofInObject []
    | '\x7d' :: r => .ok (a, r)
    | r => failAt .expectedValue r
  | r => failOn .expectedValue r

/-! ### Shapes of documents -/

/-- The strings of a document that is a list of strings. -/
def expectStrings : Json → Except Mismatch (List String)
  | .arr items => items.mapM fun
    | .str s => .ok s
    | other => .error (.wrongType (Found.ofJson other) "a string")
  | other => .error (.wrongType (Found.ofJson other) "a sequence")

end StoreBench.Json
