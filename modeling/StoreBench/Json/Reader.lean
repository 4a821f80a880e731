import StoreBench.Json.Mismatch
import StoreBench.Text.Blank
import StoreBench.Text.Digits

/-!
# `StoreBench.Json.Reader`: reading JSON text

A reader takes characters off the front of a text and answers a value
with the text that is left, or a `Failure`. A failure that concerns the
text itself is reported at the place where it was noticed. A value of
the wrong shape is reported where the reader stands once the innermost
enclosing value has been closed, so such a failure travels without a
place until a reader of a whole value fixes one.

Places are kept as the number of bytes that follow; only
`ReadError.locate` turns them into a line and a column. Readers of
well-formed text therefore never mention positions.
-/

set_option autoImplicit false

namespace StoreBench.Json

/-! ### Failures -/

/-- What is wrong with a text. -/
inductive Flaw
  | eofInList | eofInObject | eofInString | eofInValue
  | expectedColon | expectedListEnd | expectedObjectEnd | expectedWord | expectedValue
  | invalidEscape | invalidNumber | numberOutOfRange
  | controlCharacter | keyNotString | loneSurrogate | unfinishedPair
  | trailingComma | trailingCharacters | tooDeep
  | mismatch (m : Mismatch)
deriving Repr, Inhabited

/-- The text of a flaw, without where it was found. -/
def Flaw.message : Flaw → String
  | .eofInList => "EOF while parsing a list"
  | .eofInObject => "EOF while parsing an object"
  | .eofInString => "EOF while parsing a string"
  | .eofInValue => "EOF while parsing a value"
  | .expectedColon => "expected `:`"
  | .expectedListEnd => "expected `,` or `]`"
  | .expectedObjectEnd => "expected `,` or `\x7d`"
  | .expectedWord => "expected ident"
  | .expectedValue => "expected value"
  | .invalidEscape => "invalid escape"
  | .invalidNumber => "invalid number"
  | .numberOutOfRange => "number out of range"
  | .controlCharacter => "control character (\\u0000-\\u001F) found while parsing a string"
  | .keyNotString => "key must be a string"
  | .loneSurrogate => "lone leading surrogate in hex escape"
  | .unfinishedPair => "unexpected end of hex escape"
  | .trailingComma => "trailing comma"
  | .trailingCharacters => "trailing characters"
  | .tooDeep => "recursion limit exceeded"
  | .mismatch m => m.message

/-- A flaw, the number of bytes after the place it is reported at (none
while no place is fixed), and the text from where the reader stood. -/
structure Failure where
  flaw : Flaw
  place : Option Nat
  rest : List Char

/-- The result of reading: a value with the text left, in most cases. -/
abbrev Read := Except Failure

/-- Reported where `rest` begins. -/
def failAt {α : Type} (flaw : Flaw) (rest : List Char) : Read (α × List Char) :=
  .error ⟨flaw, some (Text.byteCount rest), rest⟩

/-- Reported one byte further, at the byte under the reader. -/
def failOn {α : Type} (flaw : Flaw) (rest : List Char) : Read (α × List Char) :=
  .error ⟨flaw, some (Text.byteCount rest - 1), rest⟩

/-- A value of the wrong shape, its place still open. -/
def failOpen {α : Type} (m : Mismatch) (rest : List Char) : Read (α × List Char) :=
  .error ⟨.mismatch m, none, rest⟩

/-- Fixes an open place where the reader stands. -/
def Failure.fix (f : Failure) : Failure :=
  match f.place with
  | some _ => f
  | none => { f with place := some (Text.byteCount f.rest) }

/-! ### Characters -/

def isBlank (c : Char) : Bool := c == ' ' || c == '\n' || c == '\t' || c == '\r'

def skipBlanks (cs : List Char) : List Char := cs.dropWhile isBlank

/-! ### Strings -/

/-- Four hexadecimal digits; bytes are counted, so that a character of
several bytes can fill the place of several digits. -/
def readHex (cs : List Char) : Read (Nat × List Char) :=
  let bad : Read (Nat × List Char) :=
    if Text.byteCount cs < 4 then .error ⟨.eofInString, some 0, []⟩
    else .error ⟨.invalidEscape, some (Text.byteCount cs - 4), cs⟩
  match cs with
  | a :: b :: c :: d :: rest =>
    match Text.hexValue? a, Text.hexValue? b, Text.hexValue? c, Text.hexValue? d with
    | some a, some b, some c, some d => .ok (((a * 16 + b) * 16 + c) * 16 + d, rest)
    | _, _, _, _ => bad
  | _ => bad

/-- The second half of a surrogate pair whose first half is `high`. -/
def readLowHalf (high : Nat) : List Char → Read (Char × List Char)
  | [] => failAt .eofInString []
  | '\\' :: [] => failAt .eofInString []
  | '\\' :: 'u' :: cs => do
    let (low, rest) ← readHex cs
    if low < 0xDC00 ∨ 0xDFFF < low then failAt .loneSurrogate rest
    else .ok (Char.ofNat ((high - 0xD800) * 0x400 + (low - 0xDC00) + 0x10000), rest)
  | '\\' :: cs => failOn .unfinishedPair cs
  | cs => failOn .unfinishedPair cs

/-- The character an escape stands for, after the backslash. -/
def readEscape : List Char → Read (Char × List Char)
  | [] => failAt .eofInString []
  | '"' :: cs => .ok ('"', cs)
  | '\\' :: cs => .ok ('\\', cs)
  | '/' :: cs => .ok ('/', cs)
  | 'b' :: cs => .ok ('\x08', cs)
  | 'f' :: cs => .ok ('\x0c', cs)
  | 'n' :: cs => .ok ('\n', cs)
  | 'r' :: cs => .ok ('\r', cs)
  | 't' :: cs => .ok ('\t', cs)
  | 'u' :: cs => do
    let (n, rest) ← readHex cs
    if 0xDC00 ≤ n ∧ n ≤ 0xDFFF then failAt .loneSurrogate rest
    else if 0xD800 ≤ n ∧ n ≤ 0xDBFF then readLowHalf n rest
    else .ok (Char.ofNat n, rest)
  | c :: cs => failOn .invalidEscape (c :: cs)

/-- The characters up to the closing quote, at most `fuel` of them. -/
def readChars : Nat → List Char → Read ((List Char) × List Char)
  | 0, cs => failAt .eofInString cs
  | _ + 1, [] => failAt .eofInString []
  | fuel + 1, c :: cs =>
    if c = '"' then .ok ([], cs)
    else if c = '\\' then do
      let (d, cs) ← readEscape cs
      let (ds, cs) ← readChars fuel cs
      .ok (d :: ds, cs)
    else if c.toNat < 0x20 then failAt .controlCharacter cs
    else do
      let (ds, cs) ← readChars fuel cs
      .ok (c :: ds, cs)

/-- A string after its opening quote. -/
def readStringBody (cs : List Char) : Read (String × List Char) := do
  let (body, rest) ← readChars (cs.length + 1) cs
  .ok (String.ofList body, rest)

/-! ### Numbers -/

/-- A number as written: whole numbers outside the 64-bit ranges, and
negative zero, count as fractional. -/
def wholeNumber (negative : Bool) (n : Nat) : Json :=
  if negative then
    if n = 0 ∨ 2 ^ 63 < n then .float (Double.ofDecimal true n 0) else .int (-n)
  else if n < 2 ^ 64 then .int n else .float (Double.ofDecimal false n 0)

/-- A fractional number, refused when it rounds to infinity. -/
def realNumber (negative : Bool) (digits : Nat) (exponent : Int) (rest : List Char) :
    Read (Json × List Char) :=
  let x := Double.ofDecimal negative digits exponent
  if x.isFinite then .ok (.float x, rest) else failAt .numberOutOfRange rest

/-- How many of the digits can be read before the exponent no longer fits
thirty-two bits, if that happens. -/
def exponentOverflow? : Nat → List Char → Option (List Char)
  | _, [] => none
  | n, c :: cs =>
    if Text.isDigit c then
      let m := n * 10 + (c.toNat - 48)
      if 2 ^ 31 ≤ m then some cs else exponentOverflow? m cs
    else none

/-- The exponent after its letter. `scale` is the power of ten of the
last digit read so far. -/
def readExponent (negative : Bool) (digits : Nat) (scale : Int) (cs : List Char) :
    Read (Json × List Char) :=
  let (down, cs) := match cs with
    | '+' :: r => (false, r)
    | '-' :: r => (true, r)
    | r => (false, r)
  match cs with
  | [] => failAt .eofInValue []
  | c :: _ =>
    if !Text.isDigit c then failOn .invalidNumber cs
    else
      let rest := cs.dropWhile Text.isDigit
      match exponentOverflow? 0 cs with
      | some beyond =>
        if digits ≠ 0 ∧ !down then failAt .numberOutOfRange beyond
        else .ok (.float (Double.ofDecimal negative 0 0), rest)
      | none =>
        let e : Int := Text.digitsValue (cs.takeWhile Text.isDigit)
        realNumber negative digits (if down then scale - e else scale + e) rest

/-- What follows the integer part of a number. -/
def readFraction (negative : Bool) (whole : List Char) (cs : List Char) : Read (Json × List Char) :=
  match cs with
  | '.' :: cs =>
    let ds := cs.takeWhile Text.isDigit
    let rest := cs.dropWhile Text.isDigit
    let digits := Text.digitsValue (whole ++ ds)
    let scale : Int := -(ds.length : Int)
    if ds.isEmpty then
      if rest.isEmpty then failAt .eofInValue [] else failOn .invalidNumber rest
    else match rest with
      | 'e' :: r => readExponent negative digits scale r
      | 'E' :: r => readExponent negative digits scale r
      | r => realNumber negative digits scale r
  | 'e' :: r => readExponent negative (Text.digitsValue whole) 0 r
  | 'E' :: r => readExponent negative (Text.digitsValue whole) 0 r
  | r => match wholeNumber negative (Text.digitsValue whole) with
    | .float x => if x.isFinite then .ok (.float x, r) else failAt .numberOutOfRange r
    | n => .ok (n, r)

/-- A number after its sign. -/
def readUnsigned (negative : Bool) : List Char → Read (Json × List Char)
  | [] => failAt .eofInValue []
  | '0' :: cs =>
    match cs with
    | c :: _ => if Text.isDigit c then failOn .invalidNumber cs else readFraction negative ['0'] cs
    | [] => readFraction negative ['0'] []
  | c :: cs =>
    if Text.isDigit c then
      readFraction negative ((c :: cs).takeWhile Text.isDigit) ((c :: cs).dropWhile Text.isDigit)
    else failOn .invalidNumber (c :: cs)

/-- A number with its sign, whole or fractional. -/
def readNumber : List Char → Read (Json × List Char)
  | '-' :: cs => readUnsigned true cs
  | cs => readUnsigned false cs

/-! ### Fixed words -/

/-- The rest of a word whose first letter has been read. -/
def readWord {α : Type} (value : α) : List Char → List Char → Read (α × List Char)
  | [], cs => .ok (value, cs)
  | _ :: _, [] => failAt .eofInValue []
  | w :: ws, c :: cs => if w = c then readWord value ws cs else failOn .expectedWord (c :: cs)

/-! ### Lists and objects -/

/-- A cut between two items of a list: whether there is one more. -/
def nextItem (first : Bool) (cs : List Char) : Read (Bool × List Char) :=
  match skipBlanks cs with
  | [] => failOn .eofInList []
  | ']' :: r => .ok (false, ']' :: r)
  | ',' :: r =>
    if first then .ok (true, ',' :: r)
    else match skipBlanks r with
      | [] => failOn .eofInValue []
      | ']' :: r => failOn .trailingComma (']' :: r)
      | r => .ok (true, r)
  | r => if first then .ok (true, r) else failOn .expectedListEnd r

/-- A cut between two fields of an object: whether there is one more,
and then the text at the opening quote of its name. -/
def nextField (first : Bool) (cs : List Char) : Read (Bool × List Char) :=
  match skipBlanks cs with
  | [] => failOn .eofInObject []
  | '\x7d' :: r => .ok (false, '\x7d' :: r)
  | ',' :: r =>
    if first then failOn .keyNotString (',' :: r)
    else match skipBlanks r with
      | [] => failOn .eofInValue []
      | '"' :: r => .ok (true, '"' :: r)
      | '\x7d' :: r => failOn .trailingComma ('\x7d' :: r)
      | r => failOn .keyNotString r
  | r =>
    if first then
      match r with
      | '"' :: _ => .ok (true, r)
      | _ => failOn .keyNotString r
    else failOn .expectedObjectEnd r

/-- The closing bracket of a list. -/
def closeList (cs : List Char) : Read (Unit × List Char) :=
  match skipBlanks cs with
  | ']' :: r => .ok ((), r)
  | ',' :: r => match skipBlanks r with
    | ']' :: r => failOn .trailingComma (']' :: r)
    | r => failOn .trailingCharacters r
  | [] => failOn .eofInList []
  | r => failOn .trailingCharacters r

/-- The closing brace of an object. -/
def closeObject (cs : List Char) : Read (Unit × List Char) :=
  match skipBlanks cs with
  | '\x7d' :: r => .ok ((), r)
  | ',' :: r => failOn .trailingComma (',' :: r)
  | [] => failOn .eofInObject []
  | r => failOn .trailingCharacters r

/-- Where the reader stands after trying to close a list. -/
def afterList (cs : List Char) : List Char :=
  match skipBlanks cs with
  | ']' :: r => r
  | ',' :: r => skipBlanks r
  | r => r

/-- Where the reader stands after trying to close an object. -/
def afterObject (cs : List Char) : List Char :=
  match skipBlanks cs with
  | '\x7d' :: r => r
  | r => r

/-- The result of a list's items together with its closing bracket. -/
def closingList {α : Type} : Read (α × List Char) → Read (α × List Char)
  | .ok (a, cs) => do
    let ((), cs) ← closeList cs
    .ok (a, cs)
  | .error f => .error { f with rest := afterList f.rest }.fix

/-- The result of an object's fields together with its closing brace. -/
def closingObject {α : Type} : Read (α × List Char) → Read (α × List Char)
  | .ok (a, cs) => do
    let ((), cs) ← closeObject cs
    .ok (a, cs)
  | .error f => .error { f with rest := afterObject f.rest }.fix

def readColon (cs : List Char) : Read (Unit × List Char) :=
  match skipBlanks cs with
  | ':' :: r => .ok ((), r)
  | [] => failOn .eofInObject []
  | r => failOn .expectedColon r

/-- The items of a list up to its closing bracket. -/
def readItems {α : Type} (item : List Char → Read (α × List Char)) :
    Nat → Bool → List Char → Read ((List α) × List Char)
  | 0, _, cs => failAt .eofInList cs
  | fuel + 1, first, cs => do
    let (more, cs) ← nextItem first cs
    if more then
      let (a, cs) ← item cs
      let (as, cs) ← readItems item fuel false cs
      .ok (a :: as, cs)
    else .ok ([], cs)

/-- The fields of an object up to its closing brace, in written order. -/
def readFields (value : List Char → Read (Json × List Char)) :
    Nat → Bool → List Char → Read ((List (String × Json)) × List Char)
  | 0, _, cs => failAt .eofInObject cs
  | fuel + 1, first, cs => do
    let (more, cs) ← nextField first cs
    if more then
      let (name, cs) ← readStringBody (cs.drop 1)
      let ((), cs) ← readColon cs
      let (v, cs) ← value cs
      let (fs, cs) ← readFields value fuel false cs
      .ok ((name, v) :: fs, cs)
    else .ok ([], cs)

/-! ### Documents -/

/-- Any document, with containers nested less than `depth` deep. -/
def readDocument : Nat → List Char → Read (Json × List Char)
  | 0, cs => failOn .tooDeep (skipBlanks cs)
  | depth + 1, cs =>
    match skipBlanks cs with
    | [] => failOn .eofInValue []
    | 'n' :: r => readWord .null "ull".toList r
    | 't' :: r => readWord (.bool true) "rue".toList r
    | 'f' :: r => readWord (.bool false) "alse".toList r
    | '"' :: r => do
      let (s, r) ← readStringBody r
      .ok (.str s, r)
    | '[' :: r =>
      if depth = 0 then failOn .tooDeep ('[' :: r)
      else closingList do
        let (items, r) ← readItems (readDocument depth) (r.length + 1) true r
        .ok (.arr items, r)
    | '\x7b' :: r =>
      if depth = 0 then failOn .tooDeep ('\x7b' :: r)
      else closingObject do
        let (fields, r) ← readFields (readDocument depth) (r.length + 1) true r
        .ok (object fields, r)
    | c :: r =>
      if c = '-' ∨ Text.isDigit c then readNumber (c :: r) else failOn .expectedValue (c :: r)

/-- How deep containers may nest. -/
def depthLimit : Nat := 128

/-! ### Skipping

The value of an unknown field is passed over without being built:
numbers may then be out of range, escapes of surrogates are not paired,
and a comma before a closing bracket shows as a missing value. -/

/-- A string after its opening quote, passed over. -/
def skipChars : Nat → List Char → Read (Unit × List Char)
  | 0, cs => failAt .eofInString cs
  | _ + 1, [] => failAt .eofInString []
  | fuel + 1, c :: cs =>
    if c = '"' then .ok ((), cs)
    else if c = '\\' then
      match cs with
      | 'u' :: cs => do
        let (_, cs) ← readHex cs
        skipChars fuel cs
      | cs => do
        let (_, cs) ← readEscape cs
        skipChars fuel cs
    else if c.toNat < 0x20 then failAt .controlCharacter cs
    else skipChars fuel cs

def skipExponent (cs : List Char) : Read (Unit × List Char) :=
  let cs := match cs with
    | '+' :: r => r
    | '-' :: r => r
    | r => r
  match cs with
  | [] => failAt .invalidNumber []
  | c :: r =>
    if Text.isDigit c then .ok ((), r.dropWhile Text.isDigit) else failOn .invalidNumber (c :: r)

def skipFraction : List Char → Read (Unit × List Char)
  | '.' :: cs =>
    if (cs.takeWhile Text.isDigit).isEmpty then failOn .invalidNumber cs
    else match cs.dropWhile Text.isDigit with
      | 'e' :: r => skipExponent r
      | 'E' :: r => skipExponent r
      | r => .ok ((), r)
  | 'e' :: r => skipExponent r
  | 'E' :: r => skipExponent r
  | r => .ok ((), r)

def skipUnsigned : List Char → Read (Unit × List Char)
  | [] => failAt .invalidNumber []
  | '0' :: cs =>
    match cs with
    | c :: _ => if Text.isDigit c then failOn .invalidNumber cs else skipFraction cs
    | [] => .ok ((), [])
  | c :: cs =>
    if Text.isDigit c then skipFraction ((c :: cs).dropWhile Text.isDigit)
    else failOn .invalidNumber (c :: cs)

/-- The brackets still open, innermost first: true for a list. -/
abbrev OpenBrackets := List Bool

/-- Passes over the name of a field and its colon. -/
def skipName (cs : List Char) : Read (Unit × List Char) :=
  match skipBlanks cs with
  | '"' :: r => do
    let ((), r) ← skipChars (r.length + 1) r
    readColon r
  | [] => failOn .eofInObject []
  | r => failOn .keyNotString r

/-- What may follow inside the innermost bracket: a comma and a value,
the bracket's end, or, when `first`, a value at once. Answers the
brackets still open; none are left when the value is complete. -/
def skipCuts : Nat → Bool → OpenBrackets → List Char → Read (OpenBrackets × List Char)
  | 0, _, _, cs => failAt .eofInList cs
  | _ + 1, _, [], cs => .ok ([], cs)
  | fuel + 1, first, list :: outer, cs =>
    let start : List Char → Read (OpenBrackets × List Char) := fun r =>
      if list then .ok (list :: outer, r)
      else do
        let ((), r) ← skipName r
        .ok (list :: outer, r)
    match skipBlanks cs with
    | [] => failOn (if list then .eofInList else .eofInObject) []
    | ',' :: r =>
      if first then start (',' :: r) else start r
    | c :: r =>
      if (list && c == ']') || (!list && c == '\x7d') then skipCuts fuel false outer r
      else if first then start (c :: r)
      else failOn (if list then .expectedListEnd else .expectedObjectEnd) (c :: r)

/-- Passes over values until the brackets of `opened` are closed. -/
def skipValues : Nat → OpenBrackets → List Char → Read (Unit × List Char)
  | 0, _, cs => failAt .eofInValue cs
  | fuel + 1, opened, cs =>
    let after : Read (Unit × List Char) → Read (Unit × List Char) := fun
      | .error f => .error f
      | .ok ((), r) => do
        let (opened, r) ← skipCuts (r.length + 1) false opened r
        if opened.isEmpty then .ok ((), r) else skipValues fuel opened r
    let enter : OpenBrackets → List Char → Read (Unit × List Char) := fun opened r => do
      let (opened, r) ← skipCuts (r.length + 1) true opened r
      if opened.isEmpty then .ok ((), r) else skipValues fuel opened r
    match skipBlanks cs with
    | [] => failOn .eofInValue []
    | 'n' :: r => after (readWord () "ull".toList r)
    | 't' :: r => after (readWord () "rue".toList r)
    | 'f' :: r => after (readWord () "alse".toList r)
    | '"' :: r => after (skipChars (r.length + 1) r)
    | '[' :: r => enter (true :: opened) r
    | '\x7b' :: r => enter (false :: opened) r
    | '-' :: r => after (skipUnsigned r)
    | c :: r =>
      if Text.isDigit c then after (skipUnsigned (c :: r)) else failOn .expectedValue (c :: r)

/-- Passes over one value. -/
def skipValue (cs : List Char) : Read (Unit × List Char) := skipValues (cs.length + 1) [] cs

/-! ### Whole texts -/

/-- A flaw with the line and the column it is reported at, if any. -/
structure ReadError where
  flaw : Flaw
  place : Option (Nat × Nat)
deriving Repr, Inhabited

namespace ReadError

/-- Line and column of the byte at `target`, from those at the front of
the text. -/
def locate : List Char → Nat → Nat × Nat → Nat × Nat
  | [], _, at_ => at_
  | c :: cs, target, (line, column) =>
    if target = 0 then (line, column)
    else if c = '\n' then locate cs (target - 1) (line + 1, 0)
    else locate cs (target - c.utf8Size) (line, column + min target c.utf8Size)

/-- The text of a flaw, with where it was found if that is known. -/
def message (e : ReadError) : String :=
  match e.place with
  | none => e.flaw.message
  | some (line, column) => s!"{e.flaw.message} at line {line} column {column}"

end ReadError

/-- Reads a whole text, which may end in blanks only. -/
def readText {α : Type} (reader : List Char → Read (α × List Char)) (text : String) :
    Except ReadError α :=
  let cs := text.toList
  let result : Read (α × List Char) := do
    let (a, rest) ← reader cs
    match skipBlanks rest with
    | [] => .ok (a, [])
    | rest => failOn .trailingCharacters rest
  match result with
  | .ok (a, _) => .ok a
  | .error f =>
    .error ⟨f.flaw, f.place.map fun n => ReadError.locate cs (Text.byteCount cs - n) (1, 0)⟩

/-- A text as a document. -/
def parse (text : String) : Except ReadError Json := readText (readDocument depthLimit) text

end StoreBench.Json
