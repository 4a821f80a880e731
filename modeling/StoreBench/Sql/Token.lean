import StoreBench.Sql.Instruction

/-!
# `StoreBench.Sql.Token`: the words of SQL

`Token.scan` cuts a text into tokens. A token keeps the text it was written
as, which an error message shows. Blanks and comments separate tokens and
are dropped. What begins no token becomes an illegal one, so that a reader
of tokens meets it only where it stands.
-/

set_option autoImplicit false

namespace StoreBench.Sql

/-- What a token is. -/
inductive TokenKind
  | word
  | name (s : String)
  | string (s : String)
  | blob (bytes : List UInt8)
  | number (c : Cell)
  | param (index : Option Nat)
  | mark
  | illegal
deriving DecidableEq, Repr, Inhabited

/-- A token, with the text that it was read from. -/
structure Token where
  kind : TokenKind
  text : String
  /-- The blanks and comments in front of it. -/
  gap : String := ""
deriving DecidableEq, Repr, Inhabited

namespace Token

def isBlank (c : Char) : Bool :=
  c == ' ' || c == '\t' || c == '\n' || c == '\r' || c == '\x0c'

def isWordStart (c : Char) : Bool :=
  ('a' ≤ c && c ≤ 'z') || ('A' ≤ c && c ≤ 'Z') || c == '_' || 0x80 ≤ c.toNat

def isWordPart (c : Char) : Bool := isWordStart c || Text.isDigit c || c == '$'

/-- The text up to the closing quote, where a doubled quote stands for
itself, and what follows. -/
def readQuoted (quote : Char) : List Char → Option (List Char × List Char)
  | [] => none
  | [c] => if c = quote then some ([], []) else none
  | c :: d :: rest =>
    if c = quote then
      if d = quote then (readQuoted quote rest).map fun r => (quote :: r.1, r.2)
      else some ([], d :: rest)
    else (readQuoted quote (d :: rest)).map fun r => (c :: r.1, r.2)

/-- The bytes that pairs of hexadecimal digits write. -/
def hexBytes? : List Char → Option (List UInt8)
  | [] => some []
  | [_] => none
  | a :: b :: rest =>
    match Text.hexValue? a, Text.hexValue? b, hexBytes? rest with
    | some a, some b, some bytes => some (UInt8.ofNat (a * 16 + b) :: bytes)
    | _, _, _ => none

/-- The longest number at the front of a text. -/
def numberText (cs : List Char) : List Char × List Char :=
  let whole := cs.takeWhile Text.isDigit
  let rest := cs.dropWhile Text.isDigit
  let (fraction, rest) := match rest with
    | '.' :: r => ('.' :: r.takeWhile Text.isDigit, r.dropWhile Text.isDigit)
    | r => ([], r)
  let (exponent, rest) := match rest with
    | e :: r =>
      if e = 'e' ∨ e = 'E' then
        let (sign, r) := match r with
          | '+' :: r => (['+'], r)
          | '-' :: r => (['-'], r)
          | r => ([], r)
        if (r.takeWhile Text.isDigit).isEmpty then ([], rest)
        else (e :: sign ++ r.takeWhile Text.isDigit, r.dropWhile Text.isDigit)
      else ([], rest)
    | [] => ([], rest)
  (whole ++ fraction ++ exponent, rest)

/-- The number a text writes: a whole one that fits a word, or a
fractional one. -/
def numberCell (text : List Char) : Cell :=
  if text.all Text.isDigit then
    let n := Text.digitsValue text
    if n < 2 ^ 63 then .int n else .real (.ofNat n)
  else
    let whole := text.takeWhile Text.isDigit
    let rest := text.dropWhile Text.isDigit
    let places := (rest.drop 1).takeWhile Text.isDigit
    let fraction := if rest.head? = some '.' then places else []
    let exponentText := if rest.head? = some '.' then (rest.drop 1).dropWhile Text.isDigit else rest
    let exponent : Int := match exponentText with
      | _ :: '-' :: ds => -(Text.digitsValue ds : Int)
      | _ :: '+' :: ds => Text.digitsValue ds
      | _ :: ds => Text.digitsValue ds
      | [] => 0
    .real (.ofDecimal false (Text.digitsValue (whole ++ fraction)) (exponent - fraction.length))

/-- Marks of two characters; every other mark is a single one. -/
def doubleMarks : List String := ["<>", "<=", ">=", "!=", "==", "||", "<<", ">>", "->"]

def singleMarks : List Char :=
  ['(', ')', ',', ';', '.', '*', '+', '-', '/', '%', '=', '<', '>', '&', '|', '~']

/-- The text after a comment that runs to `*/`. -/
def skipComment : List Char → List Char
  | [] => []
  | '*' :: '/' :: rest => rest
  | _ :: rest => skipComment rest

/-- The kind of the token at the front of a text that does not begin with
a blank, and the text after it. -/
def readKind (cs : List Char) : TokenKind × List Char :=
  match cs with
  | [] => (.illegal, [])
  | '\x27' :: rest => match readQuoted '\x27' rest with
    | some (s, rest) => (.string (String.ofList s), rest)
    | none => (.illegal, [])
  | '[' :: rest =>
    if rest.contains ']' then
      (.name (String.ofList (rest.takeWhile (· != ']'))), (rest.dropWhile (· != ']')).drop 1)
    else (.illegal, [])
  | '?' :: rest =>
    let digits := rest.takeWhile Text.isDigit
    (.param (if digits.isEmpty then none else some (Text.digitsValue digits)),
      rest.dropWhile Text.isDigit)
  | c :: rest =>
    let next := rest.headD ' '
    if c = '"' ∨ c = '\x60' then match readQuoted c rest with
      | some (s, rest) => (.name (String.ofList s), rest)
      | none => (.illegal, [])
    else if (c = 'x' ∨ c = 'X') ∧ next = '\x27' then
      match readQuoted '\x27' (rest.drop 1) with
      | some (digits, rest) => ((hexBytes? digits).elim .illegal .blob, rest)
      | none => (.illegal, [])
    else if isWordStart c then (.word, rest.dropWhile isWordPart)
    else if c = '$' ∧ Text.isDigit next then
      (.param (some (Text.digitsValue (rest.takeWhile Text.isDigit))),
        rest.dropWhile Text.isDigit)
    else if Text.isDigit c ∨ (c = '.' ∧ Text.isDigit next) then
      let (text, rest) := numberText cs
      if (rest.takeWhile isWordPart).isEmpty then (.number (numberCell text), rest)
      else (.illegal, rest.dropWhile isWordPart)
    else if doubleMarks.contains (String.ofList [c, next]) then (.mark, rest.drop 1)
    else if singleMarks.contains c then (.mark, rest)
    else (.illegal, rest)

/-- The text up to a later part of it. -/
def upTo (cs later : List Char) : String := String.ofList (cs.take (cs.length - later.length))

/-- The tokens of a text, with a bound on their number. The text from the
end of the last token is kept for the gap. -/
def scanFrom : Nat → List Char → List Char → List Token
  | 0, _, _ => []
  | fuel + 1, last, cs =>
    match cs.dropWhile isBlank with
    | [] => []
    | '-' :: '-' :: rest => scanFrom fuel last (rest.dropWhile (· != '\n'))
    | '/' :: '*' :: rest => scanFrom fuel last (skipComment rest)
    | cs =>
      let (kind, rest) := readKind cs
      ⟨kind, upTo cs rest, upTo last cs⟩ :: scanFrom fuel rest rest

/-- The tokens of a text. -/
def scan (text : String) : List Token := scanFrom (text.length + 1) text.toList text.toList

/-- Whether a token is the given keyword, in any case of letters. -/
def isWord (t : Token) (keyword : String) : Bool :=
  t.kind == .word && Text.lowered t.text == keyword

def isMark (t : Token) (mark : String) : Bool := t.kind == .mark && t.text == mark

/-- Words that are no names. -/
def reserved : List String :=
  ["add", "all", "alter", "and", "as", "between", "case", "check", "collate", "commit",
   "constraint", "create", "default", "delete", "distinct", "drop", "else", "escape", "exists",
   "foreign", "from", "group", "having", "in", "index", "insert", "into", "is", "isnull", "join",
   "limit", "not", "notnull", "null", "on", "or", "order", "primary", "references", "select",
   "set", "table", "then", "to", "transaction", "union", "unique", "update", "using", "values",
   "when", "where"]

/-- The name a token is, if it is one. -/
def name? (t : Token) : Option String :=
  match t.kind with
  | .name s => some s
  | .word => if reserved.contains (Text.lowered t.text) then none else some t.text
  | _ => none

end Token

end StoreBench.Sql
