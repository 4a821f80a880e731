import StoreBench.Sql.Token

/-!
# `StoreBench.Sql.Reader`: reading SQL

`Instruction.ofText` reads instructions, with semicolons between them. A
text that is none is refused
at the first token that cannot stand where it does, or as incomplete where
it ends too early. Expressions are read by levels of binding strength, with
the number of tokens as the bound on their depth.
-/

set_option autoImplicit false

namespace StoreBench.Sql

/-- A reader of tokens. -/
abbrev Reader := StateT (List Token) Judged

namespace Reader

/-! ### Single tokens -/

/-- Refuses the token under the reader. -/
def refuse {α : Type} : Reader α := do
  match ← get with
  | [] => throw .incomplete
  | token :: _ =>
    if token.kind == .illegal then throw (.unrecognized token.text)
    else throw (.unexpected token.text)

def peek : Reader (Option Token) := return (← get).head?

def advance : Reader Unit := modify (List.drop 1)

/-- Whether the given keyword comes next; it is passed if so. -/
def tryWord (keyword : String) : Reader Bool := do
  match ← peek with
  | some token => if token.isWord keyword then advance *> pure true else pure false
  | none => pure false

def tryMark (mark : String) : Reader Bool := do
  match ← peek with
  | some token => if token.isMark mark then advance *> pure true else pure false
  | none => pure false

def word (keyword : String) : Reader Unit := do
  if ← tryWord keyword then pure () else refuse

def words (keywords : List String) : Reader Unit := keywords.forM word

def mark (m : String) : Reader Unit := do
  if ← tryMark m then pure () else refuse

/-- Several keywords that come together or not at all. -/
def tryWords : List String → Reader Bool
  | [] => pure true
  | first :: rest => do
    if ← tryWord first then
      words rest
      pure true
    else pure false

def name : Reader String := do
  match (← peek).bind Token.name? with
  | some n => advance *> pure n
  | none => refuse

/-- One item or several between commas. -/
def separated {α : Type} (item : Reader α) : Nat → Reader (List α)
  | 0 => return [← item]
  | fuel + 1 => do
    let first ← item
    if ← tryMark "," then return first :: (← separated item fuel) else return [first]

/-- Items between commas, as many as there are tokens for. -/
def list {α : Type} (item : Reader α) : Reader (List α) := do
  separated item (← get).length

def parenthesized {α : Type} (inner : Reader α) : Reader α := do
  mark "("
  let a ← inner
  mark ")"
  return a

/-! ### Expressions -/

/-- Operators of the same strength, by the marks or words they are
written as. -/
def operatorLevels : List (List (String × Operator)) :=
  [ [("or", .or)],
    [("and", .and)],
    [("=", .equal), ("==", .equal), ("<>", .unequal), ("!=", .unequal)],
    [("<=", .lessEqual), (">=", .greaterEqual), ("<", .less), (">", .greater)],
    [("+", .plus), ("-", .minus)],
    [("*", .times), ("/", .over), ("%", .modulo)],
    [("||", .join)] ]

/-- The operator that comes next, if it is one of those given. -/
def tryOperator : List (String × Operator) → Reader (Option Operator)
  | [] => pure none
  | (text, op) :: rest => do
    if ← tryMark text then return some op
    else if ← tryWord text then return some op
    else tryOperator rest

/-- Operands of one level, joined from the left. -/
def joined (operators : List (String × Operator)) (operand : Reader Expr) :
    Nat → Expr → Reader Expr
  | 0, left => pure left
  | fuel + 1, left => do
    match ← tryOperator operators with
    | some op => joined operators operand fuel (.binary op left (← operand))
    | none => pure left

/-- An operand with the levels of operators above it, weakest first. -/
def levels (operand : Reader Expr) : List (List (String × Operator)) → Reader Expr
  | [] => operand
  | operators :: stronger => do
    let left ← levels operand stronger
    joined operators (levels operand stronger) (← get).length left

/-- The name of a type: words, and perhaps sizes in parentheses. -/
def typeName : Nat → Reader String
  | 0 => pure ""
  | fuel + 1 => do
    match (← peek).bind Token.name? with
    | some first =>
      advance
      let rest ← typeName fuel
      return if rest.isEmpty then first else s!"{first} {rest}"
    | none =>
      if ← tryMark "(" then
        let sizes ← list do
          match ← peek with
          | some ⟨.number _, text, _⟩ => advance *> pure text
          | _ => refuse
        mark ")"
        return "(" ++ ",".intercalate sizes ++ ")"
      else pure ""

/-- What may follow an operand: a test for null or a list of choices. -/
def suffixed (expr : Reader Expr) (a : Expr) : Reader Expr := do
  if ← tryWord "is" then
    let negated ← tryWord "not"
    word "null"
    return .isNull a negated
  else if ← tryWord "in" then
    mark "("
    if ← tryMark ")" then return .isIn a []
    let choices ← list expr
    mark ")"
    return .isIn a choices
  else return a

/-- What follows a name, which may be quoted: the arguments of a call, or a
column of it. -/
def named (expr : Reader Expr) (quoted : Bool) (first : String) : Reader Expr := do
  if ← tryMark "(" then
    if ← tryMark "*" then
      mark ")"
      if Text.lowered first = "count" then return .countRows else throw (.noSuchFunction first)
    if ← tryMark ")" then return .call (Text.lowered first) []
    let args ← list expr
    mark ")"
    return .call (Text.lowered first) args
  else if ← tryMark "." then return .column (some first) (← name)
  else if quoted then return .quoted first
  else return .column none first

/-- An operand with a minus sign in front. A number takes its sign with it,
zero included, and the least word is a whole number although the number
behind the sign alone is none. -/
def negated (next : Option Token) (operand : Reader Expr) : Reader Expr :=
  match next with
  | some token =>
    if token.text.toList.all Text.isDigit && Text.digitsValue token.text.toList == 2 ^ 63 then
      advance *> pure (.literal (.int (-2 ^ 63)))
    else do
      match ← operand with
      | .literal (.real x) => return .literal (.real x.neg)
      | e => return .negate e
  | none => refuse

/-- An operand, nested at most as deep as the bound. -/
def operand : Nat → Reader Expr
  | 0 => refuse
  | fuel + 1 => do
    let deeper := operand fuel
    let expr := levels deeper operatorLevels
    match ← peek with
    | none => throw .incomplete
    | some token =>
      let a ← match token.kind with
        | .number c => advance *> pure (.literal c)
        | .string s => advance *> pure (.literal (.text s))
        | .blob bytes => advance *> pure (.literal (.blob bytes))
        | .param index => advance *> pure (.param (index.getD 0))
        | .illegal => refuse
        | .mark =>
          if token.isMark "(" then parenthesized expr
          else if token.isMark "+" then advance *> deeper
          else if token.isMark "-" then do
            advance
            negated (← peek) deeper
          else refuse
        | .word | .name _ =>
          if token.isWord "null" then advance *> pure (.literal .null)
          else if token.isWord "true" then advance *> pure (.literal (.int 1))
          else if token.isWord "false" then advance *> pure (.literal (.int 0))
          else if token.isWord "not" then do
            advance
            return .not (← levels deeper (operatorLevels.drop 2))
          else if token.isWord "cast" then do
            advance
            parenthesized do
              let a ← expr
              word "as"
              return .cast a (← typeName (← get).length)
          else do named expr (token.text.startsWith "\"") (← name)
      suffixed expr a

/-- An expression, nested at most as deep as the bound. -/
def expr (depth : Nat) : Reader Expr := levels (operand depth) operatorLevels

/-- An expression within the tokens that are left. -/
def anyExpr : Reader Expr := do expr ((← get).length + 1)

/-- The text that a reader passes. -/
def withText {α : Type} (reader : Reader α) : Reader (α × String) := do
  let before ← get
  let a ← reader
  match before.take (before.length - (← get).length) with
  | [] => return (a, "")
  | first :: rest => return (a, first.text ++ "".intercalate (rest.map fun t => t.gap ++ t.text))

/-! ### Clauses -/

def optional {α : Type} (keyword : String) (reader : Reader α) : Reader (Option α) := do
  if ← tryWord keyword then return some (← reader) else return none

/-- The name given to a result column, which may be written as a string. -/
def tryResultName : Reader (Option String) := do
  match ← peek with
  | some ⟨.string s, _, _⟩ => advance *> pure (some s)
  | some token => match token.name? with
    | some n => advance *> pure (some n)
    | none => pure none
  | none => pure none

/-- A result column. Without a name of its own it goes by its column's
name, or by its text. -/
def selected : Reader Selected := do
  if ← tryMark "*" then return .everything
  let (e, text) ← withText anyExpr
  let mustName ← tryWord "as"
  match ← tryResultName with
  | some n => return .expr e n
  | none =>
    if mustName then refuse
    else match e with
      | .column _ n => return .expr e n
      | _ => return .expr e text

/-- A table with the name it goes by. -/
def source : Reader (String × String) := do
  let table ← name
  if ← tryWord "as" then return (table, ← name)
  match (← peek).bind Token.name? with
  | some knownAs => advance *> pure (table, knownAs)
  | none => return (table, table)

/-- The tables joined to the first one. -/
def joins : Nat → Reader (List Source)
  | 0 => pure []
  | fuel + 1 => do
    let inner ← tryWord "inner"
    if ← tryWord "join" then
      let (table, knownAs) ← source
      let condition ← optional "on" anyExpr
      return ⟨table, knownAs, condition⟩ :: (← joins fuel)
    else if inner then refuse
    else return []

/-- The tables of a selection, with how they are joined. -/
def sources : Reader (List Source) := do
  let (table, knownAs) ← source
  return ⟨table, knownAs, none⟩ :: (← joins (← get).length)

def ordering : Reader (Expr × Bool) := do
  let e ← anyExpr
  if ← tryWord "desc" then return (e, true)
  let _ ← tryWord "asc"
  return (e, false)

/-- A selection, after its first word. -/
def select : Reader Select := do
  let columns ← list selected
  let sources ← optional "from" sources
  let condition ← optional "where" anyExpr
  let groupBy ← optional "group" (word "by" *> list anyExpr)
  let having ← optional "having" anyExpr
  let orderBy ← optional "order" (word "by" *> list ordering)
  return { columns, sources := sources.getD [], condition, groupBy := groupBy.getD [], having,
           orderBy := orderBy.getD [] }

/-- One column of a table to be created. -/
def column : Reader Column := do
  let n ← name
  let type ← typeName (← get).length
  let key ← tryWords ["primary", "key"]
  let notNull ← tryWords ["not", "null"]
  let key := key || (← tryWords ["primary", "key"])
  return ⟨n, type, notNull, key⟩

/-- The columns and the key of a table to be created. -/
def columns : Nat → Reader (List Column × List String)
  | 0 => refuse
  | fuel + 1 => do
    if ← tryWords ["primary", "key"] then
      let key ← parenthesized (list name)
      return ([], key)
    let first ← column
    if ← tryMark "," then
      let (rest, key) ← columns fuel
      return (first :: rest, key)
    else return ([first], [])

def skipExisting : Reader Bool := tryWords ["if", "not", "exists"]

/-- What is created, after the word for it. -/
def create : Reader Instruction := do
  if ← tryWord "table" then
    let skip ← skipExisting
    let table ← name
    let (columns, key) ← parenthesized do columns (← get).length
    let ownKey := (columns.filter Column.isKey).map Column.name
    return .createTable table skip columns (if key.isEmpty then ownKey else key)
  else if ← tryWord "index" then
    let skip ← skipExisting
    let index ← name
    word "on"
    let table ← name
    let columns ← parenthesized (list name)
    return .createIndex index skip table columns
  else refuse

def insert : Reader Instruction := do
  word "into"
  let table ← name
  let columns ← if ← tryMark "(" then
      let names ← list name
      mark ")"
      pure (some names)
    else pure none
  word "values"
  let rows ← list (parenthesized (list anyExpr))
  let skip ← tryWords ["on", "conflict", "do", "nothing"]
  return .insert table columns rows skip

def assignment : Reader (String × Expr) := do
  let n ← name
  mark "="
  return (n, ← anyExpr)

/-- One statement, by the words that it begins with. -/
def instruction : Reader Instruction := do
  if ← tryWord "select" then return .select (← select)
  else if ← tryWord "insert" then insert
  else if ← tryWord "update" then
    let table ← name
    word "set"
    let assignments ← list assignment
    return .update table assignments (← optional "where" anyExpr)
  else if ← tryWord "delete" then
    word "from"
    let table ← name
    return .delete table (← optional "where" anyExpr)
  else if ← tryWord "create" then create
  else if ← tryWord "drop" then
    word "table"
    let skip ← tryWords ["if", "exists"]
    return .dropTable (← name) skip
  else refuse

/-- An instruction and nothing after it. -/
def whole : Reader Instruction := do
  let i ← instruction
  let _ ← tryMark ";"
  match ← peek with
  | none => return i
  | some _ => refuse

end Reader

/-- Parameters without a number get the one after the highest before them. -/
def numberParams : Nat → List Token → List Token
  | _, [] => []
  | highest, token :: rest =>
    match token.kind with
    | .param none =>
      { token with kind := .param (some (highest + 1)) } :: numberParams (highest + 1) rest
    | .param (some n) => token :: numberParams (max highest n) rest
    | _ => token :: numberParams highest rest

/-- Tokens up to each semicolon and with it, where more than the semicolon
is there. -/
def cutTokens : List Token → List (List Token)
  | [] => []
  | token :: rest =>
    if token.isMark ";" then [token] :: cutTokens rest
    else match cutTokens rest with
      | [] => [[token]]
      | first :: others => (token :: first) :: others

/-- The instructions that a text writes, each of them read by itself. -/
def Instruction.ofText (text : String) : List (Judged Instruction) :=
  let parts := (cutTokens (numberParams 0 (Token.scan text))).filter fun part =>
    !part.all fun token => token.isMark ";"
  parts.map fun part => (Reader.whole.run part).map Prod.fst

end StoreBench.Sql
