import StoreBench.Sql.Instruction
import StoreBench.Sql.Total

/-!
# `StoreBench.Sql.Eval`: the value of an expression

An expression is evaluated on the row under it and, where rows are
grouped, on the rows of the group. `Expr.check` refuses before any row is
looked at what no row could make good: columns that no table has, and
functions that do not exist or stand where no group is.
-/

set_option autoImplicit false

namespace StoreBench.Sql

/-- One column of the row under evaluation. -/
structure Bound where
  source : String
  name : String
  affinity : Affinity
  cell : Cell
deriving Repr, Inhabited

/-- What an expression is evaluated on. -/
structure Env where
  params : List Cell
  row : List Bound
  group : List (List Bound)

/-- Names are the same when they differ at most in the case of letters,
which changes no size. -/
def sameName (a b : String) : Bool :=
  a == b || (a.utf8ByteSize == b.utf8ByteSize && Text.lowered a == Text.lowered b)

/-- The columns that a reference may mean. -/
def candidates (row : List Bound) (source : Option String) (name : String) : List Bound :=
  row.filter fun b => sameName b.name name && source.all fun s => sameName b.source s

/-- A reference as it is written. -/
def referenceText : Option String → String → String
  | some source, name => s!"{source}.{name}"
  | none, name => name

def aggregates : List String := ["count", "sum"]

/-! ### Refusals ahead of evaluation -/

namespace Expr

mutual

/-- Refuses an expression that has no value on rows with these columns. -/
def check (row : List Bound) (grouped : Bool) : Expr → Judged Unit
  | literal _ | param _ => .ok ()
  | column source name =>
    match candidates row source name with
    | [_] => .ok ()
    | [] => .error (.noSuchColumn (referenceText source name))
    | _ => .error (.ambiguousColumn (referenceText source name))
  | quoted name => match candidates row none name with
    | [] | [_] => .ok ()
    | _ => .error (.ambiguousColumn name)
  | binary _ a b => do
    check row grouped a
    check row grouped b
  | negate a | not a | isNull a _ | cast a _ => check row grouped a
  | isIn a choices => do
    check row grouped a
    checkAll row grouped choices
  | countRows => if grouped then .ok () else .error (.misusedAggregate "COUNT")
  | call function args =>
    if aggregates.contains function then
      if grouped then checkAll row false args else .error (.misusedAggregate function)
    else if function == "json_insert" then checkAll row grouped args
    else .error (.noSuchFunction function)

def checkAll (row : List Bound) (grouped : Bool) : List Expr → Judged Unit
  | [] => .ok ()
  | e :: rest => do
    check row grouped e
    checkAll row grouped rest

end

mutual

/-- Whether an expression speaks of a group. -/
def isAggregate : Expr → Bool
  | literal _ | param _ | column _ _ | quoted _ => false
  | binary _ a b => isAggregate a || isAggregate b
  | negate a | not a | isNull a _ | cast a _ => isAggregate a
  | isIn a choices => isAggregate a || anyAggregate choices
  | countRows => true
  | call function args => aggregates.contains function || anyAggregate args

def anyAggregate : List Expr → Bool
  | [] => false
  | e :: rest => isAggregate e || anyAggregate rest

end

/-- The affinity of the column that an expression is, if it is one. -/
def affinity (row : List Bound) : Expr → Affinity
  | column source name => match candidates row source name with
    | b :: _ => b.affinity
    | [] => .none
  | quoted name => match candidates row none name with
    | b :: _ => b.affinity
    | [] => .none
  | cast _ type => .ofType type
  | _ => .none

end Expr

/-! ### Operators and functions -/

namespace Cell

/-- A cell as a number; text without one counts as zero. -/
def toNumber : Cell → Cell
  | null => null
  | int i => int i
  | real x => real x
  | text s => (Affinity.numberOfText? s).getD (int 0)
  | brokenText _ | blob _ => int 0

/-- Arithmetic on two cells: whole while both are and the result fits a
word, fractional otherwise. -/
def arithmetic (onInts : Int → Int → Int) (onReals : Double → Double → Double) (a b : Cell) :
    Cell :=
  match a.toNumber, b.toNumber with
  | null, _ | _, null => null
  | int i, int j =>
    let k := onInts i j
    if -2 ^ 63 ≤ k ∧ k < 2 ^ 63 then int k else ofReal (onReals (.ofInt i) (.ofInt j))
  | x, y => ofReal (onReals (x.toDouble?.getD .zero) (y.toDouble?.getD .zero))

/-- The quotient of two cells, whole where both are, and null by zero. -/
def quotient (a b : Cell) : Cell :=
  match a.toNumber, b.toNumber with
  | null, _ | _, null => null
  | int i, int j =>
    if j = 0 then null
    else
      let k := i.tdiv j
      if k < 2 ^ 63 then int k else real ((Double.ofInt i).div (.ofInt j))
  | x, y =>
    let (x, y) := (x.toDouble?.getD .zero, y.toDouble?.getD .zero)
    if y.isZero then null else ofReal (x.div y)

/-- A number without its places, within the words. -/
def truncated : Cell → Int
  | int i => i
  | real x =>
    let (num, den) := x.fraction
    if x.isNegative then max (-(num / den : Nat) : Int) (-2 ^ 63)
    else min (num / den : Nat) (2 ^ 63 - 1)
  | _ => 0

/-- The remainder of two cells without their places, and null by zero. -/
def remainder (a b : Cell) : Cell :=
  match a.toNumber, b.toNumber with
  | null, _ | _, null => null
  | x, y =>
    if y.truncated = 0 then null
    else
      let r := x.truncated.tmod y.truncated
      match x, y with
      | int _, int _ => int r
      | _, _ => real (.ofInt r)

/-- Two cells as text, one behind the other. -/
def append (a b : Cell) : Cell :=
  match Affinity.text.convert a, Affinity.text.convert b with
  | text s, text t => text (s ++ t)
  | _, _ => null

/-- Compares two cells, to null if one of them is. -/
def compareBy (test : Ordering → Bool) (a b : Cell) : Cell :=
  if a.isNull || b.isNull then null else ofBool (test (a.order b))

/-- Both hold, where null is not known to hold or not. -/
def conjunction (a b : Cell) : Cell :=
  if (!a.isNull && !a.isTrue) || (!b.isNull && !b.isTrue) then ofBool false
  else if a.isNull || b.isNull then null
  else ofBool true

/-- The opposite of a truth value. That of null is null. -/
def complement (a : Cell) : Cell := if a.isNull then null else ofBool !a.isTrue

/-- One of them holds. -/
def disjunction (a b : Cell) : Cell := complement (conjunction (complement a) (complement b))

/-- A value as one of another type. -/
def castTo (type : String) (c : Cell) : Cell :=
  match Affinity.ofType type, c with
  | .text, blob bytes => ofBytes bytes
  | .none, c => c
  | _, null => null
  | .text, c => Affinity.text.convert c
  | .integer, c => int c.toNumber.truncated
  | affinity, c => affinity.convert c.toNumber

/-- The text of a list with an item appended, from the text of the list. -/
def appendJson (list item : Cell) : Judged Cell :=
  match list with
  | null => .ok null
  | text s =>
    let added : Json := match item with
      | null => .null
      | int i => .int i
      | real x => .float x
      | text s => .str s
      | brokenText _ | blob _ => .null
    match Json.parse s with
    | .ok (.arr items) => .ok (text (Json.arr (items ++ [added])).render)
    | .ok other => .ok (text other.render)
    | .error _ => .error .malformedJson
  | int i => .ok (text (String.ofList (intText i)))
  | real x => .ok (text (Affinity.realText x))
  | brokenText _ | blob _ => .error .malformedJson

/-- A cell as an item of a sum. Text that is no number makes the sum
fractional, as zero. -/
def summand : Cell → Cell
  | text s => (Affinity.numberOfText? s).getD (real .zero)
  | brokenText _ | blob _ => real .zero
  | c => c

/-- The sum of the cells that are not null. -/
def sum (cells : List Cell) : Judged Cell :=
  let items := (cells.filter fun c => !c.isNull).map summand
  if items.isEmpty then .ok null
  else match (items.foldl Total.add .zero).cell? with
    | some c => .ok c
    | none => .error .integerOverflow

end Cell

def Operator.apply (op : Operator) (a b : Cell) : Cell :=
  match op with
  | .plus => a.arithmetic (· + ·) Double.add b
  | .minus => a.arithmetic (· - ·) Double.sub b
  | .times => a.arithmetic (· * ·) Double.mul b
  | .over => a.quotient b
  | .modulo => a.remainder b
  | .join => a.append b
  | .equal => a.compareBy (· == .eq) b
  | .unequal => a.compareBy (· != .eq) b
  | .less => a.compareBy (· == .lt) b
  | .lessEqual => a.compareBy (· != .gt) b
  | .greater => a.compareBy (· == .gt) b
  | .greaterEqual => a.compareBy (· != .lt) b
  | .and => a.conjunction b
  | .or => a.disjunction b

def Operator.isComparison : Operator → Bool
  | .equal | .unequal | .less | .lessEqual | .greater | .greaterEqual => true
  | _ => false

/-! ### Evaluation -/

namespace Expr

mutual

/-- The value of an expression in a row, or in a group of rows. -/
def eval (env : Env) : Expr → Judged Cell
  | literal c => .ok c
  | param index => .ok ((env.params[index - 1]?).getD .null)
  | column source name =>
    match candidates env.row source name with
    | b :: _ => .ok b.cell
    | [] => .error (.noSuchColumn (referenceText source name))
  -- A quoted name that means no column is a text.
  | quoted name => match candidates env.row none name with
    | b :: _ => .ok b.cell
    | [] => .ok (.text name)
  | binary op a b => do
    let x ← eval env a
    let y ← eval env b
    if op.isComparison then
      let (left, right) := Affinity.forComparison (a.affinity env.row) (b.affinity env.row)
      return op.apply (left.convert x) (right.convert y)
    else return op.apply x y
  | negate a => do return (Cell.int 0).arithmetic (· - ·) Double.sub (← eval env a)
  | not a => do return (← eval env a).complement
  | isNull a negated => do return .ofBool ((← eval env a).isNull != negated)
  | isIn a choices => do
    let x ← eval env a
    let affinity := a.affinity env.row
    let tests := (← evalAll env choices).map fun y => x.compareBy (· == .eq) (affinity.convert y)
    return tests.foldl Cell.disjunction (.ofBool false)
  | cast a type => do return (← eval env a).castTo type
  | countRows => .ok (.int env.group.length)
  | call function args =>
    if function == "count" then do
      let cells ← evalColumn env.params env.group args
      return .int (cells.filter fun c => !c.isNull).length
    else if function == "sum" then do
      Cell.sum (← evalColumn env.params env.group args)
    else do
      match ← evalAll env args with
      | [list, .text "$[#]", item] => list.appendJson item
      | list :: _ => return list
      | [] => return .null

def evalAll (env : Env) : List Expr → Judged (List Cell)
  | [] => .ok []
  | e :: rest => do
    let c ← eval env e
    let cs ← evalAll env rest
    return c :: cs

/-- The first argument of an aggregate on every row of a group. -/
def evalColumn (params : List Cell) (rows : List (List Bound)) : List Expr → Judged (List Cell)
  | [] => .ok (rows.map fun _ => .int 1)
  | e :: _ => rows.mapM fun row => eval ⟨params, row, []⟩ e

end

/-- Whether a row meets a condition, which may be absent. -/
def holds (env : Env) : Option Expr → Judged Bool
  | none => .ok true
  | some e => do return (← e.eval env).isTrue

end Expr

end StoreBench.Sql
