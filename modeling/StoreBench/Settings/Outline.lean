import StoreBench.Json.Basic
import StoreBench.Number.Scan
import StoreBench.Text.Pieces

/-!
# `StoreBench.Settings.Outline`: indented settings

An outline has one line for each name, `name: value`, and a line without a
value is followed by the more deeply indented lines of its group. What
follows a `#` is a comment.

Outlines are the plainest documents of YAML, and each of them has the
meaning there that it has here: a name is a word, and a value is a text in
quotes without escapes, a number, a boolean, null, or a single word. All
else that YAML has, such as lists, blocks of text, several words without
quotes, escapes, anchors or markers of a document, makes a text that is no
outline. It is refused with the number of its line, and not read in
another way than it is meant.
-/

set_option autoImplicit false

namespace StoreBench.Outline

/-- A line that holds something: its number, how far it is indented, its
name and its value, if it has one. -/
structure Line where
  number : Nat
  indent : Nat
  name : String
  value : Option Json
deriving Repr, Inhabited

/-- Why a text is no outline: the number of the first line that is not one
of an outline. -/
structure Flaw where
  line : Nat
deriving DecidableEq, Repr, Inhabited

def Flaw.message (f : Flaw) : String := s!"expected `name: value` at line {f.line}"

/-! ### Values -/

/-- Whether nothing but a comment follows what has been read of a line. -/
def isEnd : List Char → Bool
  | [] => true
  | ' ' :: rest => match rest.dropWhile (· == ' ') with
    | [] => true
    | c :: _ => c == '#'
  | _ => false

/-- The characters of a value without quotes. -/
def isPlain (c : Char) : Bool := c.isAlphanum || "_-+./:@".toList.contains c

/-- What a value without quotes stands for: null, a boolean, a number if it
reads as one, else a text. It begins with a letter, a digit or a minus,
and with no mark of a number of another base. -/
def ofWord? (word : List Char) : Option Json :=
  let s := String.ofList word
  let begins := match word with
    | '0' :: 'x' :: _ | '0' :: 'o' :: _ => false
    | '-' :: c :: _ => c.isDigit
    | c :: _ => c.isAlphanum
    | [] => false
  if !begins || word.getLast? == some ':' then none
  else if s = "null" then some .null
  else if s = "true" then some (.bool true)
  else if s = "false" then some (.bool false)
  else match scanInt? s, Double.scan? s with
    | some i, _ => some (.int i)
    | none, some x => some (.float x)
    | none, none => some (.str s)

/-- The text in a pair of quotation marks, with nothing behind it. -/
def quoted? (quote : Char) (cs : List Char) : Option Json :=
  let body := cs.takeWhile (· != quote)
  match cs.drop body.length with
  | _ :: rest =>
    if isEnd rest && !body.contains '\\' then some (.str (String.ofList body)) else none
  | [] => none

/-- The value that a text begins with, with nothing behind it. -/
def ofText? (cs : List Char) : Option Json :=
  match cs with
  | '"' :: rest => quoted? '"' rest
  | '\x27' :: rest => quoted? '\x27' rest
  | _ =>
    let word := cs.takeWhile isPlain
    if isEnd (cs.drop word.length) then ofWord? word else none

/-! ### Lines -/

def isNameChar (c : Char) : Bool := c.isAlphanum || c == '_' || c == '-'

/-- The name of a line: a word that stands for a text. -/
def nameOf? (cs : List Char) : Option String :=
  match ofWord? cs with
  | some (.str name) => some name
  | _ => none

/-- The line of a text that holds something. -/
def lineOf? (number : Nat) (cs : List Char) : Option Line := do
  let body := cs.dropWhile (· == ' ')
  let word := body.takeWhile isNameChar
  let name ← nameOf? word
  let indent := cs.length - body.length
  match body.drop word.length with
  | ':' :: rest =>
    if isEnd rest then some { number, indent, name, value := none }
    else match rest with
      | ' ' :: rest =>
        let value ← ofText? (rest.dropWhile (· == ' '))
        some { number, indent, name, value := some value }
      | _ => none
  | _ => none

/-- Whether a line holds nothing, or only a comment. -/
def isBlank (cs : List Char) : Bool :=
  match cs.dropWhile (· == ' ') with
  | [] => true
  | c :: _ => c == '#'

/-- Lines by their numbers, without those that are blank. -/
def readLines : (number : Nat) → List (List Char) → Except Flaw (List Line)
  | _, [] => .ok []
  | number, cs :: rest => do
    if isBlank cs then readLines (number + 1) rest
    else match lineOf? number cs with
      | none => .error ⟨number⟩
      | some line => return line :: (← readLines (number + 1) rest)

/-! ### Groups -/

/-- The entries of lines, in their order. A line without a value takes the more deeply
indented lines that follow it; all others of its group are indented as it is, and have
other names. -/
def group : List Line → Except Flaw (List (String × Json))
  | [] => .ok []
  | line :: rest => do
    let inner := rest.takeWhile fun l => line.indent < l.indent
    let outer := rest.dropWhile fun l => line.indent < l.indent
    let value ← match line.value, inner with
      | some value, [] => .ok value
      | some _, first :: _ => .error ⟨first.number⟩
      | none, [] => .ok .null
      | none, _ :: _ => .object <$> group inner
    let others ← group outer
    if outer.any fun l => l.indent < line.indent then .error ⟨line.number⟩
    else if others.any fun entry => entry.1 == line.name then .error ⟨line.number⟩
    else return (line.name, value) :: others
termination_by lines => lines.length
decreasing_by
  · exact Nat.lt_succ_of_le (List.dropWhile_sublist _).length_le
  · exact Nat.lt_succ_of_le (List.takeWhile_sublist _).length_le

/-- The document of an outline. -/
def parse (text : String) : Except Flaw Json := do
  return .object (← group (← readLines 1 (Text.pieces '\n' text.toList)))

end StoreBench.Outline
