import StoreBench.Json.Basic
import StoreBench.Number.Text

/-!
# `StoreBench.Json.Printer`: the text of a document

`write` is the compact form, without blanks. `renderIndented` puts each
field of an object on a line of its own, after two blanks. Inside a string only
the quote, the backslash and the controls below the blank are escaped.
-/

set_option autoImplicit false

namespace StoreBench.Json

/-- One character of a string. -/
def escapeChar (c : Char) : List Char :=
  if c = '"' then ['\\', '"']
  else if c = '\\' then ['\\', '\\']
  else if c = '\x08' then ['\\', 'b']
  else if c = '\t' then ['\\', 't']
  else if c = '\n' then ['\\', 'n']
  else if c = '\x0c' then ['\\', 'f']
  else if c = '\r' then ['\\', 'r']
  else if c.toNat < 0x20 then
    ['\\', 'u', '0', '0', Nat.digitChar (c.toNat / 16), Nat.digitChar (c.toNat % 16)]
  else [c]

/-- A string with its quotes. -/
def writeString (s : String) : List Char :=
  '"' :: (s.toList.flatMap escapeChar ++ ['"'])

def openBrace : Char := Char.ofNat 123
def closeBrace : Char := Char.ofNat 125

/-- Parts with commas between them. -/
def commaJoin : List (List Char) → List Char
  | [] => []
  | [p] => p
  | p :: rest => p ++ ',' :: commaJoin rest

mutual

/-- The compact text of a document. -/
def write : Json → List Char
  | .null => "null".toList
  | .bool true => "true".toList
  | .bool false => "false".toList
  | .int i => intText i
  | .float x => x.json
  | .str s => writeString s
  | .arr items => '[' :: (commaJoin (writeItems items) ++ [']'])
  | .obj fields => openBrace :: (commaJoin (writeFields fields) ++ [closeBrace])

/-- The items of a list, each written. -/
def writeItems : List Json → List (List Char)
  | [] => []
  | item :: rest => write item :: writeItems rest

/-- The fields of an object, each with its name. -/
def writeFields : List (String × Json) → List (List Char)
  | [] => []
  | (name, value) :: rest => (writeString name ++ ':' :: write value) :: writeFields rest

end

/-- A value as text, without blanks. -/
def render (j : Json) : String := String.ofList (write j)

/-- Lines of an object whose fields are not containers, or the compact
text of any other document. -/
def renderIndented : Json → String
  | .obj [] => String.ofList [openBrace, closeBrace]
  | .obj fields =>
    let lines := fields.map fun f => "  " ++ String.ofList (writeString f.1) ++ ": " ++ f.2.render
    String.ofList [openBrace, '\n'] ++ ",\n".intercalate lines ++ String.ofList ['\n', closeBrace]
  | other => other.render

end StoreBench.Json
