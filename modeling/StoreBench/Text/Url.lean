import StoreBench.Text.Utf8
import StoreBench.Text.Digits
import StoreBench.Text.Pieces

/-!
# `StoreBench.Text.Url`: addresses

`Url.parse` takes an address apart into scheme, host, port, path and
query, and says what is wrong with one that has no such parts. Only the
schemes of the web demand a host. `queryPairs` reads the parameters of a
query.
-/

set_option autoImplicit false

namespace StoreBench.Url

/-- Why a text is no address. -/
inductive Flaw
  | noScheme
  | emptyHost
  | badPort
  | badAddress
  | badDomain
deriving DecidableEq, Repr, Inhabited

def Flaw.message : Flaw → String
  | noScheme => "relative URL without a base"
  | emptyHost => "empty host"
  | badPort => "invalid port number"
  | badAddress => "invalid IPv6 address"
  | badDomain => "invalid domain character"

/-- An address in its parts. -/
structure Parts where
  scheme : String
  host : Option String
  port : Option Nat
  path : String
  query : Option String
deriving DecidableEq, Repr, Inhabited

/-! ### Percent signs -/

/-- The bytes of a text in UTF-8. -/
def bytesOf (cs : List Char) : List UInt8 := (String.ofList cs).toUTF8.toList

/-- The bytes of a text in which a percent sign with two hexadecimal
digits stands for a byte. -/
def percentBytes : List Char → List UInt8
  | [] => []
  | ['%'] => bytesOf ['%']
  | ['%', c] => bytesOf ['%', c]
  | '%' :: a :: b :: rest =>
    match Text.hexValue? a, Text.hexValue? b with
    | some x, some y => UInt8.ofNat (x * 16 + y) :: percentBytes rest
    | _, _ => bytesOf ['%'] ++ percentBytes (a :: b :: rest)
  | c :: rest => bytesOf [c] ++ percentBytes rest

/-- The text of such bytes; what is no text shows as replacement marks. -/
def percentText (cs : List Char) : String :=
  match Utf8.decode (percentBytes cs) with
  | .ok s => s
  | .error _ => "\uFFFD"

/-- The names and values of a query. -/
def queryPairs (query : String) : List (String × String) :=
  let parts := (Text.pieces '&' query.toList).filter fun part => !part.isEmpty
  let decode (cs : List Char) : String := percentText (cs.map fun c => if c = '+' then ' ' else c)
  parts.map fun part =>
    (decode (part.takeWhile (· != '=')), decode ((part.dropWhile (· != '=')).drop 1))

/-! ### Parts -/

def isLetter (c : Char) : Bool := ('a' ≤ c && c ≤ 'z') || ('A' ≤ c && c ≤ 'Z')

/-- The scheme in front of the first colon. -/
def scheme? (cs : List Char) : Option (String × List Char) :=
  let name := cs.takeWhile fun c =>
    isLetter c || Text.isDigit c || c == '+' || c == '-' || c == '.'
  match name, cs.drop name.length with
  | first :: _, ':' :: rest =>
    if isLetter first then some (String.ofList (name.map Char.toLower), rest) else none
  | _, _ => none

/-- Schemes whose addresses always have a host. -/
def webSchemes : List String := ["http", "https", "ws", "wss", "ftp"]

/-- Characters that a host cannot hold. -/
def forbidden : List Char :=
  ['\x00', '\t', '\n', '\r', ' ', '#', '/', ':', '<', '>', '?', '@', '[', '\\', ']', '^', '|']

/-- The host in front of a port. -/
def readHost (cs : List Char) : Except Flaw (List Char × List Char) :=
  match cs with
  | '[' :: rest =>
    if rest.contains ']' then
      let inner := rest.takeWhile (· != ']')
      let isAddress := inner.contains ':' && inner.all fun c =>
        (Text.hexValue? c).isSome || c == ':' || c == '.'
      if isAddress then .ok ('[' :: inner ++ [']'], (rest.dropWhile (· != ']')).drop 1)
      else .error .badAddress
    else .error .badAddress
  | cs =>
    let host := cs.takeWhile (· != ':')
    if host.any forbidden.contains then .error .badDomain else .ok (host, cs.drop host.length)

/-- The port after a host. -/
def readPort (cs : List Char) : Except Flaw (Option Nat) :=
  match cs with
  | [] => .ok none
  | ':' :: digits =>
    if digits.isEmpty then .ok none
    else if digits.all Text.isDigit && Text.digitsValue digits < 65536 then
      .ok (some (Text.digitsValue digits))
    else .error .badPort
  | _ => .error .badPort

/-- Host and port from between the slashes, after the user if one is
given. -/
def readAuthority (web : Bool) (cs : List Char) : Except Flaw (Option String × Option Nat) := do
  let reversed := cs.reverse
  let hostAndPort := (reversed.takeWhile (· != '@')).reverse
  let hasUser := reversed.contains '@'
  let (host, rest) ← readHost hostAndPort
  if host.isEmpty ∧ (web ∨ hasUser ∨ !rest.isEmpty) then throw .emptyHost
  let port ← readPort rest
  return (if host.isEmpty then none else some (String.ofList host), port)

/-- Takes an address apart. -/
def parse (text : String) : Except Flaw Parts := do
  let isEdge (c : Char) : Bool := c.toNat ≤ 0x20
  let trimmed := ((text.toList.dropWhile isEdge).reverse.dropWhile isEdge).reverse
  let cs := trimmed.filter fun c => !(c == '\t' || c == '\n' || c == '\r')
  match scheme? cs with
  | none => throw .noScheme
  | some (scheme, rest) =>
    let body := rest.takeWhile (· != '#')
    let before := body.takeWhile (· != '?')
    let query := if body.contains '?'
      then some (String.ofList ((body.dropWhile (· != '?')).drop 1)) else none
    let web := webSchemes.contains scheme
    let slashes := before.takeWhile fun c => c == '/'
    if web ∨ 2 ≤ slashes.length then
      let after := before.drop (if web then slashes.length else 2)
      let authority := after.takeWhile (· != '/')
      let (host, port) ← readAuthority web authority
      return ⟨scheme, host, port, String.ofList (after.drop authority.length), query⟩
    else return ⟨scheme, none, none, String.ofList before, query⟩

end StoreBench.Url
