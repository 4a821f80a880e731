import StoreBench.Error
import StoreBench.Sql.Instruction
import StoreBench.Text.Quoted
import StoreBench.Text.Url

/-!
# `StoreBench.Sql.Address`: where a SQL store is

A file store is addressed by the path of its file, with a scheme in front
that may be left out and parameters behind it. A file can be opened, and is
made if need be, in a directory that exists and under a name that is no
directory itself. A server is addressed by a URL.
-/

set_option autoImplicit false

namespace StoreBench.Sql

/-! ### Files -/

/-- How a file is opened. -/
structure FileAddress where
  path : String
  readOnly : Bool := false
  inMemory : Bool := false
  /-- The file layer asked for, if not the usual one. -/
  layer : Option String := none
deriving DecidableEq, Repr, Inhabited

/-- Takes every copy of `part` off the front. -/
def trimStart (part : List Char) : Nat → List Char → List Char
  | 0, cs => cs
  | fuel + 1, cs =>
    if part.isPrefixOf cs && !part.isEmpty then trimStart part fuel (cs.drop part.length) else cs

namespace FileAddress

def unknownValue (parameter value : String) : BenchError :=
  .invalidConfig s!"unknown value {Text.quoted value} for `{parameter}`"

/-- An address with one more parameter taken into account. -/
def withParameter (a : FileAddress) (name value : String) : Except BenchError FileAddress :=
  match name with
  | "mode" =>
    if value = "ro" then .ok { a with readOnly := true }
    else if value = "rw" ∨ value = "rwc" then .ok a
    else if value = "memory" then .ok { a with inMemory := true }
    else .error (unknownValue "mode" value)
  | "cache" =>
    if value = "private" ∨ value = "shared" then .ok a else .error (unknownValue "cache" value)
  | "immutable" =>
    if ["true", "1", "false", "0"].contains value then .ok a
    else .error (unknownValue "immutable" value)
  | "vfs" => .ok { a with layer := some value }
  | _ => .error (.invalidConfig
      s!"unknown query parameter `{name}` while parsing connection URL")

/-- A path with the parameters behind it. -/
def parse (address : String) : Except BenchError FileAddress := do
  let cs := address.toList
  let cs := trimStart "sqlite://".toList cs.length cs
  let cs := trimStart "sqlite:".toList cs.length cs
  let path := cs.takeWhile (· != '?')
  let start : FileAddress :=
    if path = ":memory:".toList then { path := "", inMemory := true }
    else { path := Url.percentText path }
  let query := (cs.drop path.length).drop 1
  (Url.queryPairs (String.ofList query)).foldlM (fun a p => a.withParameter p.1 p.2) start

/-- The directory that a path lies in. -/
def directory (path : String) : String :=
  let reversed := path.toList.reverse
  if reversed.contains '/' then
    let parent := ((reversed.dropWhile (· != '/')).drop 1).reverse
    if parent.isEmpty then "/" else String.ofList parent
  else "."

/-- The file layers there are. -/
def layers : List String := ["unix", "unix-dotfile", "unix-excl", "unix-none", "memdb"]

/-- Whether the file can be opened where these directories exist. -/
def check (directories : List String) (a : FileAddress) : Except BenchError Unit := do
  match a.layer with
  | some name =>
    if !layers.contains name then
      throw (.connection s!"no such vfs: {name} (code 1)")
  | none => pure ()
  let canOpen := a.inMemory || a.path.isEmpty
    || (!a.readOnly && directories.contains (directory a.path) && !directories.contains a.path)
  if !canOpen then
    throw (.connection s!"{Flaw.cannotOpen.message} (code {Flaw.cannotOpen.code})")

end FileAddress

/-! ### Servers -/

namespace ServerAddress

def sslModes : List String := ["disable", "allow", "prefer", "require", "verify-ca", "verify-full"]

/-- What is wrong with a text that should write a number. -/
def numberFlaw? (limit : Nat) (value : String) : Option String :=
  let digits := match value.toList with
    | '+' :: c :: rest => c :: rest
    | cs => cs
  if digits.isEmpty then some "cannot parse integer from empty string"
  else if !digits.all Text.isDigit then some "invalid digit found in string"
  else if limit < Text.digitsValue digits then some "number too large to fit in target type"
  else none

/-- What is wrong with a parameter; unknown ones are passed over. -/
def parameterFlaw? (name value : String) : Option String :=
  if name = "sslmode" ∨ name = "ssl-mode" then
    if sslModes.contains (Text.lowered value) then none
    else some s!"error with configuration: unknown value {Text.quoted value} for `ssl_mode`"
  else if name = "statement-cache-capacity" then numberFlaw? (2 ^ 64 - 1) value
  else if name = "port" then numberFlaw? (2 ^ 16 - 1) value
  else none

/-- Checks an address without connecting to it. -/
def check (address : String) : Except BenchError Unit :=
  match Url.parse address with
  | .error flaw => .error (.invalidConfig flaw.message)
  | .ok parts =>
    match (Url.queryPairs (parts.query.getD "")).findSome? fun p => parameterFlaw? p.1 p.2 with
    | some flaw => .error (.invalidConfig flaw)
    | none => .ok ()

end ServerAddress

end StoreBench.Sql
