import StoreBench.Settings.Basic
import StoreBench.Settings.Format
import StoreBench.Settings.Tree

/-!
# `StoreBench.Settings.Layers`: finding and reading the settings

Settings come from layers, a later one over an earlier one: the defaults,
the file `config/dbbench`, the file named by the variable `DBBENCH_CONFIG`,
a file that was asked for, and the variables that begin with `DBBENCH__`.
Only a file that was asked for must exist. The format of a file is told by
the ending of its name, which may be left out where the file is named.
-/

set_option autoImplicit false

namespace StoreBench

/-- What the settings are read from: the files by path, the variables of
the environment, and the formats that files may have, in the order in
which their endings are tried. -/
structure Surroundings where
  files : List (String × String) := []
  environment : List (String × String) := []
  formats : List FileFormat := FileFormat.usual
deriving Inhabited

namespace Layers

/-! ### Files -/

/-- The name of the file that is read when there is one. -/
def usualName : String := "config/dbbench"

/-- The variable that names another file. -/
def nameVariable : String := "DBBENCH_CONFIG"

/-- A path without the parts that stay where they are. -/
def plainPath (path : String) : String :=
  let parts := Text.pieces '/' path.toList
  let kept := parts.filter fun part => !part.isEmpty && part != ['.']
  (if path.startsWith "/" then "/" else "") ++ "/".intercalate (kept.map String.ofList)

/-- The last part of a path, from its end. -/
def lastPart (path : String) : List Char := path.toList.reverse.takeWhile (· != '/')

/-- The ending of a path: what follows the last dot of its last part. A dot
at the very beginning of that part does not count. -/
def ending (path : String) : String :=
  let part := lastPart path
  match part.dropWhile (· != '.') with
  | [] | [_] => ""
  | _ => String.ofList (part.takeWhile (· != '.')).reverse

/-- The paths that a name may stand for, each with the format of a file
there: the name itself, and the name with each of the endings behind it. -/
def candidates (formats : List FileFormat) (name : String) : List (String × Option FileFormat) :=
  let path := plainPath name
  let longer := formats.flatMap fun f => f.endings.map fun e => (s!"{path}.{e}", some f)
  (path, FileFormat.ofEnding? formats (ending path)) ::
    if lastPart path = [] ∨ lastPart path = ['.', '.'] then [] else longer

/-- A file that can be read: its path, its text and its format. -/
structure Found where
  path : String
  content : String
  format : FileFormat

/-- The file of a name: the first that there is, if it has a format. -/
def find (around : Surroundings) (name : String) : Tree.Read Found :=
  let file := (candidates around.formats name).findSome? fun c =>
    (around.files.lookup c.1).map fun content => (c, content)
  match file with
  | some ((path, some format), content) => .ok { path, content, format }
  | some ((path, none), _) =>
    .error (.other s!"configuration file \"{path}\" is not of a registered file format")
  | none => .error (.other s!"configuration file \"{name}\" not found")

/-- The entries of a file. -/
def Found.read (f : Found) : Tree.Read (List (String × Tree)) :=
  match f.format.parse f.content with
  | .error message => .error (.other s!"{message} in {f.path}")
  | .ok document =>
    match Tree.ofJson (some f.path) document with
    | .table _ entries => .ok entries
    | other =>
      let flaw := Tree.Flaw.wrongType other.found "a map" none other.origin
      .error (.other s!"{flaw.message} in {f.path}")

/-- The entries of a file that may be missing. -/
def optionalFile (around : Surroundings) (name : String) : Tree.Read (List (String × Tree)) :=
  match find around name with
  | .ok f => f.read
  | .error _ => .ok []

/-- The entries of a file that must exist. -/
def requiredFile (around : Surroundings) (name : String) : Tree.Read (List (String × Tree)) := do
  (← find around name).read

/-! ### Variables -/

def lowered (s : String) : String := String.ofList (s.toList.map Char.toLower)

/-- The value that the text of a variable stands for. -/
def variableValue (s : String) : Json :=
  if lowered s = "true" then .bool true
  else if lowered s = "false" then .bool false
  else match scanInt? s, Double.scan? s with
    | some i, _ => .int i
    | none, some x => .float x
    | none, none => .str s

/-- Dots in the place of double underscores. -/
def dotted : List Char → List Char
  | '_' :: '_' :: cs => '.' :: dotted cs
  | c :: cs => c :: dotted cs
  | [] => []

/-- The entry that a variable makes, if it is one of the settings. -/
def variableEntry? (v : String × String) : Option (String × Tree) :=
  let name := (lowered v.1).toList
  let start := "dbbench__".toList
  if start.isPrefixOf name then
    some (String.ofList (dotted (name.drop start.length)),
      .leaf (some "the environment") (variableValue v.2))
  else none

/-- What the variables of the environment set, each by the path in its name. -/
def variableEntries (environment : List (String × String)) : List (String × Tree) :=
  environment.filterMap variableEntry?

/-! ### Settings -/

/-- The settings that are there when nothing else sets them. -/
def defaults : List (String × Tree) :=
  let usual : Settings := {}
  let leaf (value : Json) : Tree := .leaf none value
  [ ("databases.memory", leaf (.str usual.addresses.memory)),
    ("databases.sqlite", leaf (.str usual.addresses.sqlite)),
    ("databases.postgres", leaf (.str usual.addresses.postgres)),
    ("benchmark_settings.default_duration", leaf (.str usual.run.duration.text)),
    ("benchmark_settings.default_concurrency", leaf (.int usual.run.concurrency)),
    ("engine.shutdown_grace", leaf (.str usual.engine.grace.text)),
    ("engine.latency.max_micros", leaf (.int usual.engine.latency.maxMicros)),
    ("engine.latency.significant_figures",
      leaf (.int usual.engine.latency.significantFigures)),
    ("engine.retry.backoff", leaf (.str usual.engine.retry.backoff.text)) ]

/-- A length of time, which is given as text. -/
def toSpan (t : Tree) : Tree.Read Span := do
  match Span.ofText (← t.toText) with
  | .ok span => .ok span
  | .error flaw => .error (.other flaw.message)

def toAddresses (t : Tree) : Tree.Read Addresses := do
  let title := "DatabasesConfig"
  let p ← t.parts title
  let memory ← p.field 0 "memory" Tree.toText
  let sqlite ← p.field 1 "sqlite" Tree.toText
  let postgres ← p.field 2 "postgres" Tree.toText
  return {
    memory := ← p.need title 3 0 "memory" memory
    sqlite := ← p.need title 3 1 "sqlite" sqlite
    postgres := ← p.need title 3 2 "postgres" postgres }

def toUsualRun (t : Tree) : Tree.Read UsualRun := do
  let title := "BenchmarkSettings"
  let p ← t.parts title
  let duration ← p.field 0 "default_duration" toSpan
  let concurrency ← p.field 1 "default_concurrency" Tree.toNat
  return {
    duration := ← p.need title 2 0 "default_duration" duration
    concurrency := ← p.need title 2 1 "default_concurrency" concurrency }

def toLatency (t : Tree) : Tree.Read LatencyConfig := do
  let title := "LatencyConfig"
  let p ← t.parts title
  let maxMicros ← p.field 0 "max_micros" Tree.toNat
  let figures ← p.field 1 "significant_figures" (Tree.toWord 8)
  return {
    maxMicros := ← p.need title 2 0 "max_micros" maxMicros
    significantFigures := ← p.need title 2 1 "significant_figures" figures }

def toRetry (t : Tree) : Tree.Read RetryPolicy := do
  let p ← t.parts "RetryConfig"
  let maxRetries ← p.field 0 "max_retries" (Tree.toOption (Tree.toWord 32))
  let backoff ← p.field 1 "backoff" toSpan
  return { maxRetries := maxRetries.getD none, backoff := backoff.getD .zero }

def toEngine (t : Tree) : Tree.Read EngineConfig := do
  let title := "EngineConfig"
  let p ← t.parts title
  let grace ← p.field 0 "shutdown_grace" toSpan
  let latency ← p.field 1 "latency" toLatency
  let retry ← p.field 2 "retry" toRetry
  return {
    grace := ← p.need title 3 0 "shutdown_grace" grace
    latency := latency.getD {}
    retry := retry.getD {} }

/-- Settings are read from a tree, group by group. Groups that are missing have their
defaults. -/
def toSettings (t : Tree) : Tree.Read Settings := do
  let p ← t.parts "BenchConfig"
  let addresses ← p.field 0 "databases" toAddresses
  let run ← p.field 1 "benchmark_settings" toUsualRun
  let engine ← p.field 2 "engine" toEngine
  return {
    addresses := addresses.getD {}
    run := run.getD {}
    engine := engine.getD {} }

/-- The tree of several layers, the lowest first. -/
def mergeAll (layers : List (List (String × Tree))) : Tree := layers.foldl Tree.merge Tree.empty

end Layers

namespace Settings

/-- The settings of a tree, if they are valid. -/
def ofTree (t : Tree) : Except BenchError Settings := do
  let s ← (Layers.toSettings t).mapError fun flaw => .invalidConfig flaw.message
  s.validate
  return s

/-- The layers of files and variables, the lowest first. -/
def layers (around : Surroundings) (explicit : Option String) :
    Tree.Read (List (List (String × Tree))) := do
  let usual ← Layers.optionalFile around Layers.usualName
  let named ← match around.environment.lookup Layers.nameVariable with
    | some name => Layers.optionalFile around name
    | none => .ok []
  let asked ← match explicit with
    | some name => Layers.requiredFile around name
    | none => .ok []
  return [Layers.defaults, usual, named, asked, Layers.variableEntries around.environment]

/-- The settings of all layers, with a file that was asked for or none. -/
def load (around : Surroundings) (explicit : Option String) : Except BenchError Settings := do
  let layers ← (layers around explicit).mapError fun flaw => .invalidConfig flaw.message
  ofTree (Layers.mergeAll layers)

/-- The settings of a single file. -/
def ofFile (around : Surroundings) (name : String) : Except BenchError Settings := do
  let entries ← (Layers.requiredFile around name).mapError fun flaw =>
    .invalidConfig flaw.message
  ofTree (Layers.mergeAll [entries])

end Settings

end StoreBench
