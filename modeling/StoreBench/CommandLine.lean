import StoreBench.Document.Client
import StoreBench.Scenario.Catalog
import StoreBench.Scenario.World
import StoreBench.Settings.Layers
import StoreBench.Sql.Client

/-!
# `StoreBench.CommandLine`: from arguments to output

The arguments name a kind of store and a scenario; the settings say the
rest. `CommandLine.run` reads both, runs the scenario and gives everything
that the program leaves behind: an exit status and the lines of its two
outputs.

The run is rehearsed: each statement by itself and each transaction takes
a nominal time, and whole transactions do not meet each other.
-/

set_option autoImplicit false

namespace StoreBench

namespace CommandLine

/-! ### Arguments -/

/-- The forms in which a report can be printed. -/
inductive Format
  | json
  | text
deriving DecidableEq, Repr, Inhabited

/-- The options as far as they have been given. -/
structure Options where
  backend : Option Backend := none
  family : Option String := none
  test : Option String := none
  concurrency : Option Nat := none
  duration : Option Span := none
  config : Option String := none
  format : Option Format := none
  list : Bool := false
deriving Repr, Inhabited

/-- What is asked for. -/
inductive Request
  | version
  | help
  | list
  | run (backend : Backend) (family test : String) (options : Options)
deriving Repr, Inhabited

/-- Takes the value of an option that was not given before; none when
there is no such option, or the value is not one. -/
def Options.take (o : Options) (name value : String) : Option Options :=
  match name with
  | "--db" =>
    if o.backend.isSome then none
    else (Backend.ofName value).toOption.map fun b => { o with backend := some b }
  | "--workload" => if o.family.isSome then none else some { o with family := some value }
  | "--test" => if o.test.isSome then none else some { o with test := some value }
  | "--concurrency" =>
    if o.concurrency.isSome then none
    else (scanNat? (2 ^ 64 - 1) value).map fun n => { o with concurrency := some n }
  | "--duration" =>
    if o.duration.isSome then none
    else (Span.ofText value).toOption.map fun s => { o with duration := some s }
  | "--config" =>
    if o.config.isSome || value.isEmpty then none else some { o with config := some value }
  | "--format" =>
    if o.format.isSome then none
    else if value = "json" then some { o with format := some .json }
    else if value = "text" then some { o with format := some .text }
    else none
  | _ => none

/-- What the options ask for, if they are complete. -/
def Options.request (o : Options) : Option Request :=
  if o.list then some .list
  else match o.backend, o.family, o.test with
    | some backend, some family, some test => some (.run backend family test o)
    | _, _, _ => none

/-- Splits an argument that holds an option and its value. -/
def splitValue (argument : String) : Option (String × String) :=
  let cs := argument.toList
  let name := cs.takeWhile (· != '=')
  if name.length < cs.length then
    some (String.ofList name, String.ofList (cs.drop (name.length + 1)))
  else none

/-- Whether an argument can be the value of the option before it. -/
def isValue (argument : String) : Bool := !argument.startsWith "-" || argument == "-"

/-- What the arguments ask for; none when they are not understood. -/
def parse (o : Options) : List String → Option Request
  | [] => o.request
  | "--version" :: _ | "-V" :: _ => some .version
  | "--help" :: _ | "-h" :: _ => some .help
  | "--list" :: rest => if o.list then none else parse { o with list := true } rest
  | ["--"] => o.request
  | argument :: rest =>
    match splitValue argument, rest with
    | some (name, value), rest => (o.take name value).bind fun o => parse o rest
    | none, value :: rest =>
      if isValue value then (o.take argument value).bind fun o => parse o rest else none
    | none, [] => none

/-! ### Output -/

/-- What the program leaves behind. -/
structure Output where
  status : Nat
  lines : List String := []
  complaints : List String := []
deriving DecidableEq, Repr, Inhabited

/-- The exit status of an error: 2 for bad settings, 3 for a store out of
reach, 4 for a failed set-up, and 1 for everything else. -/
def exitStatus : BenchError → Nat
  | .invalidConfig _ => 2
  | .connection _ => 3
  | .setupFailed _ => 4
  | _ => 1

/-- A complaint as it goes to the error output, with the name of the program before it. -/
def complaint (text : String) : String := s!"dbbench: {text}"

/-- The output of an error, with its causes behind it. -/
def ofError (e : BenchError) : Output where
  status := exitStatus e
  complaints := [complaint (": ".intercalate (e.message :: e.causes))]

/-- The output of a failure to read the settings. -/
def ofSettingsError (e : BenchError) : Output :=
  let text := match e with
    | .invalidConfig message => message
    | other => other.message
  { status := 2, complaints := [complaint s!"loading configuration: {text}"] }

/-- What is listed: each family of workloads with its tests. -/
def catalogLines : List String :=
  Scenario.catalog.map fun entry => s!"{entry.1}: " ++ ", ".intercalate entry.2

/-- A report in its format. -/
def reportLines (format : Format) (r : Report) : List String :=
  match format with
  | .json => (Text.pieces '\n' r.toJson.renderIndented.toList).map String.ofList
  | .text => r.toPairs.map fun p => s!"{p.1}={p.2}"

/-- What is printed for the version. -/
def versionLine : String := "dbbench 0.1.0"

def usage : List String :=
  [ "Concurrent load benchmark for transactional databases",
    "",
    "Usage: dbbench --db <DB> --workload <WORKLOAD> --test <TEST> [OPTIONS]",
    "       dbbench --list" ]

/-! ### Runs -/

/-- The nominal time of a statement by itself, and of a transaction. -/
def nominalDelay : Span := .ofMicros 250

/-- A world whose clients wait before each statement by itself and before
each transaction, and at no other time. -/
def pacedSite {σ τ : Type} [Driver σ τ] :
    Site Scenario.requests (Scenario.World σ) (Option τ) where
  idle := none
  delay _ _
    | .call (.exec _) | .call (.query _) | .call .begin => nominalDelay
    | _ => .zero
  answer := Scenario.World.site.answer

/-- More steps than a run of a bounded scenario needs. -/
def fuel : Nat := 2 ^ 60

/-- Connects to a store and runs a workload on it. -/
def measure {σ τ : Type} [Driver σ τ] (store : σ) (directories : List String) (address : String)
    (w : Workload Scenario.requests) (engine : EngineConfig) (size : RunConfig) :
    Attempted Report := do
  let (store, connected) := Driver.connect store directories address
  connected
  let world : Scenario.World σ := { driver := store, clock := ⟨1704067200, 0⟩ }
  (Runner.run pacedSite w fuel engine size world).2

/-- Runs a workload on a store of its kind. -/
def measureOn (b : Backend) (directories : List String) (address : String)
    (w : Workload Scenario.requests) (engine : EngineConfig) (size : RunConfig) :
    Attempted Report :=
  match b with
  | .memory => measure ({} : Server) directories address w engine size
  | .sqlite => measure ({} : Sql.Server) directories address w engine size
  | .postgres => measure Sql.Unreachable.server directories address w engine size

/-- Runs the scenario that is asked for, with these settings. -/
def measureScenario (settings : Settings) (directories : List String) (backend : Backend)
    (family test : String) (o : Options) : Attempted Report := do
  let workload ← Scenario.build family test backend
  let size : RunConfig :=
    { concurrency := o.concurrency.getD settings.run.concurrency
      duration := some (o.duration.getD settings.run.duration) }
  measureOn backend directories (settings.addresses.of backend) workload settings.engine size

/-- The output of a request. -/
def answer (around : Surroundings) (directories : List String) : Request → Output
  | .version => { status := 0, lines := [versionLine] }
  | .help => { status := 0, lines := usage }
  | .list => { status := 0, lines := catalogLines }
  | .run backend family test o =>
    match Settings.load around o.config with
    | .error e => ofSettingsError e
    | .ok settings =>
      match measureScenario settings directories backend family test o with
      | .ok report => { status := 0, lines := reportLines (o.format.getD .json) report }
      | .error (.error e) => ofError e
      | .error (.crash _) => { status := 101 }

/-! ### What the program looks at -/

/-- The files that the settings may come from, where files may have these formats. -/
def files (formats : List FileFormat) (environment : List (String × String))
    (arguments : List String) : List String :=
  let asked := match parse {} arguments with
    | some (.run _ _ _ o) => o.config.toList
    | _ => []
  let names := [Layers.usualName] ++ (environment.lookup Layers.nameVariable).toList ++ asked
  names.flatMap fun name => (Layers.candidates formats name).map Prod.fst

/-- The paths of which it matters whether they are directories. -/
def places (around : Surroundings) (arguments : List String) : List String :=
  match parse {} arguments with
  | some (.run .sqlite _ _ o) =>
    match Settings.load around o.config with
    | .error _ => []
    | .ok settings => match Sql.FileAddress.parse settings.addresses.sqlite with
      | .ok address => [address.path, Sql.FileAddress.directory address.path]
      | .error _ => []
  | _ => []

/-- The program, where these directories exist. -/
def run (around : Surroundings) (directories arguments : List String) : Output :=
  match parse {} arguments with
  | some request => answer around directories request
  | none => { status := 2 }

end CommandLine

end StoreBench
