import StoreBench.Json.Typed
import StoreBench.Settings.Basic

/-!
# `StoreBench.Settings.Document`: settings as a document

Settings are written as an object of three groups, with lengths of time as
texts. When they are read, a missing group has its default, and so do the
parts of the engine; all other fields must be there.
-/

set_option autoImplicit false

namespace StoreBench

/-- A length of time inside a document is its text. -/
def Span.toJson (s : Span) : Json := .str s.text

/-- Reads the text of a length of time. -/
def Span.read (cs : List Char) : Json.Read (Span × List Char) := do
  let (text, rest) ← Json.readString cs
  match Span.ofText text with
  | .ok span => .ok (span, rest)
  | .error flaw => Json.failOpen (.unreadable flaw.message) rest

/-! ### Writing -/

def Addresses.toJson (a : Addresses) : Json :=
  .obj [("memory", .str a.memory), ("sqlite", .str a.sqlite), ("postgres", .str a.postgres)]

def UsualRun.toJson (r : UsualRun) : Json :=
  .obj [("default_duration", r.duration.toJson), ("default_concurrency", .int r.concurrency)]

def LatencyConfig.toJson (c : LatencyConfig) : Json :=
  .obj [("max_micros", .int c.maxMicros), ("significant_figures", .int c.significantFigures)]

def RetryPolicy.toJson (p : RetryPolicy) : Json :=
  .obj
    [ ("max_retries", match p.maxRetries with
        | some n => .int n
        | none => .null),
      ("backoff", p.backoff.toJson) ]

def EngineConfig.toJson (c : EngineConfig) : Json :=
  .obj
    [ ("shutdown_grace", c.grace.toJson), ("latency", c.latency.toJson),
      ("retry", c.retry.toJson) ]

/-- Settings as they are written, group by group. -/
def Settings.toJson (s : Settings) : Json :=
  .obj
    [ ("databases", s.addresses.toJson), ("benchmark_settings", s.run.toJson),
      ("engine", s.engine.toJson) ]

/-! ### Reading -/

namespace Addresses

structure Draft where
  memory : Option String := none
  sqlite : Option String := none
  postgres : Option String := none

def fields : List (Json.Field Draft) :=
  [ .of "memory" Draft.memory (fun d s => { d with memory := some s }) Json.readString true,
    .of "sqlite" Draft.sqlite (fun d s => { d with sqlite := some s }) Json.readString true,
    .of "postgres" Draft.postgres (fun d s => { d with postgres := some s })
      Json.readString true ]

def read (cs : List Char) : Json.Read (Addresses × List Char) := do
  let (d, rest) ← Json.readRecord "DatabasesConfig" fields {} cs
  .ok (⟨d.memory.getD "", d.sqlite.getD "", d.postgres.getD ""⟩, rest)

end Addresses

namespace UsualRun

structure Draft where
  duration : Option Span := none
  concurrency : Option Nat := none

def fields : List (Json.Field Draft) :=
  [ .of "default_duration" Draft.duration (fun d s => { d with duration := some s })
      Span.read true,
    .of "default_concurrency" Draft.concurrency (fun d n => { d with concurrency := some n })
      (Json.readNat .usize) true ]

def read (cs : List Char) : Json.Read (UsualRun × List Char) := do
  let (d, rest) ← Json.readRecord "BenchmarkSettings" fields {} cs
  .ok (⟨d.duration.getD .zero, d.concurrency.getD 0⟩, rest)

end UsualRun

namespace LatencyConfig

structure Draft where
  maxMicros : Option Nat := none
  significantFigures : Option Nat := none

def fields : List (Json.Field Draft) :=
  [ .of "max_micros" Draft.maxMicros (fun d n => { d with maxMicros := some n })
      (Json.readNat .u64) true,
    .of "significant_figures" Draft.significantFigures
      (fun d n => { d with significantFigures := some n }) (Json.readNat .u8) true ]

def read (cs : List Char) : Json.Read (LatencyConfig × List Char) := do
  let (d, rest) ← Json.readRecord "LatencyConfig" fields {} cs
  .ok (⟨d.maxMicros.getD 0, d.significantFigures.getD 0⟩, rest)

end LatencyConfig

namespace RetryPolicy

structure Draft where
  maxRetries : Option (Option Nat) := none
  backoff : Option Span := none

def fields : List (Json.Field Draft) :=
  [ .of "max_retries" Draft.maxRetries (fun d n => { d with maxRetries := some n })
      (Json.readOption (Json.readNat .u32)) false,
    .of "backoff" Draft.backoff (fun d s => { d with backoff := some s }) Span.read false ]

def read (cs : List Char) : Json.Read (RetryPolicy × List Char) := do
  let (d, rest) ← Json.readRecord "RetryConfig" fields {} cs
  .ok (⟨d.maxRetries.getD none, d.backoff.getD .zero⟩, rest)

end RetryPolicy

namespace EngineConfig

structure Draft where
  grace : Option Span := none
  latency : Option LatencyConfig := none
  retry : Option RetryPolicy := none

def fields : List (Json.Field Draft) :=
  [ .of "shutdown_grace" Draft.grace (fun d s => { d with grace := some s }) Span.read true,
    .of "latency" Draft.latency (fun d c => { d with latency := some c })
      LatencyConfig.read false,
    .of "retry" Draft.retry (fun d p => { d with retry := some p }) RetryPolicy.read false ]

def read (cs : List Char) : Json.Read (EngineConfig × List Char) := do
  let (d, rest) ← Json.readRecord "EngineConfig" fields {} cs
  .ok (⟨d.grace.getD .zero, d.latency.getD {}, d.retry.getD {}⟩, rest)

end EngineConfig

namespace Settings

structure Draft where
  addresses : Option Addresses := none
  run : Option UsualRun := none
  engine : Option EngineConfig := none

def fields : List (Json.Field Draft) :=
  [ .of "databases" Draft.addresses (fun d a => { d with addresses := some a })
      Addresses.read false,
    .of "benchmark_settings" Draft.run (fun d r => { d with run := some r })
      UsualRun.read false,
    .of "engine" Draft.engine (fun d e => { d with engine := some e }) EngineConfig.read false ]

def read (cs : List Char) : Json.Read (Settings × List Char) := do
  let (d, rest) ← Json.readRecord "BenchConfig" fields {} cs
  .ok (⟨d.addresses.getD {}, d.run.getD {}, d.engine.getD {}⟩, rest)

/-- The settings that a document text holds. -/
def ofJsonText (text : String) : Except BenchError Settings :=
  (Json.readText read text).mapError BenchError.ofReadError

end Settings

end StoreBench
