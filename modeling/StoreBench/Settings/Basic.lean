import StoreBench.Backend
import StoreBench.Load.Runner

/-!
# `StoreBench.Settings.Basic`: the settings of a benchmark

Settings say where each kind of store is, how large a run is when the
command line does not say so, and how the engine works. `validate` checks
what the types leave open.
-/

set_option autoImplicit false

namespace StoreBench

/-- The address of each kind of store. -/
structure Addresses where
  memory : String := Backend.memory.defaultAddress
  sqlite : String := Backend.sqlite.defaultAddress
  postgres : String := Backend.postgres.defaultAddress
deriving DecidableEq, Repr, Inhabited

/-- The address of a backend. -/
def Addresses.of (a : Addresses) : Backend → String
  | .memory => a.memory
  | .sqlite => a.sqlite
  | .postgres => a.postgres

/-- The usual size of a run. -/
structure UsualRun where
  duration : Span := .ofSeconds 30
  concurrency : Nat := 100
deriving DecidableEq, Repr, Inhabited

/-- All that can be set for a run. -/
structure Settings where
  addresses : Addresses := {}
  run : UsualRun := {}
  engine : EngineConfig := {}
deriving DecidableEq, Repr, Inhabited

/-- Whether a recorder of this range and precision is wanted. -/
def LatencyConfig.validate (c : LatencyConfig) : Except BenchError Unit :=
  if c.significantFigures = 0 ∨ 5 < c.significantFigures then
    .error (.invalidConfig "engine.latency.significant_figures must be between 1 and 5")
  else if c.maxMicros < 2 then
    .error (.invalidConfig "engine.latency.max_micros must be >= 2")
  else .ok ()

namespace Settings

/-- Settings that a run could not go by are refused. -/
def validate (s : Settings) : Except BenchError Unit := do
  if s.run.concurrency = 0 then
    throw (.invalidConfig "benchmark_settings.default_concurrency must be > 0")
  s.engine.latency.validate
  if s.engine.retry.maxRetries = some 0 ∧ !s.engine.retry.backoff.isZero then
    throw (.invalidConfig "engine.retry.backoff has no effect when max_retries is 0")

end Settings

end StoreBench
