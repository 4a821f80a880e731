import StoreBench.Load.Latency
import StoreBench.Load.Stop
import StoreBench.Load.Tally

/-!
# `StoreBench.Load.Report`: the record of a run

A report is assembled from a tally, a recorder and the verdict of the
workload's own check. It is written as a document, whose durations are
whole microseconds and whose last two fields are left out when they say
nothing, or as lines of names and values.
-/

set_option autoImplicit false

namespace StoreBench

/-- What is told of a run. -/
structure Report where
  operations : Nat
  errors : Nat
  /-- Operations in a second of the run. -/
  throughput : Double
  /-- The share of errors among operations and errors. -/
  errorRate : Double
  p95Latency : Span
  p99Latency : Span
  averageLatency : Span
  totalTime : Span
  dataIntegrity : Bool
  transientRetries : Nat := 0
  stopCause : Option StopCause := none
  panickedWorkers : Nat := 0
deriving DecidableEq, Repr, Inhabited

namespace Report

/-- The record of a run that took `total`. -/
def ofRun (tally : Tally) (total : Span) (latency : Recorder) (integrity : Bool)
    (cause : Option StopCause) (panicked : Nat) : Except Crash Report := do
  let attempts ← tally.attempts
  let seconds := total.toDouble
  let throughput := if seconds.isZero then .zero else (Double.ofNat tally.operations).div seconds
  let errorRate := if attempts = 0 then .zero
    else (Double.ofNat tally.errors).div (.ofNat attempts)
  return {
    operations := tally.operations
    errors := tally.errors
    throughput, errorRate
    p95Latency := latency.quantile (.nearest false 95 100)
    p99Latency := latency.quantile (.nearest false 99 100)
    averageLatency := latency.mean
    totalTime := total
    dataIntegrity := integrity
    transientRetries := tally.transientRetries
    stopCause := cause
    panickedWorkers := panicked }

/-- Operations and errors together. -/
def attempts (r : Report) : Except Crash Nat :=
  Tally.attempts { operations := r.operations, errors := r.errors }

/-! ### As a document -/

/-- A report as it is written. Latencies are in microseconds. -/
def toJson (r : Report) : Json :=
  .obj <|
    [ ("operations", Json.int r.operations),
      ("errors", .int r.errors),
      ("throughput", .ofDouble r.throughput),
      ("error_rate", .ofDouble r.errorRate),
      ("p95_latency", .int r.p95Latency.micros),
      ("p99_latency", .int r.p99Latency.micros),
      ("average_latency", .int r.averageLatency.micros),
      ("total_time", .int r.totalTime.micros),
      ("data_integrity", .bool r.dataIntegrity),
      ("transient_retries", .int r.transientRetries) ]
    ++ (r.stopCause.map fun c => ("stop_cause", Json.str c.name)).toList
    ++ (if r.panickedWorkers = 0 then [] else [("panicked_workers", .int r.panickedWorkers)])

/-- The fields of a report as far as they have been read. -/
structure Draft where
  operations : Option Nat := none
  errors : Option Nat := none
  throughput : Option Double := none
  errorRate : Option Double := none
  p95Latency : Option Nat := none
  p99Latency : Option Nat := none
  averageLatency : Option Nat := none
  totalTime : Option Nat := none
  dataIntegrity : Option Bool := none
  transientRetries : Option Nat := none
  stopCause : Option (Option StopCause) := none
  panickedWorkers : Option Nat := none

/-- The fields of a report, each with what it is read into. -/
def fields : List (Json.Field Draft) :=
  let word := Json.readNat .u64
  [ .of "operations" Draft.operations (fun d n => { d with operations := some n }) word true,
    .of "errors" Draft.errors (fun d n => { d with errors := some n }) word true,
    .of "throughput" Draft.throughput (fun d x => { d with throughput := some x })
      Json.readDouble true,
    .of "error_rate" Draft.errorRate (fun d x => { d with errorRate := some x })
      Json.readDouble true,
    .of "p95_latency" Draft.p95Latency (fun d n => { d with p95Latency := some n }) word true,
    .of "p99_latency" Draft.p99Latency (fun d n => { d with p99Latency := some n }) word true,
    .of "average_latency" Draft.averageLatency (fun d n => { d with averageLatency := some n })
      word true,
    .of "total_time" Draft.totalTime (fun d n => { d with totalTime := some n }) word true,
    .of "data_integrity" Draft.dataIntegrity (fun d b => { d with dataIntegrity := some b })
      Json.readBool true,
    .of "transient_retries" Draft.transientRetries
      (fun d n => { d with transientRetries := some n }) word false,
    .of "stop_cause" Draft.stopCause (fun d c => { d with stopCause := some c })
      (Json.readOption StopCause.read) false,
    .of "panicked_workers" Draft.panickedWorkers
      (fun d n => { d with panickedWorkers := some n }) word false ]

/-- The report of its fields, of which those that may be missing have a
meaning of their own then. -/
def Draft.finish (d : Draft) : Report where
  operations := d.operations.getD 0
  errors := d.errors.getD 0
  throughput := d.throughput.getD .zero
  errorRate := d.errorRate.getD .zero
  p95Latency := .ofMicros (d.p95Latency.getD 0)
  p99Latency := .ofMicros (d.p99Latency.getD 0)
  averageLatency := .ofMicros (d.averageLatency.getD 0)
  totalTime := .ofMicros (d.totalTime.getD 0)
  dataIntegrity := d.dataIntegrity.getD false
  transientRetries := d.transientRetries.getD 0
  stopCause := d.stopCause.getD none
  panickedWorkers := d.panickedWorkers.getD 0

/-- The report that a document text holds. -/
def ofJsonText (text : String) : Except BenchError Report :=
  match Json.readText (Json.readRecord "RunResult" fields {}) text with
  | .ok draft => .ok draft.finish
  | .error e => .error (.ofReadError e)

/-! ### As lines -/

/-- Names and values in the order of the record. -/
def toPairs (r : Report) : List (String × String) :=
  let micros (s : Span) : String := toString (s.nanos / 1000)
  [ ("operations", toString r.operations),
    ("errors", toString r.errors),
    ("throughput", r.throughput.fixed 2),
    ("error_rate", r.errorRate.fixed 6),
    ("p95_latency_us", micros r.p95Latency),
    ("p99_latency_us", micros r.p99Latency),
    ("average_latency_us", micros r.averageLatency),
    ("total_time_us", micros r.totalTime),
    ("data_integrity", toString r.dataIntegrity),
    ("transient_retries", toString r.transientRetries) ]
  ++ (r.stopCause.map fun c => ("stop_cause", c.name)).toList
  ++ (if r.panickedWorkers = 0 then [] else [("panicked_workers", toString r.panickedWorkers)])

end Report

end StoreBench
