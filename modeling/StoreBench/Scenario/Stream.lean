import StoreBench.Load.Workload
import StoreBench.Scenario.Events
import StoreBench.Scenario.Request

/-!
# `StoreBench.Scenario.Stream`: filling and reading an event stream

`ingestion` inserts events in batches, one transaction each, until there
are as many as wanted, which ends the run; the stored events must be as
many as were counted. `dashboardQuery` sums up the events of a time window
that ends now.
-/

set_option autoImplicit false

namespace StoreBench.Scenario.Stream

/-! ### Ingestion -/

/-- The statements that insert a batch, whose first event has a number. -/
def batchStatements (events : Events) (first batch : Nat) (time : Instant) :
    Task (List Statement) :=
  (List.range batch).mapM fun i => do
    return events.insert (.synthetic (← Task.identity) (first + i) time)

/-- The number of events in the store. -/
def countEvents (events : Events) : Task Int := do
  match ← Task.queryRow events.countAll with
  | some row => row.scanNamed Value.toInt "count"
  | none => throw (.error (.notFound "event count" Events.table))

/-- Clients that store events in batches until there are enough of them. -/
def ingestion (events : Events) (target batch : Nat) : Workload requests :=
  let batch := max batch 1
  { name := "ingestion"
    setup := do
      Task.clearStored
      Task.execAll events.createSchema
    attempt := fun _ => do
      if target ≤ (← Task.stored) then
        throw (.error (.exhausted "ingestion target"))
      let first ← Task.takeBegun batch
      let time ← Task.now
      Task.execAll (← batchStatements events first batch time)
      Task.addStored batch
    verify := do
      let count ← countEvents events
      return some (count == (← Task.stored))
    teardown := Task.execAll events.dropSchema }

/-! ### Dashboard -/

/-- The longest window, a word of milliseconds. -/
def longestWindow : Span := .ofMillis (2 ^ 63 - 1)

/-- A window that is not too long. -/
def checkWindow (window : Span) : Except BenchError Span :=
  if window.nanos ≤ longestWindow.nanos then .ok window
  else .error (.invalidConfig
    "dashboard window: Source duration value is out of range for the target type")

/-- The beginning of a window that ends now. -/
def cutoff (window : Span) : Task Instant := do
  match (← Task.now).minus? window with
  | some time => pure time
  | none => throw (.crash .instantOverflow)

/-- Clients that ask for the totals of the regions over a window of time. -/
def dashboardQuery (events : Events) (count : Nat) (window : Span) : Workload requests where
  name := "dashboard_query"
  setup := do
    let time ← Task.now
    Task.execAll (events.createSchema ++ (← batchStatements events 0 count time))
  attempt _ := do
    discard (Task.query (events.totals (← cutoff window)))
  teardown := Task.execAll events.dropSchema

end StoreBench.Scenario.Stream
