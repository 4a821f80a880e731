import StoreBench.Row
import StoreBench.Scenario.Schema

/-!
# `StoreBench.Scenario.Events`: the statements of an event stream

An event is one sample of a metric, with the user, the product and the
region that it belongs to. Synthetic events cycle over these.
-/

set_option autoImplicit false

namespace StoreBench.Scenario

/-- Something that was measured at some time in some region. -/
structure Event where
  id : String
  instant : Instant
  user : String
  product : String
  region : String
  metric : Double
deriving DecidableEq, Repr, Inhabited

/-- The event of a number. -/
def Event.synthetic (id : String) (i : Nat) (instant : Instant) : Event where
  id
  instant
  user := s!"user{i % 1000}"
  product := s!"product{i % 100}"
  region := s!"region{i % 10}"
  metric := .ofNat i

/-- What an event stream does with its store. -/
structure Events where
  createSchema : List Statement
  dropSchema : List Statement
  insert : Event → Statement
  /-- One row with the number of events. -/
  countAll : Statement
  /-- The sum of the metric in each region over the events after a time. -/
  totals : (after : Instant) → Statement

namespace Events

/-- The collection that events are kept in. -/
def table : String := "analytics_events"

/-- An event stream on a SQL store. -/
def sql (d : Dialect) : Events where
  createSchema :=
    [ Dialect.createTable table
        ["event_id VARCHAR(255) PRIMARY KEY", s!"event_timestamp {d.instantType} NOT NULL",
          "user_id VARCHAR(255) NOT NULL", "product_id VARCHAR(255) NOT NULL",
          "region VARCHAR(255) NOT NULL", s!"metric_value {d.doubleType} NOT NULL"],
      .sql "CREATE INDEX IF NOT EXISTS idx_event_timestamp ON analytics_events (event_timestamp)"
        [] ]
  dropSchema := [d.dropTable table]
  insert e :=
    d.statement ("INSERT INTO analytics_events (event_id, event_timestamp, user_id, product_id, "
      ++ "region, metric_value) VALUES ($1, $2, $3, $4, $5, $6)")
      [ .text e.id, .timestamp e.instant, .text e.user, .text e.product, .text e.region,
        .float e.metric ]
  countAll := .sql "SELECT COUNT(*) AS count FROM analytics_events" []
  totals after :=
    d.statement ("SELECT region, SUM(metric_value) AS total FROM analytics_events "
      ++ "WHERE event_timestamp > $1 GROUP BY region") [.timestamp after]

/-- An event stream on a document store. -/
def document : Events where
  createSchema := []
  dropSchema := [.on table .dropCollection]
  insert e :=
    .insert table
      [ ("_id", .str e.id), ("event_timestamp", .ofInstant e.instant), ("user_id", .str e.user),
        ("product_id", .str e.product), ("region", .str e.region),
        ("metric_value", .ofDouble e.metric) ]
  countAll := .on table (.count .all)
  totals after :=
    .on table (.groupSum [("event_timestamp", .gt (.ofInstant after))] "region" "metric_value")

/-- The statements for a backend. -/
def on (b : Backend) : Events :=
  match b.dialect? with
  | some d => sql d
  | none => document

end Events

end StoreBench.Scenario
