import StoreBench.Scenario.Browse
import StoreBench.Scenario.Feed
import StoreBench.Scenario.Stock
import StoreBench.Scenario.Stream

/-!
# `StoreBench.Scenario.Catalog`: the scenarios by name

Scenarios are grouped into families. `buildSized` makes the scenario of a
name in given sizes, `build` in the usual ones.
-/

set_option autoImplicit false

namespace StoreBench.Scenario

/-- The families and the scenarios of each. -/
def catalog : List (String × List String) :=
  [ ("ecommerce", ["inventory_update", "order_processing", "catalog_filter"]),
    ("socialmedia", ["fan_out_on_write", "join_on_read"]),
    ("analytics", ["ingestion", "dashboard_query"]) ]

/-- Why there is no scenario of a name. -/
def unknown (family test : String) : BenchError :=
  match catalog.lookup family with
  | some tests => .invalidConfig (s!"unknown test `{test}` for workload `{family}` "
      ++ "(expected one of: " ++ ", ".intercalate tests ++ ")")
  | none => .invalidConfig (s!"unknown workload `{family}` "
      ++ "(expected one of: " ++ ", ".intercalate (catalog.map Prod.fst) ++ ")")

/-- The sizes of scenarios. Where the inventory is not given, each scenario
that sells a product has its own. -/
structure Sizes where
  inventory : Option Int := none
  products : Nat := 100
  users : Nat := 100
  posts : Nat := 10000
  target : Nat := 100000
  batch : Nat := 100
  events : Nat := 10000
  window : Span := .ofSeconds 3600
deriving DecidableEq, Repr, Inhabited

/-- The scenario of a name, in these sizes. -/
def buildSized (sizes : Sizes) (family test : String) (b : Backend) :
    Except BenchError (Workload requests) :=
  match family, test with
  | "ecommerce", "inventory_update" =>
    .ok (Stock.inventoryUpdate (.on b) (sizes.inventory.getD 10000))
  | "ecommerce", "order_processing" =>
    .ok (Stock.orderProcessing (.on b) (sizes.inventory.getD 100))
  | "ecommerce", "catalog_filter" => .ok (Browse.catalogFilter (.on b) sizes.products)
  | "socialmedia", "fan_out_on_write" => .ok (Feed.fanOutOnWrite (.on b) sizes.users)
  | "socialmedia", "join_on_read" => .ok (Feed.joinOnRead (.on b) sizes.users sizes.posts)
  | "analytics", "ingestion" => .ok (Stream.ingestion (.on b) sizes.target sizes.batch)
  | "analytics", "dashboard_query" =>
    (Stream.checkWindow sizes.window).map (Stream.dashboardQuery (.on b) sizes.events)
  | _, _ => .error (unknown family test)

/-- The scenario of a name, in its usual size. -/
def build (family test : String) (b : Backend) : Except BenchError (Workload requests) :=
  buildSized {} family test b

end StoreBench.Scenario
