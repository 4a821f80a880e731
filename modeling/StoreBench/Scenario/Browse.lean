import StoreBench.Load.Workload
import StoreBench.Scenario.Request
import StoreBench.Scenario.Shop

/-!
# `StoreBench.Scenario.Browse`: reading a catalog

The catalog has products with a random number of items each, less than
ten. An attempt lists the products with more than five.
-/

set_option autoImplicit false

namespace StoreBench.Scenario.Browse

/-- Every product has fewer items than this. -/
def itemLimit : Nat := 10

/-- A listed product has more items than this. -/
def threshold : Int := 5

/-- The statements that insert one item of a product, in an order of its
own, and the identity of the item. -/
def itemStatements (shop : Shop) (product : String) : Task (String × List Statement) := do
  let order ← Task.identity
  let item ← Task.identity
  let user ← Task.identity
  let time ← Task.now
  return (item, [shop.insertOrder order user time, shop.insertItem item order product 1])

/-- The statements that insert the product of a number, after its items. -/
def productStatements (shop : Shop) (i : Nat) : Task (List Statement) := do
  let product ← Task.identity
  let count ← Task.draw itemLimit
  let items ← (List.range count).mapM fun _ => itemStatements shop product
  return items.flatMap Prod.snd
    ++ [shop.insertProduct product s!"product-{i}" 100 (items.map Prod.fst)]

/-- The statements that make a catalog. -/
def seedStatements (shop : Shop) (products : Nat) : Task (List Statement) := do
  let groups ← (List.range products).mapM (productStatements shop)
  return shop.createSchema ++ groups.flatten

/-- A catalog of products with their items, which is asked for what is popular. -/
def catalogFilter (shop : Shop) (products : Nat) : Workload requests where
  name := "catalog_filter"
  setup := do Task.execAll (← seedStatements shop products)
  attempt _ := discard (Task.query (shop.popular threshold))
  teardown := Task.execAll shop.dropSchema

end StoreBench.Scenario.Browse
