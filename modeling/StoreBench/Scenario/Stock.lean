import StoreBench.Load.Workload
import StoreBench.Scenario.Request
import StoreBench.Scenario.Shop

/-!
# `StoreBench.Scenario.Stock`: selling out a product

All workers sell pieces of one product until none is left, which ends the
run. `inventoryUpdate` only takes pieces, and the inventory must end at
zero. `orderProcessing` also records an order with one item and one
payment for each piece, in the same transaction: afterwards there must be
as many complete orders as pieces are missing.
-/

set_option autoImplicit false

namespace StoreBench.Scenario.Stock

/-- The product that is sold. -/
def product : String := "product1"

/-- What each order is paid with. -/
def paymentAmount : Double := .nearest false 21 2

/-- Makes the tables, and the one product with its stock. -/
def setup (shop : Shop) (inventory : Int) : Task Unit :=
  Task.execAll
    (shop.createSchema ++ [shop.insertProduct product "test product" inventory []])

/-- Takes one piece, as the last statement of a transaction. -/
def takePiece (shop : Shop) : Task Unit := do
  if (← Task.execIn (shop.decrement product)) = 0 then
    throw (.error (.exhausted "inventory"))

/-- The pieces that are left. -/
def remaining (shop : Shop) : Task Int := do
  match ← Task.queryRow (shop.inventoryOf product) with
  | some row => row.scanNamed Value.toInt "inventory"
  | none => throw (.error (.notFound "product" product))

/-- Clients that take pieces of one product until it is sold out. -/
def inventoryUpdate (shop : Shop) (inventory : Int) : Workload requests where
  name := "inventory_update"
  setup := setup shop inventory
  attempt _ := Task.transact (takePiece shop)
  verify := return some ((← remaining shop) == 0)
  teardown := Task.execAll shop.dropSchema

/-! ### Orders -/

/-- The statements that record one order of one piece. -/
def orderStatements (shop : Shop) : Task (List Statement) := do
  let order ← Task.identity
  let user ← Task.identity
  let time ← Task.now
  let item ← Task.identity
  let payment ← Task.identity
  return [ shop.insertOrder order user time, shop.insertItem item order product 1,
    shop.insertPayment payment order paymentAmount ]

/-- The orders in rows. -/
def orderIds (shop : Shop) (rows : List Row) : Except BenchError (List String) :=
  rows.mapM shop.orderId

/-- The orders that rows of items or payments belong to. -/
def orderOf (rows : List Row) : Except BenchError (List String) :=
  rows.mapM fun row => row.scanNamed Value.toText "order_id"

/-- Whether orders are complete: as many as pieces were sold, each with
one item and one payment, and no item or payment of any other order. -/
def complete (sold : Int) (orders items payments : List String) : Bool :=
  (orders.length : Int) == sold
  && orders.all (fun order => items.count order == 1 && payments.count order == 1)
  && items.eraseDups.length == orders.length
  && payments.eraseDups.length == orders.length

/-- Clients that take a piece and leave an order, its item and a payment for it. -/
def orderProcessing (shop : Shop) (inventory : Int) : Workload requests where
  name := "order_processing"
  setup := setup shop inventory
  attempt _ := do
    let statements ← orderStatements shop
    Task.transact do
      statements.forM fun s => discard (Task.execIn s)
      takePiece shop
  verify := do
    let remaining ← remaining shop
    let orders ← Task.query shop.listOrders
    let items ← orderOf (← Task.query shop.listItems)
    let payments ← orderOf (← Task.query shop.listPayments)
    let sold ← subWord inventory remaining
    let orders ← orderIds shop orders
    return some (complete sold orders items payments)
  teardown := Task.execAll shop.dropSchema

end StoreBench.Scenario.Stock
