import StoreBench.Row
import StoreBench.Scenario.Schema

/-!
# `StoreBench.Scenario.Shop`: the statements of a shop

A shop has products with an inventory, orders, the items of orders, and
payments. A SQL store finds the items of a product by a join; in a
document store a product carries the list of its items. Inventory is only
ever taken while there is some (`decrement`), so a count of zero affected
rows says that the product is sold out.
-/

set_option autoImplicit false

namespace StoreBench.Scenario

/-- What a shop does with its store. -/
structure Shop where
  createSchema : List Statement
  dropSchema : List Statement
  /-- A product of a name, an inventory and the items that refer to it. -/
  insertProduct : (id name : String) → (inventory : Int) → (items : List String) → Statement
  /-- Takes one piece of a product that has any. -/
  decrement : (product : String) → Statement
  /-- One row with the inventory of a product. -/
  inventoryOf : (product : String) → Statement
  insertOrder : (id user : String) → (time : Instant) → Statement
  insertItem : (id order product : String) → (quantity : Int) → Statement
  insertPayment : (id order : String) → (amount : Double) → Statement
  listOrders : Statement
  /-- The identity of an order in a row of `listOrders`. -/
  orderId : Row → Except BenchError String
  listItems : Statement
  listPayments : Statement
  /-- The products with more than so many items. -/
  popular : (least : Int) → Statement

namespace Shop

/-- The tables of a shop, those that refer to others first. -/
def tables : List String := ["order_items", "payments", "orders", "products"]

/-- A shop on a SQL store. -/
def sql (d : Dialect) : Shop where
  createSchema :=
    [ Dialect.createTable "products"
        ["id VARCHAR(255) PRIMARY KEY", "name VARCHAR(255) NOT NULL", "inventory INT NOT NULL"],
      Dialect.createTable "orders"
        ["id VARCHAR(255) PRIMARY KEY", "user_id VARCHAR(255) NOT NULL",
          s!"created_at {d.instantType} NOT NULL"],
      Dialect.createTable "order_items"
        ["id VARCHAR(255) PRIMARY KEY", "order_id VARCHAR(255) NOT NULL",
          "product_id VARCHAR(255) NOT NULL", "quantity INT NOT NULL"],
      Dialect.createTable "payments"
        ["id VARCHAR(255) PRIMARY KEY", "order_id VARCHAR(255) NOT NULL",
          s!"amount {d.doubleType} NOT NULL"] ]
  dropSchema := tables.map d.dropTable
  insertProduct id name inventory _ :=
    d.statement "INSERT INTO products (id, name, inventory) VALUES ($1, $2, $3)"
      [.text id, .text name, .int inventory]
  decrement product :=
    d.statement "UPDATE products SET inventory = inventory - 1 WHERE id = $1 AND inventory > 0"
      [.text product]
  inventoryOf product :=
    d.statement "SELECT inventory FROM products WHERE id = $1" [.text product]
  insertOrder id user time :=
    d.statement "INSERT INTO orders (id, user_id, created_at) VALUES ($1, $2, $3)"
      [.text id, .text user, .timestamp time]
  insertItem id order product quantity :=
    d.statement
      "INSERT INTO order_items (id, order_id, product_id, quantity) VALUES ($1, $2, $3, $4)"
      [.text id, .text order, .text product, .int quantity]
  insertPayment id order amount :=
    d.statement "INSERT INTO payments (id, order_id, amount) VALUES ($1, $2, $3)"
      [.text id, .text order, .float amount]
  listOrders := .sql "SELECT id FROM orders" []
  orderId row := row.scanNamed Value.toText "id"
  listItems := .sql "SELECT id, order_id FROM order_items" []
  listPayments := .sql "SELECT id, order_id FROM payments" []
  popular least :=
    d.statement ("SELECT p.id FROM products p JOIN order_items oi ON p.id = oi.product_id "
      ++ "GROUP BY p.id HAVING COUNT(oi.id) > $1") [.int least]

/-- A shop on a document store, which needs no schema. -/
def document : Shop where
  createSchema := []
  dropSchema := tables.map fun table => .on table .dropCollection
  insertProduct id name inventory items :=
    .insert "products"
      [ ("_id", .str id), ("name", .str name), ("inventory", .int inventory),
        ("order_items", .arr (items.map Json.str)) ]
  decrement product :=
    .on "products" (.updateOne [("_id", .eq (.str product)), ("inventory", .gt (.int 0))]
      [.inc "inventory" (-1)])
  inventoryOf product := .on "products" (.findOne (.eq "_id" (.str product)))
  insertOrder id user time :=
    .insert "orders"
      [("_id", .str id), ("user_id", .str user), ("created_at", .ofInstant time)]
  insertItem id order product quantity :=
    .insert "order_items"
      [ ("_id", .str id), ("order_id", .str order), ("product_id", .str product),
        ("quantity", .int quantity) ]
  insertPayment id order amount :=
    .insert "payments"
      [("_id", .str id), ("order_id", .str order), ("amount", .ofDouble amount)]
  listOrders := .find "orders" .all
  orderId row := row.scanNamed Value.toText "_id"
  listItems := .find "order_items" .all
  listPayments := .find "payments" .all
  popular least := .find "products" [("order_items", .sizeGt least.toNat)]

/-- The statements for a backend. -/
def on (b : Backend) : Shop :=
  match b.dialect? with
  | some d => sql d
  | none => document

end Shop

end StoreBench.Scenario
