import StoreBench.Proofs.Document.Records
import StoreBench.Proofs.Scenario.Seeding
import StoreBench.Scenario.Browse

/-!
# `StoreBench.Proofs.Scenario.Catalog`: catalogs that are seeded

A catalog is seeded product by product. Each product draws its identity, a number of
items, and for every item the identities of an order, of the item and of a user. Then
the orders and the items are inserted and the product after them, which lists the
items that were drawn for it. An `Offer` is all that is drawn for one product, so a
catalog is a list of them (`draws_catalog`).

Its set-up succeeds where the collections are empty, and leaves the goods and the
lines of the offers (`run_setup`). What a product lists is what refers to it: the
lines of the catalog that name a product are those of its own offer
(`filter_lines`).
-/

set_option autoImplicit false

namespace StoreBench.Scenario

/-- Items come in parts, each with a key of its own. Those that are of one key are one
of the parts. -/
theorem filter_flatMap_eq {α β γ : Type} {key : α → γ} {part : α → List β} {test : β → Bool}
    {items : List α} {a : α} (hnodup : (items.map key).Nodup) (ha : a ∈ items)
    (htest : ∀ other, ∀ b ∈ part other, test b = true ↔ key other = key a) :
    (items.flatMap part).filter test = part a := by
  obtain ⟨before, after, rfl⟩ := List.append_of_mem ha
  rw [List.map_append, List.map_cons, List.nodup_middle, List.nodup_cons,
    ← List.map_append] at hnodup
  -- No other part has its key.
  have hothers {others : List α} (hsub : ∀ other ∈ others, other ∈ before ++ after) :
      (others.flatMap part).filter test = [] := by
    rw [List.filter_flatMap, List.flatMap_eq_nil_iff]
    intro other hother
    refine List.filter_eq_nil_iff.mpr fun b hb hmeets => hnodup.1 ?_
    exact List.mem_map.mpr ⟨other, hsub other hother, (htest other b hb).mp hmeets⟩
  have hown : (part a).filter test = part a :=
    List.filter_eq_self.mpr fun b hb => (htest a b hb).mpr rfl
  rw [List.flatMap_append, List.flatMap_cons, List.filter_append, List.filter_append, hown,
    hothers fun _ => List.mem_append_left _, hothers fun _ => List.mem_append_right _,
    List.nil_append, List.append_nil]

namespace Browse

/-! ### What is stored -/

/-- A product as it is stored, with the items that it lists. The document repeats these
identities, so that products can be found through their items. -/
structure Good where
  id : String
  name : String
  inventory : Int
  items : List String
deriving DecidableEq

/-- An item of an order as it is stored. It refers to its order and to its product by
their identities. -/
structure Line where
  id : String
  order : String
  product : String
  quantity : Int
deriving DecidableEq

/-- An order as it is stored: who placed it, and when. -/
structure Placed where
  id : String
  user : String
  time : Instant

/-- The document of a product under its identity, with its fields in the order in which
objects keep them. -/
def Good.entry (p : Good) : String × Json :=
  (p.id, .obj [("_id", .str p.id), ("inventory", .int p.inventory), ("name", .str p.name),
    ("order_items", .arr (p.items.map .str))])

/-- The document of an item under its identity. -/
def Line.entry (l : Line) : String × Json :=
  (l.id, .obj [("_id", .str l.id), ("order_id", .str l.order), ("product_id", .str l.product),
    ("quantity", .int l.quantity)])

/-- The document of an order under its identity. -/
def Placed.entry (o : Placed) : String × Json :=
  (o.id, .obj [("_id", .str o.id), ("created_at", .ofInstant o.time), ("user_id", .str o.user)])

/-- A product is told by its document, so lists of products can be compared by their
documents. -/
theorem Good.entry_injective : Function.Injective Good.entry := by
  rintro ⟨id, name, inventory, items⟩ ⟨id', name', inventory', items'⟩ h
  simp only [Good.entry, Prod.mk.injEq, Json.obj.injEq, List.cons.injEq, true_and, Json.str.injEq,
    Json.int.injEq, Json.arr.injEq, and_true] at h
  obtain ⟨rfl, -, rfl, rfl, hitems⟩ := h
  rw [List.map_injective_iff.mpr (fun a b h => Json.str.inj h) hitems]

/-- An item is told by its document, as each of its parts is a field. -/
theorem Line.entry_injective : Function.Injective Line.entry := by
  rintro ⟨id, order, product, quantity⟩ ⟨id', order', product', quantity'⟩ h
  simp only [Line.entry, Prod.mk.injEq, Json.obj.injEq, List.cons.injEq, true_and, Json.str.injEq,
    Json.int.injEq, and_true] at h
  obtain ⟨rfl, -, rfl, rfl, rfl⟩ := h
  rfl

/-- What inserts a product is the command that inserts its document. Putting its fields
into order is all that there is between the two. -/
theorem insertProduct_document (p : Good) :
    Shop.document.insertProduct p.id p.name p.inventory p.items
      = .document ⟨"products", .insertOne p.entry.2⟩ := by
  simp only [Shop.document, Statement.insert, Statement.on, Json.object, Fields.ofList,
    List.foldl_cons, List.foldl_nil, Fields.insert, String.reduceLT, String.reduceEq, if_true,
    if_false, Good.entry]

/-- What inserts an item is the command that inserts its document. -/
theorem insertItem_document (l : Line) :
    Shop.document.insertItem l.id l.order l.product l.quantity
      = .document ⟨"order_items", .insertOne l.entry.2⟩ := by
  simp only [Shop.document, Statement.insert, Statement.on, Json.object, Fields.ofList,
    List.foldl_cons, List.foldl_nil, Fields.insert, String.reduceLT, String.reduceEq, if_false,
    Line.entry]

/-- What inserts an order is the command that inserts its document. -/
theorem insertOrder_document (o : Placed) :
    Shop.document.insertOrder o.id o.user o.time
      = .document ⟨"orders", .insertOne o.entry.2⟩ := by
  simp only [Shop.document, Statement.insert, Statement.on, Json.object, Fields.ofList,
    List.foldl_cons, List.foldl_nil, Fields.insert, String.reduceLT, String.reduceEq, if_true,
    if_false, Placed.entry]

/-! ### What is drawn -/

/-- An item as it is drawn, in an order of its own. Its identity and those of its order
and its user come from the supply. -/
structure Drawn where
  order : String
  item : String
  user : String
  time : Instant

/-- A product as it is drawn, with its number and its items. How many items there are is
drawn at random for each product. -/
structure Offer where
  number : Nat
  id : String
  items : List Drawn

/-- The order that an item is drawn with. -/
def Drawn.placed (i : Drawn) : Placed := ⟨i.order, i.user, i.time⟩

/-- The item as it is stored. It refers to a product, whose identity is drawn before
those of its items. -/
def Drawn.line (product : String) (i : Drawn) : Line := ⟨i.item, i.order, product, 1⟩

/-- The identities that an item takes from the supply, in the order in which they are
drawn. -/
def Drawn.identities (i : Drawn) : List String := [i.order, i.item, i.user]

/-- What inserts an item and its order. The order comes first, so that the item finds
what it refers to. -/
def Drawn.commands (product : String) (i : Drawn) : List Command :=
  [⟨"orders", .insertOne i.placed.entry.2⟩, ⟨"order_items", .insertOne (i.line product).entry.2⟩]

namespace Offer

/-- The product that is stored for an offer. It lists its items and has a name by its
number. -/
def good (o : Offer) : Good := ⟨o.id, s!"product-{o.number}", 100, o.items.map Drawn.item⟩

/-- The items that are stored for an offer, all of them of its product. -/
def lines (o : Offer) : List Line := o.items.map (Drawn.line o.id)

/-- All identities that an offer takes from the supply, its own before those of its
items. -/
def identities (o : Offer) : List String := o.id :: o.items.flatMap Drawn.identities

/-- What inserts an offer. The product comes after its items, since it lists them. -/
def commands (o : Offer) : List Command :=
  o.items.flatMap (Drawn.commands o.id) ++ [⟨"products", .insertOne o.good.entry.2⟩]

end Offer

/-- Whatever the supply answers, the statements of an item are those of some drawn item,
made of the identities that were taken. -/
theorem draws_item (product : String) :
    Draws (fun drawn result => ∃ i : Drawn, drawn = i.identities ∧
        result = (i.item, (i.commands product).map .document))
      (itemStatements .document product) := by
  refine Draws.identity.bind fun _ order horder => Draws.identity.bind fun _ item hitem =>
    Draws.identity.bind fun _ user huser => (Draws.ask (by nofun) (by nofun)).bind
    fun _ time htime => .pure ⟨⟨order, item, user, time⟩, ?_, ?_⟩
  · rw [horder, hitem, huser, htime]
    rfl
  · exact congrArg (Prod.mk item) (congrArg₂ (fun a b => [a, b])
      (insertOrder_document ⟨order, user, time⟩) (insertItem_document ⟨item, order, product, 1⟩))

/-- Whatever the supply answers, the statements of a product with its items are those of
some drawn offer, however many items the random number asks for. -/
theorem draws_offer (i : Nat) :
    Draws (fun drawn statements => ∃ o : Offer, o.number = i ∧ drawn = o.identities ∧
        statements = o.commands.map .document)
      (productStatements .document i) := by
  refine Draws.identity.bind fun _ product hproduct => (Draws.ask (by nofun) (by nofun)).bind
    fun _ count hcount => ?_
  have hitems := Draws.mapM (fun _ drawn results => ∃ items : List Drawn,
      drawn = items.flatMap Drawn.identities ∧
      results = items.map fun i => (i.item, (i.commands product).map Statement.document))
    (fun _ => draws_item product) ⟨[], rfl, rfl⟩ (by
      rintro _ _ _ _ _ _ ⟨i, rfl, rfl⟩ ⟨items, rfl, rfl⟩
      exact ⟨i :: items, rfl, rfl⟩) (List.range count)
  refine hitems.bind ?_
  rintro _ _ ⟨items, rfl, rfl⟩
  refine .pure ⟨⟨i, product, items⟩, rfl, ?_, ?_⟩
  · rw [hproduct, hcount, List.append_nil]
    rfl
  · have hgood := insertProduct_document (Offer.good ⟨i, product, items⟩)
    rw [Offer.commands, List.map_append, List.map_flatMap, List.flatMap_map, List.map_map]
    exact congrArg (_ ++ [·]) hgood

/-- A catalog is an offer for every number, whatever is drawn. So all that is said of
lists of offers holds of every seeded catalog. -/
theorem draws_catalog (products : Nat) :
    Draws (fun drawn statements => ∃ catalog : List Offer,
        catalog.map Offer.number = List.range products ∧
        drawn = catalog.flatMap Offer.identities ∧
        statements = (catalog.flatMap Offer.commands).map .document)
      (seedStatements .document products) := by
  have hgroups := Draws.mapM (fun numbers drawn groups => ∃ catalog : List Offer,
      catalog.map Offer.number = numbers ∧ drawn = catalog.flatMap Offer.identities ∧
      groups = catalog.map fun o => o.commands.map Statement.document)
    draws_offer ⟨[], rfl, rfl, rfl⟩ (by
      rintro _ _ _ _ _ _ ⟨o, rfl, rfl, rfl⟩ ⟨catalog, rfl, rfl, rfl⟩
      exact ⟨o :: catalog, rfl, rfl, rfl⟩) (List.range products)
  refine hgroups.bind ?_
  rintro _ _ ⟨catalog, hnumbers, rfl, rfl⟩
  refine .pure ⟨catalog, hnumbers, List.append_nil _, ?_⟩
  rw [List.map_flatMap, List.flatMap_def]
  rfl

/-! ### What is inserted -/

/-- Each document of an item goes into a table of the shop, under one of the identities
that were drawn. -/
theorem inserts_item (product : String) (i : Drawn) :
    Inserts Shop.tables i.identities ((i.commands product).map .document) := by
  have horder : Inserts Shop.tables [i.order]
      [.document ⟨"orders", .insertOne i.placed.entry.2⟩] := .document rfl (by decide)
  have hitem : Inserts Shop.tables [i.item]
      [.document ⟨"order_items", .insertOne (i.line product).entry.2⟩] :=
    .document rfl (by decide)
  -- The user goes into the order, but nothing is stored under it.
  exact (horder.append hitem).mono (List.sublist_append_left [i.order, i.item] [i.user]).subperm

/-- So does each document of an offer. No place is used twice, unless an identity is. -/
theorem inserts_offer (o : Offer) :
    Inserts Shop.tables o.identities (o.commands.map .document) := by
  have hgood : Inserts Shop.tables [o.id] [.document ⟨"products", .insertOne o.good.entry.2⟩] :=
    .document rfl (by decide)
  rw [Offer.commands, List.map_append, List.map_flatMap]
  -- The product is drawn before its items and inserted after them.
  exact ((Inserts.flatMap o.items (inserts_item o.id)).append hgood).mono
    (List.perm_append_comm.trans (.of_eq rfl)).subperm

/-- A whole catalog goes to places that are made of its identities, and these are all
different where the identities are. -/
theorem seeds_catalog (catalog : List Offer) :
    Seeds Shop.tables (catalog.flatMap Offer.identities)
      ((catalog.flatMap Offer.commands).map .document) := by
  rw [List.map_flatMap]
  exact (Inserts.flatMap catalog inserts_offer).seeds

/-- Therefore seeding a shop meets what `Draws.site_run_setup` asks for, and succeeds
where its tables are empty. -/
theorem draws_seedStatements (products : Nat) :
    Draws (Seeds Shop.tables) (seedStatements .document products) := by
  refine (draws_catalog products).mono ?_
  rintro _ _ ⟨catalog, -, rfl, rfl⟩
  exact seeds_catalog catalog

/-- The documents of a catalog: its products, their items and the orders of these. -/
structure Holds (catalog : List Offer) (docs : Contents) : Prop where
  goods : (docs "products").Records Good.entry (catalog.map Offer.good)
  lines : (docs "order_items").Records Line.entry (catalog.flatMap Offer.lines)
  orders : (docs "orders").Records Placed.entry
    (catalog.flatMap fun o => o.items.map Drawn.placed)

/-- What is inserted into one collection, offer by offer. The collections mix in the
batch, and this picks one of them out of it. -/
theorem inserted_catalog (name : String) (catalog : List Offer) :
    (catalog.flatMap Offer.commands).filterMap (Command.inserted? name)
      = catalog.flatMap fun o =>
          (o.items.flatMap fun i => (i.commands o.id).filterMap (Command.inserted? name))
          ++ [⟨"products", .insertOne o.good.entry.2⟩].filterMap (Command.inserted? name) := by
  rw [List.filterMap_flatMap]
  refine congrArg (List.flatMap · catalog) (funext fun o => ?_)
  rw [Offer.commands, List.filterMap_append, List.filterMap_flatMap]

/-- The products of a batch are the offers' products, in their order. -/
theorem inserted_goods (catalog : List Offer) :
    (catalog.flatMap Offer.commands).filterMap (Command.inserted? "products")
      = (catalog.map Offer.good).map fun p => p.entry.2 := by
  have hitems (o : Offer) :
      (o.items.flatMap fun i => (i.commands o.id).filterMap (Command.inserted? "products")) = [] :=
    List.flatMap_eq_nil_iff.mpr fun _ _ => rfl
  simp only [inserted_catalog, hitems, List.nil_append]
  rw [List.map_map, List.map_eq_flatMap]
  rfl

/-- The items of a batch are the offers' items, offer by offer. -/
theorem inserted_lines (catalog : List Offer) :
    (catalog.flatMap Offer.commands).filterMap (Command.inserted? "order_items")
      = (catalog.flatMap Offer.lines).map fun l => l.entry.2 := by
  rw [inserted_catalog, List.map_flatMap]
  refine congrArg (List.flatMap · catalog) (funext fun o => ?_)
  rw [Offer.lines, List.map_map, List.map_eq_flatMap]
  exact List.append_nil _

/-- The orders of a batch are those that the items were drawn with. -/
theorem inserted_orders (catalog : List Offer) :
    (catalog.flatMap Offer.commands).filterMap (Command.inserted? "orders")
      = (catalog.flatMap fun o => o.items.map Drawn.placed).map fun o => o.entry.2 := by
  rw [inserted_catalog, List.map_flatMap]
  refine congrArg (List.flatMap · catalog) (funext fun o => ?_)
  rw [List.map_map, List.map_eq_flatMap]
  exact List.append_nil _

/-! ### The set-up -/

variable {catalog : List Offer} {o : Offer}

/-- A catalog can be seeded where its collections are empty, if no identity is taken
twice. -/
theorem run_setup {w : World Server} (hconnected : w.driver.connected = true)
    (hfaults : w.driver.faults = []) (hempty : ∀ name ∈ Shop.tables, w.driver.store.docs name = ∅)
    (products : Nat) (hfresh : (w.supply.taken w.identities
      (World.site.run w (catalogFilter .document products).setup.run).1.identities).Nodup) :
    ∃ (catalog : List Offer) (after : World Server),
      World.site.run w (catalogFilter .document products).setup.run = (after, .ok ()) ∧
      after.driver.connected = true ∧
      catalog.map Offer.number = List.range products ∧
      Holds catalog after.driver.store.docs := by
  obtain ⟨_, commands, after, hrun, -, ⟨catalog, hnumbers, -, hcommands⟩, hinserted⟩ :=
    (draws_catalog products).run_setup (by
      rintro _ _ ⟨catalog, -, rfl, rfl⟩
      exact seeds_catalog catalog) hconnected hfaults hempty hfresh
  -- What was inserted are the commands of the catalog that was drawn.
  obtain rfl : commands = catalog.flatMap Offer.commands :=
    List.map_injective_iff.mpr (fun a b h => Statement.document.inj h) hcommands
  have hbeside := (draws_seedStatements products).confined_setup.site_run hrun
  refine ⟨catalog, after, hrun, hbeside.connected.trans hconnected, hnumbers, ?_, ?_, ?_⟩
  · exact Documents.records_of_insertAll (hempty "products" (by decide)) (hinserted "products")
      (inserted_goods catalog) fun _ => rfl
  · exact Documents.records_of_insertAll (hempty "order_items" (by decide))
      (hinserted "order_items") (inserted_lines catalog) fun _ => rfl
  · exact Documents.records_of_insertAll (hempty "orders" (by decide)) (hinserted "orders")
      (inserted_orders catalog) fun _ => rfl

namespace Holds

variable {docs : Contents}

/-- No two products are the same, as each is stored under a key of its own. -/
theorem nodup_ids (h : Holds catalog docs) : (catalog.map Offer.id).Nodup := by
  have hnodup := h.goods.nodup
  rwa [List.map_map] at hnodup

end Holds

/-- The lines of a catalog that name a product are those of its offer. -/
theorem filter_lines (hnodup : (catalog.map Offer.id).Nodup) (ho : o ∈ catalog) :
    ((catalog.flatMap Offer.lines).filter fun l => l.product = o.id) = o.lines := by
  refine filter_flatMap_eq hnodup ho fun other l hl => ?_
  obtain ⟨i, -, rfl⟩ := List.mem_map.mp hl
  exact decide_eq_true_iff

end Browse

end StoreBench.Scenario
