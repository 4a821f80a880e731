import Mathlib.Data.Fin.VecNotation
import StoreBench.Proofs.Scenario.Check
import StoreBench.Proofs.Scenario.Residue
import StoreBench.Proofs.Sql.Grouping

/-!
# `StoreBench.Proofs.Scenario.Popular`: the products that are asked for most

A product is popular when it has more than so many items, and any at all (`popular`).
A SQL store counts the items of each product when it is asked. A document store only
looks at the list that the product carries, which was made when the product was
stored.

Both come to the same for a catalog. Its products list what refers to them
(`Holds.items_eq`), so the length of the list is the number of items, and the query of
a document store finds the popular products (`popular_document`). The selection of a
SQL store with the same products and items joins the two and groups the pairs by
product, where a product without items is in no pair (`popular_sql`).
`popular_agree` puts the two side by side.
-/

set_option autoImplicit false

namespace StoreBench.Scenario.Browse

/-! ### Popular products -/

/-- The items that name a product, in the order in which they are listed. -/
def linesOf (lines : List Line) (product : String) : List Line :=
  lines.filter fun l => l.product = product

/-- The products with at least one item, and more than so many. -/
def popular (goods : List Good) (lines : List Line) (least : Int) : List Good :=
  goods.filter fun p =>
    decide (0 < (linesOf lines p.id).length ∧ least < (linesOf lines p.id).length)

variable {goods : List Good} {lines : List Line} {least : Int} {p : Good}

/-- A product is popular when some item names it and more than so many do. The first
only matters for a threshold below zero. -/
theorem mem_popular : p ∈ popular goods lines least ↔
    p ∈ goods ∧ (∃ l ∈ lines, l.product = p.id) ∧ least < (linesOf lines p.id).length := by
  have hany : 0 < (linesOf lines p.id).length ↔ ∃ l ∈ lines, l.product = p.id := by
    rw [List.length_pos_iff_exists_mem]
    simp only [linesOf, List.mem_filter, decide_eq_true_iff]
  rw [popular, List.mem_filter, decide_eq_true_iff, hany]

/-- The order of products and items does not matter. -/
theorem popular_perm {goods' : List Good} {lines' : List Line} (hgoods : goods'.Perm goods)
    (hlines : lines'.Perm lines) (least : Int) :
    (popular goods' lines' least).Perm (popular goods lines least) := by
  have hcount (product : String) :
      (linesOf lines' product).length = (linesOf lines product).length :=
    (hlines.filter _).length_eq
  simp only [popular, hcount]
  exact hgoods.filter _

/-! ### In a document store -/

/-- A product says how many items it has. -/
theorem selects_popular (p : Good) (least : Int) :
    Filter.selects [("order_items", .sizeGt least.toNat)] p.entry.2
      = decide (0 < p.items.length ∧ least < p.items.length) := by
  have hlist : p.entry.2.lookup "order_items" = some (.arr (p.items.map .str)) := rfl
  rw [Filter.selects, List.all_cons, List.all_nil, Bool.and_true, hlist, Predicate.holds,
    List.length_map, decide_eq_decide]
  omega

variable {w : World Server}

/-- A document store whose products list their items finds the popular ones. -/
theorem popular_document (hconnected : w.driver.connected = true)
    (hgoods : (w.driver.store.docs "products").Records Good.entry goods)
    (hlisted : ∀ p ∈ goods, p.items.length = (linesOf lines p.id).length) (least : Int) :
    ∃ rows, (World.site.run w (Task.query (Shop.document.popular least)).run).2 = .ok rows ∧
      rows.Perm ((popular goods lines least).map fun p => p.entry.2.toRow) := by
  obtain ⟨found, hfound, hrows⟩ :=
    hgoods.rows_find [("order_items", .sizeGt least.toNat)]
  have hsame : (goods.filter fun p =>
      Filter.selects [("order_items", .sizeGt least.toNat)] p.entry.2)
        = popular goods lines least := by
    refine List.filter_congr fun p hp => ?_
    rw [selects_popular, hlisted p hp]
  rw [hsame] at hfound
  refine ⟨_, World.Finds.result ?_, hfound.map _⟩
  rw [← bind_pure (Task.query _)]
  refine .query hconnected rfl ?_
  rw [hrows]
  exact .done w _

/-- The products of a catalog list the items that name them. -/
theorem Holds.items_eq {catalog : List Offer} {docs : Contents} (h : Holds catalog docs) :
    ∀ p ∈ catalog.map Offer.good,
      p.items = (linesOf (catalog.flatMap Offer.lines) p.id).map Line.id := by
  refine List.forall_mem_map.mpr fun o ho => ?_
  have hlines : linesOf (catalog.flatMap Offer.lines) o.good.id = o.lines :=
    filter_lines h.nodup_ids ho
  rw [hlines, Offer.lines, List.map_map]
  rfl

/-- So the lists are as long as they should be, in any order of products and items. -/
theorem Holds.length_items {catalog : List Offer} {docs : Contents} (h : Holds catalog docs)
    (hgoods : (docs "products").Records Good.entry goods)
    (hlines : (docs "order_items").Records Line.entry lines) :
    ∀ p ∈ goods, p.items.length = (linesOf lines p.id).length := by
  intro p hp
  have hgood := (hgoods.perm_of_records h.goods Good.entry_injective).mem_iff.mp hp
  have hperm := hlines.perm_of_records h.lines Line.entry_injective
  rw [h.items_eq p hgood, List.length_map]
  exact ((hperm.filter _).length_eq).symm

/-! ### In a SQL store -/

open Sql (Affinity Bound Cell Expr Instruction Table)

/-- A product as a row of its table. -/
def Good.cells (p : Good) : List Cell := [.text p.id, .text p.name, .int p.inventory]

/-- An item as a row of its table. -/
def Line.cells (l : Line) : List Cell :=
  [.text l.id, .text l.order, .text l.product, .int l.quantity]

/-- The columns of products, with how each compares. -/
def goodColumns : List (String × Affinity) :=
  [("id", .text), ("name", .text), ("inventory", .integer)]

/-- The columns of items, with how each compares. -/
def lineColumns : List (String × Affinity) :=
  [("id", .text), ("order_id", .text), ("product_id", .text), ("quantity", .integer)]

/-- The tables of a database hold these products and items, in the columns of a shop. -/
structure Tabled (d : Sql.Database) (goods : List Good) (lines : List Line) : Prop where
  goods : ∃ t : Table, d.table "products" = .ok t ∧ t.Typed goodColumns ∧
    t.rows.values.Perm (goods.map Good.cells)
  lines : ∃ t : Table, d.table "order_items" = .ok t ∧ t.Typed lineColumns ∧
    t.rows.values.Perm (lines.map Line.cells)

/-- A product in a row of an answer, which has its identity and no more. -/
def Good.row (p : Good) : Row := ⟨["id"], [.text p.id]⟩

/-- The number of items of a group is more than the parameter. -/
def enough : Expr := .binary .greater (.call "count" [.column (some "oi") "id"]) (.param 1)

/-- The statement that counts, as it is read. -/
def counting : Sql.Select where
  columns := [.expr (.column (some "p") "id") "id"]
  sources :=
    [ ⟨"products", "p", none⟩,
      ⟨"order_items", "oi",
        some (.binary .equal (.column (some "p") "id") (.column (some "oi") "product_id"))⟩ ]
  condition := none
  groupBy := [.column (some "p") "id"]
  having := some enough
  orderBy := []

/-- The text of it, as it is sent. -/
def countingText : String :=
  Dialect.sqlite.render ("SELECT p.id FROM products p JOIN order_items oi ON p.id = oi.product_id "
    ++ "GROUP BY p.id HAVING COUNT(oi.id) > $1")

/-- The text is read as this selection, parsed by evaluation. -/
theorem ofText_counting : Instruction.ofText countingText = [.ok (.select counting)] := by
  decide +kernel

/-- The columns of products and those of items, each by its table, its name and its
affinity. -/
def places : Fin 7 → String × String × Affinity :=
  ![("p", "id", .text), ("p", "name", .text), ("p", "inventory", .integer), ("oi", "id", .text),
    ("oi", "order_id", .text), ("oi", "product_id", .text), ("oi", "quantity", .integer)]

/-- A row of products beside a row of items. -/
def beside (cells : Fin 7 → Cell) (i : Fin 7) : Bound :=
  ⟨(places i).1, (places i).2.1, (places i).2.2, cells i⟩

/-- No two columns of the pair have one name in one source, so that each is found. -/
theorem distinct_beside (cells : Fin 7 → Cell) : Sql.Distinct (beside cells) := by
  show ∀ i j : Fin 7, Sql.sameName (places j).2.1 (places i).2.1 = true →
    Sql.sameName (places j).1 (places i).1 = true → j = i
  decide

/-- The cells of a product and an item. -/
def pairCells (pair : Good × Line) : Fin 7 → Cell :=
  ![.text pair.1.id, .text pair.1.name, .int pair.1.inventory, .text pair.2.id,
    .text pair.2.order, .text pair.2.product, .int pair.2.quantity]

/-- The row of a product and an item. -/
def pairRow (pair : Good × Line) : List Bound := List.ofFn (beside (pairCells pair))

/-- The products, each beside each item that names it. -/
def pairs (goods : List Good) (lines : List Line) : List (Good × Line) :=
  (goods ×ˢ lines).filter fun pair => decide (pair.1.id = pair.2.product)

variable {d : Sql.Database} {tableOfGoods tableOfLines : Table}

/-- A product beside an item is what the join makes of their rows. -/
theorem bind_beside (hgoods : tableOfGoods.Typed goodColumns)
    (hlines : tableOfLines.Typed lineColumns) (pair : Good × Line) :
    tableOfGoods.bind "p" pair.1.cells ++ tableOfLines.bind "oi" pair.2.cells = pairRow pair := by
  rw [hgoods.bind, hlines.bind, pairRow, List.ofFn_eq_map]
  rfl

/-- Where there are no pairs the columns are still known, with nothing in them. -/
theorem blankRow_counting (hgoods : d.table "products" = .ok tableOfGoods)
    (hgoodColumns : tableOfGoods.Typed goodColumns)
    (hlines : d.table "order_items" = .ok tableOfLines)
    (hlineColumns : tableOfLines.Typed lineColumns) :
    d.blankRow counting.sources = .ok (List.ofFn (beside fun _ => .null)) := by
  rw [counting, Sql.Database.blankRow_pair hgoods hlines, hgoodColumns.blank, hlineColumns.blank,
    List.ofFn_eq_map]
  rfl

/-- The column that the statement asks for, under its own name. -/
def shown : List (Expr × String) := [(.column (some "p") "id", "id")]

/-- Every column that the statement speaks of is there. -/
theorem checked_counting :
    Sql.Database.Checked true (List.ofFn (beside fun _ => .null)) shown counting := by
  have hcheck := (distinct_beside fun _ => .null).check
  refine ⟨rfl, ?_, ?_, nofun, ?_, ?_⟩
  · rintro source hsource e he
    rcases List.mem_pair.mp hsource with rfl | rfl
    · cases he
    · cases he
      exact Expr.check_binary (hcheck 0 false) (hcheck 5 false)
  · exact List.forall_mem_singleton.mpr (hcheck 0 true)
  · exact List.forall_mem_singleton.mpr (hcheck 0 false)
  · rintro e ⟨⟩
    exact Expr.check_binary (Expr.check_count (hcheck 3 false)) rfl

section Pair

variable (pair : Good × Line)

/-- A column of the pair has the value of its cell, with any parameters and in any
group. -/
theorem eval_pair (i : Fin 7) (params : List Cell) (group : List (List Bound)) :
    Expr.eval ⟨params, pairRow pair, group⟩ (.column (some (places i).1) (places i).2.1)
      = .ok (pairCells pair i) :=
  (distinct_beside (pairCells pair)).eval i params group

/-- A product is joined to the items that name it. -/
theorem holds_joinedOn (params : List Cell) :
    Expr.holds ⟨params, pairRow pair, []⟩
        (some (.binary .equal (.column (some "p") "id") (.column (some "oi") "product_id")))
      = .ok (decide (pair.1.id = pair.2.product)) :=
  Expr.holds_equal_text (eval_pair pair 0 params []) (eval_pair pair 5 params [])
    (congrArg Affinity.isNumeric ((distinct_beside (pairCells pair)).affinity 0))
    (congrArg Affinity.isNumeric ((distinct_beside (pairCells pair)).affinity 5))

/-- A group is wanted if it has more rows than the parameter says. -/
theorem holds_enough (members : List (Good × Line)) (least : Int) :
    Expr.holds ⟨[.int least], pairRow pair, members.map pairRow⟩ (some enough)
      = .ok (decide (least < members.length)) :=
  Expr.holds_greater_int
    (Expr.eval_count rfl (fun pair _ => eval_pair pair 3 _ []) fun _ _ => rfl) rfl rfl rfl

end Pair

/-- The pairs of the join, product by product. So a group is all the items of one
product. -/
theorem pairs_eq_flatMap (goods : List Good) (lines : List Line) :
    pairs goods lines = goods.flatMap fun p => (linesOf lines p.id).map fun l => (p, l) := by
  have hproduct : goods ×ˢ lines = goods.flatMap fun p => lines.map fun l => (p, l) := rfl
  rw [pairs, hproduct, List.filter_flatMap]
  refine congrArg (List.flatMap · goods) (funext fun p => ?_)
  have hsame : (fun l : Line => decide (p.id = l.product)) = fun l => decide (l.product = p.id) :=
    funext fun l => decide_eq_decide.mpr eq_comm
  rw [List.filter_map, linesOf, ← hsame]
  rfl

/-- The pairs of one product have each of its items once. -/
theorem filter_pairs (hnodup : (goods.map Good.id).Nodup) (hp : p ∈ goods) :
    ((pairs goods lines).filter fun pair => pair.1.id = p.id)
      = (linesOf lines p.id).map fun l => (p, l) := by
  rw [pairs_eq_flatMap]
  refine filter_flatMap_eq hnodup hp fun other pair hpair => ?_
  obtain ⟨l, -, rfl⟩ := List.mem_map.mp hpair
  exact decide_eq_true_iff

/-- There are more than so many pairs of a product. -/
def wanted (goods : List Good) (lines : List Line) (least : Int) (id : String) : Bool :=
  decide (least < ((pairs goods lines).filter fun pair => pair.1.id = id).length)

/-- The products that have pairs, and more than so many, are the popular ones. -/
theorem filter_wanted_perm {ids : List String} (hnodup : (goods.map Good.id).Nodup)
    (hids : ids.Nodup) (hmem : ∀ id, id ∈ ids ↔ ∃ pair ∈ pairs goods lines, pair.1.id = id)
    (least : Int) :
    (ids.filter (wanted goods lines least)).Perm ((popular goods lines least).map Good.id) := by
  have hpopular : ((popular goods lines least).map Good.id).Nodup :=
    hnodup.sublist (List.filter_sublist.map _)
  -- Nothing is twice in either list, so they need only have the same members.
  refine (List.perm_ext_iff_of_nodup (hids.filter _) hpopular).mpr fun id => ?_
  simp only [List.mem_filter, hmem, wanted, decide_eq_true_iff, List.mem_map, mem_popular]
  constructor
  · rintro ⟨⟨⟨p, l⟩, hpair, rfl⟩, hleast⟩
    obtain ⟨hmember, hon⟩ := List.mem_filter.mp hpair
    obtain ⟨hp, hl⟩ := List.pair_mem_product.mp hmember
    rw [filter_pairs hnodup hp, List.length_map] at hleast
    exact ⟨p, ⟨hp, ⟨l, hl, (of_decide_eq_true hon).symm⟩, hleast⟩, rfl⟩
  · rintro ⟨p, ⟨hp, ⟨l, hl, hnamed⟩, hleast⟩, rfl⟩
    refine ⟨⟨(p, l), List.mem_filter.mpr ⟨List.pair_mem_product.mpr ⟨hp, hl⟩,
      decide_eq_true hnamed.symm⟩, rfl⟩, ?_⟩
    rwa [filter_pairs hnodup hp, List.length_map]

/-- The statement finds the popular products, each once, in some order. -/
theorem select_counting (h : Tabled d goods lines) (hnodup : (goods.map Good.id).Nodup)
    (least : Int) :
    ∃ ids : List String, ids.Perm ((popular goods lines least).map Good.id) ∧
      d.select [.int least] counting = .ok
        { columns := ["id"], rows := ids.map fun id => [.text id] } := by
  obtain ⟨tableOfGoods, hgoods, hgoodColumns, hgoodRows⟩ := h.goods
  obtain ⟨tableOfLines, hlines, hlineColumns, hlineRows⟩ := h.lines
  -- The tables list the products and the items in some order.
  obtain ⟨goods', hgoods', hperm⟩ := exists_map_of_perm hgoodRows
  obtain ⟨lines', hlines', hperm'⟩ := exists_map_of_perm hlineRows
  have hrow := bind_beside hgoodColumns hlineColumns
  have hjoined : d.joinSources [.int least] counting.sources [[]]
      = .ok ((pairs goods' lines').map pairRow) := by
    rw [counting, Sql.Database.joinSources_first hgoods hgoods' rfl,
      Sql.Database.joinSources_cons hlines hlines' fun pair => (hrow pair).symm ▸
        holds_joinedOn pair [.int least], Sql.Database.joinSources]
    simp only [hrow]
    rfl
  have hresults : Sql.Database.resultColumns (List.ofFn (beside fun _ => .null)) counting
      = .ok shown := rfl
  obtain ⟨ids, hids, hmem, hselect⟩ : ∃ ids : List String, ids.Nodup ∧
      (∀ id, id ∈ ids ↔ ∃ pair ∈ pairs goods' lines', pair.1.id = id) ∧
      d.select [.int least] counting = .ok
        { columns := ["id"]
          rows := (ids.filter (wanted goods' lines' least)).map fun id => [.text id] } :=
    Sql.Database.select_grouped rfl rfl rfl
      (blankRow_counting hgoods hgoodColumns hlines hlineColumns) hresults checked_counting hjoined
      (fun pair _ => eval_pair pair 0 _ []) (fun pair _ => holds_enough pair _ least)
      fun pair _ => Expr.evalAll_cons (eval_pair pair 0 _ _) rfl
  have hnodup' : (goods'.map Good.id).Nodup := ((hperm.map Good.id).nodup_iff).mpr hnodup
  exact ⟨_, (filter_wanted_perm hnodup' hids hmem least).trans
    ((popular_perm hperm hperm' least).map Good.id), hselect⟩

/-- A SQL store finds the popular products, and each row is the identity of one. -/
theorem popular_sql {v : World Sql.Server} (hconnected : v.driver.isConnected = true)
    (h : Tabled v.driver.database goods lines) (hnodup : (goods.map Good.id).Nodup) (least : Int) :
    ∃ rows, (World.site.run v (Task.query ((Shop.sql .sqlite).popular least)).run).2 = .ok rows ∧
      rows.Perm ((popular goods lines least).map Good.row) := by
  obtain ⟨ids, hids, hselect⟩ := select_counting h hnodup least
  refine ⟨ids.map fun id => ⟨["id"], [.text id]⟩, ?_, ?_⟩
  · have hrows : Sql.Answer.toRows { columns := ["id"], rows := ids.map fun id => [Cell.text id] }
        = .ok (ids.map fun id => ⟨["id"], [.text id]⟩) := by
      refine mapM_map_ok ids fun id _ => ?_
      rfl
    have hstatement : (Shop.sql .sqlite).popular least = .sql countingText [.int least] := rfl
    have hparams : [.int least] = [Value.int least].map Cell.ofValue := rfl
    rw [hparams] at hselect
    have hread := ofText_counting
    rw [hstatement, World.run_query]
    -- What the text is does not matter any more, only how it is read.
    generalize countingText = text at hread
    exact Sql.Server.answer_select hconnected hread hselect hrows none
  · have hmapped := hids.map fun id => (⟨["id"], [.text id]⟩ : Row)
    rwa [List.map_map] at hmapped

/-! ### Catalogs that are seeded -/

/-- A catalog of any number of products can be seeded where its collections are empty.
Whichever way its products and items are listed, the query of a document store finds
the popular ones among the products, whatever number of items is asked for: those that
at least one item names, and more than so many. A SQL store with the same products and
items in its tables finds the same.

The store is connected and no faults are queued. No identity is taken twice. -/
theorem popular_agree {w : World Server} (hconnected : w.driver.connected = true)
    (hfaults : w.driver.faults = []) (hempty : ∀ name ∈ Shop.tables, w.driver.store.docs name = ∅)
    (products : Nat) (hfresh : (w.supply.taken w.identities
      (World.site.run w (catalogFilter .document products).setup.run).1.identities).Nodup) :
    ∃ after, World.site.run w (catalogFilter .document products).setup.run = (after, .ok ()) ∧
      (∃ (goods : List Good) (lines : List Line), goods.length = products ∧
        (after.driver.store.docs "products").Records Good.entry goods ∧
        (after.driver.store.docs "order_items").Records Line.entry lines) ∧
      ∀ (goods : List Good) (lines : List Line),
        (after.driver.store.docs "products").Records Good.entry goods →
        (after.driver.store.docs "order_items").Records Line.entry lines →
        ∀ least : Int,
          (∃ rows, (World.site.run after (Task.query (Shop.document.popular least)).run).2
              = .ok rows ∧
            rows.Perm ((popular goods lines least).map fun p => p.entry.2.toRow)) ∧
          (popular goods lines least).Nodup ∧
          (∀ p, p ∈ popular goods lines least ↔ p ∈ goods ∧ (∃ l ∈ lines, l.product = p.id) ∧
            least < (linesOf lines p.id).length) ∧
          ∀ v : World Sql.Server, v.driver.isConnected = true →
            Tabled v.driver.database goods lines →
            ∃ rows, (World.site.run v (Task.query ((Shop.sql .sqlite).popular least)).run).2
                = .ok rows ∧
              rows.Perm ((popular goods lines least).map Good.row) := by
  obtain ⟨catalog, after, hrun, hafter, hnumbers, hholds⟩ :=
    run_setup hconnected hfaults hempty products hfresh
  refine ⟨after, hrun, ⟨_, _, ?_, hholds.goods, hholds.lines⟩, ?_⟩
  · have hlength := congrArg List.length hnumbers
    rwa [List.length_map, List.length_range, ← List.length_map (f := Offer.good)] at hlength
  · intro goods lines hgoods hlines least
    -- The catalog keeps its lists as long as the items are, which is all that the two
    -- stores differ in.
    have hids : (goods.map Good.id).Nodup := hgoods.nodup
    exact ⟨popular_document hafter hgoods (hholds.length_items hgoods hlines) least,
      (List.Nodup.of_map _ hids).filter _, fun p => mem_popular,
      fun v hv htabled => popular_sql hv htabled hids least⟩

/-- A catalog of three products, of which the first has no items. -/
def stall : World Server :=
  (World.site.run desk (catalogFilter .document 3).setup.run).1

/-- Goods of a stall: one that is named twice, one that is named once, and what nobody
asks for. -/
def stallGoods : List Good :=
  [⟨"0", "product-0", 100, []⟩, ⟨"1", "product-1", 100, ["3"]⟩,
    ⟨"5", "product-2", 100, ["7", "10"]⟩]

/-- What was asked for at the stall. -/
def stallLines : List Line := [⟨"10", "9", "5", 1⟩, ⟨"3", "2", "1", 1⟩, ⟨"7", "6", "5", 1⟩]

/-- The stall in tables. They hold what the catalog holds, in an order of their own. -/
def stallTables : Sql.Database :=
  { tables :=
      [ ⟨"products", [⟨"id", "VARCHAR (255)", false, true⟩, ⟨"name", "VARCHAR (255)", true, false⟩,
            ⟨"inventory", "INT", true, false⟩], ["id"],
          (∅ : Std.ExtTreeMap Int (List Cell)).insertMany
            (stallGoods.zipIdx.map fun entry => ((entry.2 : Int), entry.1.cells)), ∅⟩,
        ⟨"order_items", [⟨"id", "VARCHAR (255)", false, true⟩,
            ⟨"order_id", "VARCHAR (255)", true, false⟩,
            ⟨"product_id", "VARCHAR (255)", true, false⟩, ⟨"quantity", "INT", true, false⟩], ["id"],
          (∅ : Std.ExtTreeMap Int (List Cell)).insertMany
            (stallLines.zipIdx.map fun entry => ((entry.2 : Int), entry.1.cells)), ∅⟩ ] }

/-- Whoever asks for more than no items, or for more than minus seven, has the two
products with items. -/
theorem popular_agree_stall :
    let v : World Sql.Server :=
      { driver := { path := some "shop.db", database := stallTables }, clock := ⟨0, 0⟩ }
    (desk.driver.connected = true ∧ desk.driver.faults = [] ∧
      (∀ name ∈ Shop.tables, desk.driver.store.docs name = ∅) ∧
      (desk.supply.taken desk.identities stall.identities).Nodup) ∧
    ((popular stallGoods stallLines (-7)).map Good.id = ["1", "5"] ∧
      (popular stallGoods stallLines 0).map Good.id = ["1", "5"] ∧
      (popular stallGoods stallLines 1).map Good.id = ["5"]) ∧
    (∃ rows, (World.site.run stall (Task.query (Shop.document.popular (-7))).run).2 = .ok rows ∧
      rows.Perm ((popular stallGoods stallLines (-7)).map fun p => p.entry.2.toRow)) ∧
    ∃ rows, (World.site.run v (Task.query ((Shop.sql .sqlite).popular (-7))).run).2 = .ok rows ∧
      rows.Perm ((popular stallGoods stallLines (-7)).map Good.row) := by
  intro v
  have hempty : ∀ name ∈ Shop.tables, desk.driver.store.docs name = ∅ := fun name hname =>
    docs_desk (by rintro rfl; exact absurd hname (by decide))
  have hfresh : (desk.supply.taken desk.identities stall.identities).Nodup :=
    Supply.nodup_taken Text.toString_injective _ _
  obtain ⟨after, hrun, -, hagree⟩ := popular_agree rfl rfl hempty 3 hfresh
  obtain rfl : stall = after := congrArg Prod.fst hrun
  have hgoods : (stall.driver.store.docs "products").Records Good.entry stallGoods :=
    Documents.records_of_toList rfl
  have hlines : (stall.driver.store.docs "order_items").Records Line.entry stallLines :=
    Documents.records_of_toList rfl
  have htabled : Tabled v.driver.database stallGoods stallLines :=
    ⟨⟨_, rfl, by rfl, .of_eq rfl⟩, ⟨_, rfl, by rfl, .of_eq rfl⟩⟩
  obtain ⟨hrows, -, -, hsql⟩ := hagree _ _ hgoods hlines (-7)
  exact ⟨⟨rfl, rfl, hempty, hfresh⟩, by decide, hrows, hsql v rfl htabled⟩

end StoreBench.Scenario.Browse
