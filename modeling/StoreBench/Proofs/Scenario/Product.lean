import StoreBench.Proofs.Document.Listing
import StoreBench.Proofs.Number.Order
import StoreBench.Scenario.Stock

/-!
# `StoreBench.Proofs.Scenario.Product`: the document of the product on sale

`Stocked docs k` says that a collection holds the product with `k` pieces left
and no other document that goes by its identity. `stocked_of_matching` shows
that setting up leads there. Taking a piece leaves the product with one piece
less if there is any (`Stocked.take`), and nothing changed otherwise
(`Stocked.take_none`).

The filter that takes a piece compares the inventory as a binary64 number
(`selects_available`), so the rounding of whole numbers must not blur zero;
`compare?_ofInt_zero` says that it does not.
-/

set_option autoImplicit false

namespace StoreBench

namespace Scenario.Stock

/-! ### The document -/

/-- The fields of the product with so many pieces, in the order of their names. -/
def productFields (k : Int) : Fields :=
  [("_id", .str product), ("inventory", .int k), ("name", .str "test product"),
    ("order_items", .arr [])]

/-- Its document, which is the only one that changes when a piece is taken. -/
def productDoc (k : Int) : Json := .obj (productFields k)

/-- What finds the product, by its name and whatever its stock is. -/
def byProduct : Filter := .eq "_id" (.str product)

/-- What finds the product if there is any of it. -/
def available : Filter := [("_id", .eq (.str product)), ("inventory", .gt (.int 0))]

/-- What takes a piece: an update that only selects the product while it has one. -/
def decrement : Command := ⟨"products", .updateOne available [.inc "inventory" (-1)]⟩

variable {docs : Documents} {k : Int}

/-- The product is inserted as its document, under its own name. -/
theorem insertProduct_document (k : Int) :
    Shop.document.insertProduct product "test product" k []
      = .on "products" (.insertOne (productDoc k)) := by
  simp only [Shop.document, Statement.insert, Json.object, Fields.ofList, List.foldl_cons,
    List.foldl_nil, Fields.insert, String.reduceLT, String.reduceEq, if_true, if_false,
    List.map_nil, productDoc, productFields]

/-- The product is stored under its name, whatever its stock is. -/
theorem key?_productDoc (k : Int) : (productDoc k).key? = some product := rfl

/-- The filter of the sale selects the product, whatever its stock. -/
theorem selects_byProduct (k : Int) : byProduct.selects (productDoc k) = true := rfl

/-- The product is found available just when there is any of it. -/
theorem selects_available (k : Int) : available.selects (productDoc k) = decide (0 < k) := by
  have hfield : (productDoc k).lookup "inventory" = some (.int k) := rfl
  have hid : (Predicate.eq (.str product)).holds ((productDoc k).lookup "_id") = true := rfl
  -- The inventory is compared as a rounded number.
  have hgt : (Predicate.gt (.int 0)).holds (some (.int k)) = decide (0 < k) := by
    rw [Bool.eq_iff_iff, decide_eq_true_iff, ← Double.compare?_ofInt_zero]
    exact beq_iff_eq
  simp only [available, Filter.selects, List.all_cons, List.all_nil, hid, hfield, hgt,
    Bool.true_and, Bool.and_true]

/-- What is available goes by the identity of the product. -/
theorem selects_of_available {doc : Json} (h : available.selects doc = true) :
    byProduct.selects doc = true := by
  simp only [available, byProduct, Filter.eq, Filter.selects, List.all_cons, List.all_nil,
    Bool.and_eq_true, Bool.and_true] at h ⊢
  exact h.1

/-- One piece less. The sum is a word, so that nothing breaks off. -/
theorem edit_productDoc (hpos : 0 < k) (hword : k < 2 ^ 63) :
    Update.edit [.inc "inventory" (-1)] (productDoc k) = (productDoc (k - 1), .ok ()) := by
  -- One less than a word above zero is a word again.
  have hadd : addWord k (-1) = .ok (k - 1) := if_pos ⟨by omega, by omega⟩
  have hincrease : (Json.int k).increase (-1) = .ok (.int (k - 1)) := by
    simp only [Json.increase, Json.toInt64?, if_pos hword, hadd]
    rfl
  have hfield : Fields.get? (productFields k) "inventory" = some (.int k) := rfl
  have happly : Change.apply (productFields k) (.inc "inventory" (-1))
      = .ok (Fields.insert (productFields k) "inventory" (.int (k - 1))) := by
    simp only [Change.apply, hfield, Option.getD_some, Json.isNull, Json.isNumber, Json.toDouble?,
      Option.isSome_some, hincrease]
    rfl
  have hinsert : Fields.insert (productFields k) "inventory" (.int (k - 1))
      = productFields (k - 1) := by
    simp only [Fields.insert, String.reduceLT, String.reduceEq, if_true, if_false, productFields]
  simp only [productDoc, Update.edit, Update.editFields, happly, hinsert]

/-! ### The stock -/

/-- The collection holds the product with so many pieces, and nothing else
goes by its identity. -/
structure Stocked (docs : Documents) (k : Int) : Prop where
  here : docs[product]? = some (productDoc k)
  only : ∀ (key : String) (doc : Json), docs[key]? = some doc →
    byProduct.selects doc = true → key = product

/-- Where nothing else is selected, a product that is inserted is the only one, with the
stock that it has. -/
theorem Stocked.insert (h : ∀ (key : String) (doc : Json), docs[key]? = some doc →
    byProduct.selects doc = true → key = product) :
    Stocked (docs.insert product (productDoc k)) k where
  here := Std.ExtTreeMap.getElem?_insert_self
  only key doc hdoc hselects := by
    simp only [Std.ExtTreeMap.getElem?_insert, Std.compare_eq_iff_eq] at hdoc
    split at hdoc
    · rename_i he
      exact he.symm
    · exact h key doc hdoc hselects

/-- Where nothing goes by the identity of the product, inserting it leads to
its stock. -/
theorem stocked_of_matching (hnone : docs.matching byProduct = []) :
    Stocked (docs.insert product (productDoc k)) k := by
  refine .insert ?_
  intro key doc hdoc hselects
  have hmem : (key, doc) ∈ docs.matching byProduct :=
    List.mem_filter.mpr ⟨Std.ExtTreeMap.mem_toList_iff_getElem?_eq_some.mpr hdoc, hselects⟩
  rw [hnone] at hmem
  cases hmem

/-- The product is found by its identity, and nothing else. -/
theorem Stocked.matching_byProduct (h : Stocked docs k) :
    docs.matching byProduct = [(product, productDoc k)] :=
  Documents.matching_eq_singleton h.here (selects_byProduct k) h.only

/-- The product is found available as long as there is any of it. -/
theorem Stocked.matching_available (h : Stocked docs k) :
    docs.matching available = if 0 < k then [(product, productDoc k)] else [] := by
  have honly (key : String) (doc : Json) (hdoc : docs[key]? = some doc)
      (hselects : available.selects doc = true) : key = product :=
    h.only key doc hdoc (selects_of_available hselects)
  split
  · rename_i hpos
    exact Documents.matching_eq_singleton h.here
      ((selects_available k).trans (decide_eq_true hpos)) honly
  · rename_i hpos
    -- What is available could only be the product, of which there is none.
    refine Documents.matching_eq_nil ?_
    intro key doc hdoc
    refine Bool.eq_false_iff.mpr ?_
    intro hselects
    obtain rfl := honly key doc hdoc hselects
    rw [h.here] at hdoc
    rw [← Option.some.inj hdoc, selects_available, decide_eq_true_iff] at hselects
    exact hpos hselects

/-- Taking a piece of what there is changes one document, which the answer says. -/
theorem Stocked.take (h : Stocked docs k) (hpos : 0 < k) (hword : k < 2 ^ 63) :
    docs.apply "products" decrement.action
      = (docs.insert product (productDoc (k - 1)), .ok { affected := 1, wrote := true }) := by
  simp only [decrement, Documents.apply, h.matching_available, if_pos hpos, List.take_succ_cons,
    List.take_zero, Documents.update, Documents.editAll, edit_productDoc hpos hword]
  rfl

/-- Taking a piece of what is sold out changes nothing. That is how a client finds out. -/
theorem Stocked.take_none (h : Stocked docs k) (hnone : k ≤ 0) :
    docs.apply "products" decrement.action = (docs, .ok { affected := 0 }) := by
  simp only [decrement, Documents.apply, h.matching_available, if_neg (Int.not_lt.mpr hnone),
    List.take_nil]
  rfl

/-- Once a piece is taken the stock is one smaller. -/
theorem Stocked.insert_product (h : Stocked docs k) (j : Int) :
    Stocked (docs.insert product (productDoc j)) j := .insert h.only

/-- What is read of the product is one row, as there is one product. -/
theorem Stocked.findOne (h : Stocked docs k) :
    docs.rows (.findOne byProduct) = [(productDoc k).toRow] := by
  simp only [Documents.rows, h.matching_byProduct]
  rfl

/-- The pieces that its row tells of, as the check decodes them. -/
theorem scan_productDoc (hword : k < 2 ^ 63) :
    (productDoc k).toRow.scanNamed Value.toInt "inventory" = .ok k := by
  have hvalue : Value.ofJson (.int k) = .int k := if_pos hword
  simp only [productDoc, productFields, Json.toRow, Row.ofPairs, List.map_cons, List.map_nil,
    hvalue]
  rfl

end Scenario.Stock

end StoreBench
