import StoreBench.Proofs.Document.Records
import StoreBench.Proofs.Scenario.Atomic
import StoreBench.Proofs.Scenario.Check
import StoreBench.Proofs.Scenario.Inventory

/-!
# `StoreBench.Proofs.Scenario.Orders`: an order for each piece

An attempt to sell a piece with its order is one transaction: an order, its item
and its payment are inserted, and a piece is taken. `Booked` is what such
transactions lead on, one after the other: all three collections hold one list
of purchases, which are as many as pieces are missing.

By `Growth.run` this holds at every moment of every run. `orders_match_stock`
says it of what the check reads, so nothing is said of identities beforehand:
an identity that is taken makes the commit fail, with the rest of its purchase.
-/

set_option autoImplicit false

namespace StoreBench.Scenario.Stock

/-! ### A purchase -/

/-- What is recorded when a piece is sold: the names of the three documents, the buyer
and the time. -/
structure Purchase where
  order : String
  user : String
  time : Instant
  item : String
  payment : String

namespace Purchase

/-- The order of a purchase, as it is stored: under its own name, with its buyer and its
time. -/
def orderEntry (p : Purchase) : String × Json :=
  (p.order, .obj [("_id", .str p.order), ("created_at", .ofInstant p.time),
    ("user_id", .str p.user)])

/-- Its one item, which names the order and the product. -/
def itemEntry (p : Purchase) : String × Json :=
  (p.item, .obj [("_id", .str p.item), ("order_id", .str p.order), ("product_id", .str product),
    ("quantity", .int 1)])

/-- Its payment, under a name of its own, which names the order. -/
def paymentEntry (p : Purchase) : String × Json :=
  (p.payment, .obj [("_id", .str p.payment), ("amount", .ofDouble paymentAmount),
    ("order_id", .str p.order)])

/-- What inserts an order, its item and its payment, after the piece was taken. -/
def commands (p : Purchase) : List Command :=
  [⟨"orders", .insertOne p.orderEntry.2⟩, ⟨"order_items", .insertOne p.itemEntry.2⟩,
    ⟨"payments", .insertOne p.paymentEntry.2⟩]

/-- The statements of a purchase are these commands, sent one after the other. -/
theorem statements_document (p : Purchase) :
    [Shop.document.insertOrder p.order p.user p.time,
      Shop.document.insertItem p.item p.order product 1,
      Shop.document.insertPayment p.payment p.order paymentAmount]
      = p.commands.map Statement.document := by
  simp only [Shop.document, Statement.insert, Statement.on, Json.object, Fields.ofList,
    List.foldl_cons, List.foldl_nil, Fields.insert, String.reduceLT, String.reduceEq, if_true,
    if_false, commands, orderEntry, itemEntry, paymentEntry, List.map_cons, List.map_nil]

/-- Their documents have identities of their own, so that no fresh ones are made up. -/
theorem identified_commands (p : Purchase) :
    ∀ command ∈ p.commands, ∀ fresh, command.identified fresh = command := by
  intro command hcommand fresh
  simp only [commands, List.mem_cons, List.not_mem_nil, or_false] at hcommand
  rcases hcommand with rfl | rfl | rfl <;> rfl

end Purchase

/-- The deeds of a purchase: what is inserted, and a piece that is taken. -/
def Purchase.Allowed (deeds : List Deed) : Prop :=
  ∃ (p : Purchase) (first : List Deed) (n : Nat), first.map Deed.command = p.commands ∧ n ≠ 0 ∧
    deeds = first ++ [⟨decrement, .affected n⟩]

/-! ### One purchase after the other -/

variable {inventory : Int} {n : Nat} {docs : Contents} {sales : List Purchase}

/-- So many purchases are recorded, each in all three collections, and as many
pieces are missing. -/
structure Booked (inventory : Int) (n : Nat) (docs : Contents) (sales : List Purchase) : Prop where
  length_eq : sales.length = n
  orders : (docs "orders").Records Purchase.orderEntry sales
  items : (docs "order_items").Records Purchase.itemEntry sales
  payments : (docs "payments").Records Purchase.paymentEntry sales
  stocked : Stocked (docs "products") (inventory - n)
  left : n = 0 ∨ 0 ≤ inventory - n

/-- One purchase more: the stock has one piece less, and three documents are there
besides. -/
theorem Booked.purchase (h : Booked inventory n docs sales) (hword : inventory < 2 ^ 63)
    {deeds : List Deed} (hallowed : Purchase.Allowed deeds) (hexplains : docs.Explains deeds) :
    ∃ sales, Booked inventory (n + 1) (docs.run deeds) sales := by
  obtain ⟨p, first, taken, hfirst, htaken, rfl⟩ := hallowed
  -- The deeds are four, whose commands are known.
  match first, hfirst with
  | [⟨_, seenOrder⟩, ⟨_, seenItem⟩, ⟨_, seenPayment⟩], hfirst =>
      cases hfirst
      obtain ⟨horder, hitem, hpayment, htake, -⟩ := hexplains
      have horders := horder.records_insertOne h.orders rfl
      have hitems := hitem.records_insertOne h.items rfl
      have hpayments := hpayment.records_insertOne h.payments rfl
      obtain ⟨hpos, hstocked⟩ := Stocked.take_of_shows h.stocked (by omega) htaken htake
      refine ⟨p :: sales, congrArg (· + 1) h.length_eq, ?_, ?_, ?_, ?_, .inr (by omega)⟩
      · exact horders
      · exact hitems
      · exact hpayments
      · rw [Int.natCast_succ, ← Int.sub_sub]
        exact hstocked

/-! ### The attempts -/

/-- The statements of a purchase are made up without asking the store. -/
theorem orderStatements_meets {post : Bool → Standing → Attempted (List Statement) → Prop}
    {known : Standing}
    (h : ∀ p : Purchase, post false known (.ok (p.commands.map Statement.document))) :
    (Conduct.atomic Purchase.Allowed).Meets post false known (orderStatements .document).run := by
  refine Conduct.Meets.ask_bind ⟨nofun, nofun⟩ ?_
  intro _ order
  refine Conduct.Meets.ask_bind ⟨nofun, nofun⟩ ?_
  intro _ user
  refine Conduct.Meets.ask_bind ⟨nofun, nofun⟩ ?_
  intro _ time
  refine Conduct.Meets.ask_bind ⟨nofun, nofun⟩ ?_
  intro _ item
  refine Conduct.Meets.ask_bind ⟨nofun, nofun⟩ ?_
  intro _ payment
  have hp := h ⟨order, user, time, item, payment⟩
  rw [← Purchase.statements_document] at hp
  exact hp

/-- The transaction of an attempt commits the deeds of a purchase. -/
theorem orderProcessing_meets (inventory : Int) (t : Try) :
    (Conduct.atomic Purchase.Allowed).Meets (fun landed _ result => landed = true ↔ result = .ok ())
      false none ((orderProcessing .document inventory).attempt t).run := by
  refine Conduct.Meets.task_bind (orderStatements_meets ?_)
  intro p
  refine Conduct.Meets.atomic_transact (Conduct.Meets.task_bind
    (Conduct.Meets.execEach (fun _ _ => ⟨nofun, nofun⟩) (fun _ _ => rfl) p.identified_commands ?_
      fun _ _ _ => ⟨rfl, nofun⟩))
  intro first hfirst
  show Conduct.Meets _ _ _ _ (takePiece .document).run
  rw [takePiece_run]
  refine ⟨⟨nofun, nofun⟩, fun fresh reply => ⟨rfl, ?_⟩⟩
  -- The body succeeds only if a piece was taken.
  match reply with
  | .error failure => nofun
  | .ok 0 => nofun
  | .ok (n + 1) =>
      intro _
      exact ⟨_, rfl, p, first, n + 1, hfirst, Nat.succ_ne_zero n, rfl⟩

/-! ### Before and after the attempts -/

/-- A set-up that succeeds leads to a stock without purchases, where the tables
of the shop are empty before. -/
theorem booked_of_setup {w after : World Server} (hsound : w.driver.store.Sound)
    (hempty : ∀ table ∈ Shop.tables, w.driver.documentCount table = 0)
    (h : World.site.run w (orderProcessing .document inventory).setup.run = (after, .ok ())) :
    after.driver.connected = true ∧ after.driver.store.Sound ∧
      Booked inventory 0 after.driver.store.docs [] := by
  obtain ⟨hconnected, hstore, hproducts, hothers⟩ := setup_inserts hsound h
  -- Only the product is inserted; the other tables stay empty.
  have hnone (table : String) (htable : table ∈ Shop.tables) :
      (w.driver.store.docs table).size = 0 := hempty table htable
  have hrecords {α : Type} (entry : α → String × Json) (table : String)
      (htable : table ∈ Shop.tables) (hne : table ≠ "products") :
      (after.driver.store.docs table).Records entry [] := by
    rw [hothers table hne]
    exact Documents.records_of_size_eq_zero entry (hnone table htable)
  refine ⟨hconnected, hstore, rfl, hrecords _ "orders" (by decide) (by decide),
    hrecords _ "order_items" (by decide) (by decide),
    hrecords _ "payments" (by decide) (by decide), ?_, .inl rfl⟩
  rw [hproducts, Int.natCast_zero, Int.sub_zero]
  refine stocked_of_matching (Documents.matching_eq_nil ?_)
  intro key doc hdoc
  rw [Std.ExtTreeMap.eq_empty_iff_size_eq_zero.mpr (hnone "products" (by decide)),
    Std.ExtTreeMap.getElem?_empty] at hdoc
  cases hdoc

/-- The orders that the check reads, by their names. -/
def readOrders (w : World Server) : Except BenchError (List String) :=
  orderIds .document ((w.driver.store.docs "orders").rows (.find .all))

/-- The orders that it reads in the items, or in the payments. -/
def readOrderOf (w : World Server) (table : String) : Except BenchError (List String) :=
  orderOf ((w.driver.store.docs table).rows (.find .all))

/-- What is read of the purchases: the orders, each once, and the orders of the
items and of the payments, which are the same ones. -/
theorem Booked.read {w : World Server} (h : Booked inventory n w.driver.store.docs sales) :
    ∃ orders items payments, readOrders w = .ok orders ∧ orders.length = n ∧ orders.Nodup ∧
      readOrderOf w "order_items" = .ok items ∧ items.Perm orders ∧
      readOrderOf w "payments" = .ok payments ∧ payments.Perm orders := by
  obtain ⟨orders, horders, hreadOrders⟩ := h.orders.read_all Shop.document.orderId
    Purchase.order fun _ => rfl
  obtain ⟨items, hitems, hreadItems⟩ := h.items.read_all
    (fun row => row.scanNamed Value.toText "order_id") Purchase.order fun _ => rfl
  obtain ⟨payments, hpayments, hreadPayments⟩ := h.payments.read_all
    (fun row => row.scanNamed Value.toText "order_id") Purchase.order fun _ => rfl
  refine ⟨orders, items, payments, hreadOrders, ?_, ?_, hreadItems, hitems.trans horders.symm,
    hreadPayments, hpayments.trans horders.symm⟩
  · rw [horders.length_eq, List.length_map, h.length_eq]
  · exact horders.nodup_iff.mpr h.orders.nodup

/-- Where nothing occurs twice there is nothing to erase, so that the check counts what
is there. -/
theorem eraseDups_of_nodup {α : Type} [BEq α] [LawfulBEq α] {items : List α}
    (h : items.Nodup) : items.eraseDups = items := by
  induction items with
  | nil => rfl
  | cons a rest ih =>
      obtain ⟨ha, hrest⟩ := List.nodup_cons.mp h
      have hkept : (rest.filter fun b => !b == a) = rest := by
        refine List.filter_eq_self.mpr ?_
        intro b hb
        refine Bool.not_eq_true' _ |>.mpr (beq_eq_false_iff_ne.mpr ?_)
        rintro rfl
        exact ha hb
      rw [List.eraseDups_cons, hkept, ih hrest]

/-- Orders that are read in other documents, each of them once. -/
theorem complete_of_perm {orders items payments : List String} (hnodup : orders.Nodup)
    (hitems : items.Perm orders) (hpayments : payments.Perm orders) :
    complete orders.length orders items payments = true := by
  have honce {named : List String} (hnamed : named.Perm orders) :
      (∀ order ∈ orders, named.count order = 1) ∧ named.eraseDups.length = orders.length := by
    refine ⟨?_, ?_⟩
    · intro order horder
      rw [hnamed.count_eq, List.count_eq_one_of_mem hnodup horder]
    · rw [eraseDups_of_nodup (hnamed.nodup_iff.mpr hnodup), hnamed.length_eq]
  obtain ⟨hitemCount, hitemLength⟩ := honce hitems
  obtain ⟨hpaymentCount, hpaymentLength⟩ := honce hpayments
  have hall : (orders.all fun order => items.count order == 1 && payments.count order == 1)
      = true := by
    refine List.all_eq_true.mpr ?_
    intro order horder
    rw [hitemCount order horder, hpaymentCount order horder]
    rfl
  rw [complete, hall, hitemLength, hpaymentLength]
  simp only [beq_self_eq_true, Bool.and_true]

/-- The check finds every purchase complete, and as many as the stock says. -/
theorem verify_booked {w : World Server} (hconnected : w.driver.connected = true)
    (hword : inventory < 2 ^ 63) (h : Booked inventory n w.driver.store.docs sales) :
    (World.site.run w (orderProcessing .document inventory).verify.run).2 = .ok (some true) := by
  obtain ⟨orders, items, payments, horders, hlength, hnodup, hitems, hitemsPerm, hpayments,
    hpaymentsPerm⟩ := h.read
  have hleft := h.left
  have hproduct : (w.driver.store.docs "products").rows (.findOne byProduct)
      = [(productDoc (inventory - n)).toRow] := h.stocked.findOne
  have hsold : subWord inventory (inventory - n) = .ok (orders.length : Int) := by
    rw [subWord, hlength, Int.sub_sub_self]
    exact if_pos ⟨by omega, by omega⟩
  refine World.Finds.result ?_
  simp only [orderProcessing, remaining, Task.queryRow, bind_assoc, pure_bind]
  -- One query after the other finds what is read above.
  refine .query hconnected rfl ?_
  rw [show Filter.eq "_id" (.str product) = byProduct from rfl, hproduct]
  refine .lift (scan_productDoc (by omega)) ?_
  refine .query hconnected rfl (.query hconnected rfl (.lift hitems ?_))
  refine .query hconnected rfl (.lift hpayments (.lift_computed hsold (.lift horders ?_)))
  rw [complete_of_perm hnodup hitemsPerm hpaymentsPerm]
  exact .done w _

/-- Purchases lead on their bookings, which the check finds complete. -/
theorem growth (inventory : Int) (hword : inventory < 2 ^ 63) :
    Growth (orderProcessing .document inventory) Purchase.Allowed
      fun n docs => ∃ sales, Booked inventory n docs sales where
  attempt := orderProcessing_meets inventory
  grow := by
    rintro n docs deeds ⟨sales, hbooked⟩ hallowed hexplains
    exact hbooked.purchase hword hallowed hexplains
  verify := by
    rintro w n hconnected ⟨sales, hbooked⟩
    exact verify_booked hconnected hword hbooked

/-! ### The attempts as a whole -/

/-- Each order is named once, and nothing that is no order is named. -/
def NamedOnce (orders named : List String) : Prop :=
  (∀ order ∈ orders, named.count order = 1) ∧ ∀ order ∈ named, order ∈ orders

/-- These are the stored orders. They are as many as pieces are missing, and each
has one item and one payment. -/
structure Consistent (inventory : Int) (w : World Server) (orders : List String) : Prop where
  listed : readOrders w = .ok orders
  nodup : orders.Nodup
  stock : stored w = some (.int (inventory - orders.length))
  items : ∃ named, readOrderOf w "order_items" = .ok named ∧ NamedOnce orders named
  payments : ∃ named, readOrderOf w "payments" = .ok named ∧ NamedOnce orders named

/-- Each order is named once where the names are the orders in some order. -/
theorem namedOnce_of_perm {orders named : List String} (hnodup : orders.Nodup)
    (h : named.Perm orders) : NamedOnce orders named := by
  refine ⟨?_, fun order horder => h.mem_iff.mp horder⟩
  intro order horder
  rw [h.count_eq, List.count_eq_one_of_mem hnodup horder]

/-- What is booked is read as consistent, with an order for each purchase. -/
theorem Booked.consistent {w : World Server} (h : Booked inventory n w.driver.store.docs sales) :
    ∃ orders, Consistent inventory w orders ∧ orders.length = n := by
  obtain ⟨orders, items, payments, horders, hlength, hnodup, hitems, hitemsPerm, hpayments,
    hpaymentsPerm⟩ := h.read
  refine ⟨orders, ⟨horders, hnodup, ?_, ⟨items, hitems, ?_⟩, ⟨payments, hpayments, ?_⟩⟩, hlength⟩
  · rw [hlength]
    exact h.stocked.stored
  · exact namedOnce_of_perm hnodup hitemsPerm
  · exact namedOnce_of_perm hnodup hpaymentsPerm

/-- Orders, items, payments and stock agree at every moment, whatever the order
in which the requests of the workers are answered, under every retry policy and
with every queue of faults that is left after the set-up. So the check finds them
right whenever it is made. Where nobody is in an attempt, there are as many orders
as attempts that succeeded, and as many as operations once a run has ended.

The tables of the shop are empty before the set-up. Identities need not be
distinct: one that is taken makes its commit fail. -/
theorem orders_match_stock {inventory : Int} (hword : inventory < 2 ^ 63) {w : World Server}
    (hsound : w.driver.store.Sound)
    (hempty : ∀ table ∈ Shop.tables, w.driver.documentCount table = 0) :
    let work := orderProcessing .document inventory
    (∀ prepared, World.site.run w work.setup.run = (prepared, .ok ()) →
      ∀ (faults : List Fault) (config : PoolConfig) (template : Recorder)
        (schedule : List Crew.Event),
      let seeded := { prepared with driver := prepared.driver.inject faults }
      let c : Clients := (Crew.start World.site config template {} seeded).run World.site
        work.attempt schedule
      ∃ orders, Consistent inventory c.state orders ∧
        (World.site.run c.state work.verify.run).2 = .ok (some true) ∧
        (c.Quiet → orders.length = c.successes)) ∧
    ∀ (engine : EngineConfig) (size : RunConfig) (passed : List (Passed Runner.stages _)) after
      report,
      Program.Passes (Runner.Passes World.site work) w
        (Runner.plan engine work.retryPolicy size).run passed after (.ok report) →
      report.dataIntegrity = true ∧
      ∃ prepared config template pool worked checked cleared orders,
        passed = [⟨.setup, .ok (), prepared⟩, ⟨.attempts config template, pool, worked⟩,
          ⟨.verify, .ok (some true), checked⟩, ⟨.teardown, cleared, after⟩] ∧
        Consistent inventory worked orders ∧ orders.length = report.operations := by
  intro work
  constructor
  · intro prepared hsetup faults config template schedule seeded c
    obtain ⟨hconnected, hprepared, hbooked⟩ := booked_of_setup hsound hempty hsetup
    obtain ⟨n, ⟨sales, hnow⟩, hverify, hquiet⟩ := (growth inventory hword).run hconnected
      hprepared ⟨[], hbooked⟩ faults config template schedule
    obtain ⟨orders, hconsistent, hlength⟩ := hnow.consistent
    exact ⟨orders, hconsistent, hverify, fun hq => hlength.trans (hquiet hq)⟩
  · intro engine size passed after report hpasses
    obtain ⟨hintegrity, prepared, config, template, pool, worked, checked, cleared, n, rfl,
      ⟨sales, hworked⟩, hoperations⟩ := (growth inventory hword).passes_plan (by
        intro prepared hprepared
        obtain ⟨hconnected, hstore, hbooked⟩ := booked_of_setup hsound hempty hprepared
        exact ⟨hconnected, hstore, [], hbooked⟩) hpasses
    obtain ⟨orders, hconsistent, hlength⟩ := hworked.consistent
    refine ⟨hintegrity, prepared, config, template, pool, worked, checked, cleared, orders, rfl,
      hconsistent, ?_⟩
    -- There are no more than there were pieces, which fit a word.
    have hleft := hworked.left
    rw [hlength, hoperations, Nat.mod_eq_of_lt (by omega)]

/-- A shop with numbers for identities, and a fault for the first commit. -/
def till : World Server where
  driver := { connected := true, faults := [.pass, .conflict], latency := ⟨1000⟩ }
  supply := { identity := toString, number := id }
  clock := default

/-- What becomes there of two workers and two pieces, on one thread. -/
def ordered : Attempted Report :=
  (Runner.run World.site (orderProcessing .document 2) 150 {} { concurrency := 2 } till).2

/-- A till that sells two pieces, one order for each. -/
theorem orders_match_stock_till :
    ((2 : Int) < 2 ^ 63 ∧ till.driver.store.Sound ∧
      ∀ table ∈ Shop.tables, till.driver.documentCount table = 0) ∧
    ∃ report worked orders, ordered = .ok report ∧ Consistent 2 worked orders ∧
      orders.length = report.operations ∧ report.operations = 2 ∧ report.dataIntegrity = true := by
  have hempty : ∀ table ∈ Shop.tables, till.driver.documentCount table = 0 := by decide +kernel
  have hmatch := @orders_match_stock 2 (by decide) till Store.sound_empty hempty
  have hover : ∀ template prepared, Recorder.make {} = .ok template →
      World.site.run till (orderProcessing .document 2).setup.run = (prepared, .ok ()) →
      (Rehearsal.run World.site (orderProcessing .document 2).attempt 150 (Rehearsal.make World.site
        (Runner.poolConfig {} none { concurrency := 2 }) template {} prepared)).pool.isOver
          = true := by
    intro template prepared hmake hsetup
    cases hmake
    cases hsetup
    decide +kernel
  have hoperations : ordered.toOption.map Report.operations = some 2 := by
    decide +kernel
  obtain ⟨report, hreport, hoperations⟩ := Option.map_eq_some_iff.mp hoperations
  obtain ⟨hordered, passed, _, hpasses⟩ := Runner.passes_of_report World.site
    (orderProcessing .document 2) 150 {} { concurrency := 2 } till hover hreport
  obtain ⟨hintegrity, -, -, -, -, worked, -, -, orders, -, hconsistent, hlength⟩ :=
    hmatch.2 {} _ passed _ _ hpasses
  exact ⟨⟨by decide, Store.sound_empty, hempty⟩, report, worked, orders, hordered, hconsistent,
    hlength, hoperations, hintegrity⟩

end StoreBench.Scenario.Stock
