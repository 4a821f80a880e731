import Mathlib.Data.List.Perm.Subperm
import StoreBench.Proofs.Document.Commit
import StoreBench.Proofs.Document.Listing
import StoreBench.Proofs.Scenario.Orders
import StoreBench.Scenario.Feed

/-!
# `StoreBench.Proofs.Scenario.Audit`: what the checks find in any store

The checks of two workloads are run here on stores of any content whose rows can
be decoded, however it came about. `Stock.Balanced` and `Feed.Delivered` say in
terms of the stored documents what each of them is about, and `checks_exact` that
they find just that.

The check of the orders never looks an order up that an item names. It counts the
orders that are named, each once, and finds as many as there are; since every
order is among them, nothing else is (`perm_of_length_le`, `complete_iff`).
-/

set_option autoImplicit false

namespace StoreBench.Scenario

/-! ### Orders -/

namespace Stock

/-- Erasing repeated elements leaves each of them once. -/
theorem nodup_eraseDups {α : Type} [BEq α] [LawfulBEq α] (items : List α) :
    items.eraseDups.Nodup := by
  match items with
  | [] => exact List.nodup_nil
  | a :: rest =>
      rw [List.eraseDups_cons]
      refine List.nodup_cons.mpr ⟨?_, nodup_eraseDups (rest.filter fun b => !b == a)⟩
      rw [List.mem_eraseDups, List.mem_filter]
      rintro ⟨-, hne⟩
      rw [beq_self_eq_true] at hne
      cases hne
termination_by items.length
decreasing_by exact Nat.lt_succ_of_le (List.length_filter_le _ _)

/-- Each order is named, and no more are: then the named ones are the orders. -/
theorem perm_of_length_le {orders named : List String} (hnodup : orders.Nodup)
    (hnamed : ∀ order ∈ orders, order ∈ named)
    (hlength : named.eraseDups.length ≤ orders.length) : orders.Perm named.eraseDups := by
  have hsubset : orders ⊆ named.eraseDups := fun order horder =>
    List.mem_eraseDups.mpr (hnamed order horder)
  exact (hnodup.subperm hsubset).perm_of_length_le hlength

/-- As many different orders are named as there are, and each once, just when each
is named once and nothing else is. -/
theorem namedOnce_iff {orders named : List String} (hnodup : orders.Nodup) :
    ((∀ order ∈ orders, named.count order = 1) ∧ named.eraseDups.length = orders.length) ↔
      NamedOnce orders named := by
  constructor
  · rintro ⟨honce, hlength⟩
    have hperm := perm_of_length_le hnodup
      (fun order horder => List.count_pos_iff.mp (by rw [honce order horder]; exact Nat.one_pos))
      (Nat.le_of_eq hlength)
    exact ⟨honce, fun order horder => hperm.mem_iff.mpr (List.mem_eraseDups.mpr horder)⟩
  · rintro ⟨honce, honly⟩
    have hperm : named.eraseDups.Perm orders := by
      refine (List.perm_ext_iff_of_nodup (nodup_eraseDups named) hnodup).mpr ?_
      intro order
      rw [List.mem_eraseDups]
      refine ⟨honly order, fun horder => List.count_pos_iff.mp ?_⟩
      rw [honce order horder]
      exact Nat.one_pos
    exact ⟨honce, hperm.length_eq⟩

/-- What the check makes of what it read. -/
theorem complete_iff {sold : Int} {orders items payments : List String} (hnodup : orders.Nodup) :
    complete sold orders items payments = true ↔
      (orders.length : Int) = sold ∧ NamedOnce orders items ∧ NamedOnce orders payments := by
  rw [← namedOnce_iff hnodup, ← namedOnce_iff hnodup]
  simp only [complete, Bool.and_eq_true, beq_iff_eq, List.all_eq_true, forall₂_and]
  constructor
  · rintro ⟨⟨⟨hsold, hitem, hpayment⟩, hitems⟩, hpayments⟩
    exact ⟨hsold, ⟨hitem, hitems⟩, hpayment, hpayments⟩
  · rintro ⟨hsold, ⟨hitem, hitems⟩, hpayment, hpayments⟩
    exact ⟨⟨⟨hsold, hitem, hpayment⟩, hitems⟩, hpayments⟩

/-- The order that a row of an item or of a payment names. -/
def namedIn (row : Row) : Except BenchError String := row.scanNamed Value.toText "order_id"

/-- The order of a row of orders. -/
def orderIn : Row → Except BenchError String := Shop.document.orderId

/-- Each stored order is named by one document of the other collection, and every
document there names a stored order. -/
structure Answers (orders named : Documents) : Prop where
  once : ∀ key order, orders.Tells orderIn key order → ∃! other, named.Tells namedIn other order
  stored : ∀ key order, named.Tells namedIn key order → ∃ other, orders.Tells orderIn other order

/-- There are as many orders as pieces were sold, each with one item and one
payment, and no item and no payment is of any other order. -/
structure Balanced (docs : Contents) (sold : Int) : Prop where
  count : ((docs "orders").size : Int) = sold
  items : Answers (docs "orders") (docs "order_items")
  payments : Answers (docs "orders") (docs "payments")

/-- The check can decode what it asks for, and finds so many pieces left; no two
orders have one identity. -/
structure Decodes (docs : Contents) (left : Int) : Prop where
  product : ∃ row, ((docs "products").rows (.findOne (.eq "_id" (.str product)))).head? = some row ∧
    row.scanNamed Value.toInt "inventory" = .ok left
  orders : (docs "orders").Legible orderIn
  items : (docs "order_items").Legible namedIn
  payments : (docs "payments").Legible namedIn
  distinct : ∀ key other a b, (docs "orders").Tells orderIn key a →
    (docs "orders").Tells orderIn other b → a = b → key = other

/-- What is named in the list is named in the documents. -/
theorem answers_iff {orders named : Documents} {listed others : List (String × String)}
    (horders : orders.Listed orderIn listed) (hnamed : named.Listed namedIn others) :
    NamedOnce (listed.map Prod.snd) (others.map Prod.snd) ↔ Answers orders named := by
  simp only [NamedOnce, horders.mem_values_iff, hnamed.mem_values_iff, hnamed.count_values_iff]
  constructor
  · rintro ⟨honce, honly⟩
    exact ⟨fun key order h => honce order ⟨key, h⟩, fun key order h => honly order ⟨key, h⟩⟩
  · rintro ⟨honce, hstored⟩
    exact ⟨fun order ⟨key, h⟩ => honce key order h, fun order ⟨key, h⟩ => hstored key order h⟩

/-- The check accepts just what is balanced. -/
theorem verify_iff {w : World Server} (hconnected : w.driver.connected = true)
    {inventory left : Int} (h : Decodes w.driver.store.docs left)
    (hlow : -2 ^ 63 ≤ inventory - left) (hhigh : inventory - left < 2 ^ 63) :
    ∃ verdict,
      (World.site.run w (orderProcessing .document inventory).verify.run).2 = .ok (some verdict) ∧
      (verdict = true ↔ Balanced w.driver.store.docs (inventory - left)) := by
  obtain ⟨row, hrow, hleft⟩ := h.product
  obtain ⟨orders, horders⟩ := h.orders.exists_listed
  obtain ⟨items, hitems⟩ := h.items.exists_listed
  obtain ⟨payments, hpayments⟩ := h.payments.exists_listed
  have hsold : subWord inventory left = .ok (inventory - left) := if_pos ⟨hlow, hhigh⟩
  refine ⟨complete (inventory - left) (orders.map Prod.snd) (items.map Prod.snd)
    (payments.map Prod.snd), ?_, ?_⟩
  · -- The check goes through its queries in their order.
    refine World.Finds.result ?_
    simp only [orderProcessing, remaining, Task.queryRow, bind_assoc, pure_bind]
    refine .query hconnected rfl ?_
    rw [hrow]
    refine .lift hleft (.query hconnected rfl (.query hconnected rfl (.lift hitems.read ?_)))
    refine .query hconnected rfl (.lift hpayments.read (.lift_computed hsold ?_))
    exact .lift horders.read (.done w _)
  · -- Its verdict goes by lists, which tell what is stored.
    have hnodup : (orders.map Prod.snd).Nodup := by
      have hdistinct := (horders.nodup_map_values_iff id).mpr h.distinct
      rwa [List.map_id] at hdistinct
    rw [complete_iff hnodup, answers_iff horders hitems, answers_iff horders hpayments,
      List.length_map, horders.size]
    constructor
    · rintro ⟨hcount, hitem, hpayment⟩
      exact ⟨hcount, hitem, hpayment⟩
    · intro hbalanced
      exact ⟨hbalanced.count, hbalanced.items, hbalanced.payments⟩

end Stock

/-! ### Timelines -/

namespace Feed

/-- Whose timeline a row is, and the posts on it. -/
def timelineIn (row : Row) : Except BenchError (String × List String) := do
  let owner ← row.scanNamed Value.toText "user_id"
  let posts ← row.scanNamed Value.toTexts "post_ids"
  return (owner, posts)

/-- The follower of a row of follows, and who is followed. -/
def followIn (row : Row) : Except BenchError (String × String) := do
  let follower ← row.scanNamed Value.toText "follower_id"
  let followee ← row.scanNamed Value.toText "followee_id"
  return (follower, followee)

/-- The post that a row tells of, as the check decodes it. -/
def postIn : Row → Except BenchError PostRef := Network.document.postRef

/-- Every post of everyone who is followed is on the timeline of the follower. -/
def Delivered (docs : Contents) : Prop :=
  ∀ follow follower followee, (docs "follows").Tells followIn follow (follower, followee) →
    ∀ key post, (docs "posts").Tells postIn key post → post.author = followee →
      ∃ line ids, (docs "timelines").Tells timelineIn line (follower, ids) ∧ post.id ∈ ids

/-- The check can decode what it asks for, and no user has two timelines. -/
structure Decodes (docs : Contents) : Prop where
  posts : (docs "posts").Legible postIn
  timelines : (docs "timelines").Legible timelineIn
  follows : (docs "follows").Legible followIn
  single : ∀ key other a b, (docs "timelines").Tells timelineIn key a →
    (docs "timelines").Tells timelineIn other b → a.1 = b.1 → key = other

/-- A follow is found served when the follower's one timeline has the posts. -/
theorem delivered_iff {posts : List PostRef} {timelines : List (String × List String)}
    (hnodup : (timelines.map Prod.fst).Nodup) (follow : String × String) :
    delivered posts timelines follow = true ↔
      ∀ post ∈ posts, post.author = follow.2 →
        ∃ ids, (follow.1, ids) ∈ timelines ∧ post.id ∈ ids := by
  have hreverse : (timelines.reverse.map Prod.fst).Nodup := by
    rw [List.map_reverse]
    exact List.nodup_reverse.mpr hnodup
  -- The last timeline of a user counts, which is the only one.
  simp only [delivered, List.all_eq_true, Bool.or_eq_true, bne_iff_ne, ne_eq,
    List.contains_iff_mem, ← Decidable.imp_iff_not_or]
  refine forall₃_congr fun post _ _ => ?_
  constructor
  · intro hmem
    cases hlookup : timelines.reverse.lookup follow.1 with
    | none =>
        rw [hlookup] at hmem
        cases hmem
    | some ids =>
        rw [hlookup] at hmem
        have hline := (Transaction.lookup_eq_some_iff_mem hreverse).mp hlookup
        exact ⟨ids, List.mem_reverse.mp hline, hmem⟩
  · rintro ⟨ids, hline, hmem⟩
    rw [(Transaction.lookup_eq_some_iff_mem hreverse).mpr (List.mem_reverse.mpr hline)]
    exact hmem

/-- The check accepts just where everything was delivered. -/
theorem verify_iff {w : World Server} (hconnected : w.driver.connected = true) (users : Nat)
    (h : Decodes w.driver.store.docs) :
    ∃ verdict,
      (World.site.run w (fanOutOnWrite .document users).verify.run).2 = .ok (some verdict) ∧
      (verdict = true ↔ Delivered w.driver.store.docs) := by
  obtain ⟨posts, hposts⟩ := h.posts.exists_listed
  obtain ⟨timelines, htimelines⟩ := h.timelines.exists_listed
  obtain ⟨follows, hfollows⟩ := h.follows.exists_listed
  refine ⟨(follows.map Prod.snd).all (delivered (posts.map Prod.snd) (timelines.map Prod.snd)),
    ?_, ?_⟩
  · -- The check goes through its queries in their order.
    refine World.Finds.result ?_
    refine .query hconnected rfl (.lift hposts.read ?_)
    refine .query hconnected rfl (.lift htimelines.read ?_)
    exact .query hconnected rfl (.lift hfollows.read (.done w _))
  · -- Its verdict goes by lists, which tell what is stored.
    have hnodup : ((timelines.map Prod.snd).map Prod.fst).Nodup :=
      (htimelines.nodup_map_values_iff Prod.fst).mpr h.single
    simp only [List.all_eq_true, delivered_iff hnodup, hfollows.mem_values_iff,
      hposts.mem_values_iff, htimelines.mem_values_iff, Delivered, Prod.forall]
    constructor
    · intro hall follow follower followee hfollow key post hpost hauthor
      obtain ⟨ids, ⟨line, hline⟩, hmem⟩ :=
        hall follower followee ⟨follow, hfollow⟩ post ⟨key, hpost⟩ hauthor
      exact ⟨line, ids, hline, hmem⟩
    · rintro hall follower followee ⟨follow, hfollow⟩ post ⟨key, hpost⟩ hauthor
      obtain ⟨line, ids, hline, hmem⟩ :=
        hall follow follower followee hfollow key post hpost hauthor
      exact ⟨ids, ⟨line, hline⟩, hmem⟩

end Feed

/-! ### Both checks -/

/-- On a connected store of any content whose rows can be decoded, the check of the
orders accepts just where orders, items, payments and stock are balanced, and the
check of the timelines just where every post was delivered. Otherwise they
refuse; they come to a verdict in any case. -/
theorem checks_exact {w : World Server} (hconnected : w.driver.connected = true) :
    (∀ inventory left : Int, Stock.Decodes w.driver.store.docs left →
      -2 ^ 63 ≤ inventory - left → inventory - left < 2 ^ 63 →
      ∃ verdict, (World.site.run w (Stock.orderProcessing .document inventory).verify.run).2
          = .ok (some verdict) ∧
        (verdict = true ↔ Stock.Balanced w.driver.store.docs (inventory - left))) ∧
    ∀ users : Nat, Feed.Decodes w.driver.store.docs →
      ∃ verdict, (World.site.run w (Feed.fanOutOnWrite .document users).verify.run).2
          = .ok (some verdict) ∧
        (verdict = true ↔ Feed.Delivered w.driver.store.docs) :=
  ⟨fun _ _ hdecodes hlow hhigh => Stock.verify_iff hconnected hdecodes hlow hhigh,
    fun users hdecodes => Feed.verify_iff hconnected users hdecodes⟩

/-- Documents under their identities, given with their other fields. -/
def filed (entries : List (String × List (String × Json))) : Documents :=
  Std.ExtTreeMap.ofList (entries.map fun entry =>
    (entry.1, Json.object (("_id", .str entry.1) :: entry.2)))

/-- Two orders and as many items and payments, but one item is of a third order; and
a post that did not go to its one follower. -/
def damaged : World Server where
  driver :=
    { connected := true
      store := (({} : Store).install "products" (filed [("product1", [("inventory", .int 1)])]))
        |>.install "orders" (filed [("o1", []), ("o2", [])])
        |>.install "order_items"
          (filed [("i1", [("order_id", .str "o1")]), ("i2", [("order_id", .str "o3")])])
        |>.install "payments"
          (filed [("p1", [("order_id", .str "o1")]), ("p2", [("order_id", .str "o2")])])
        |>.install "posts" (filed [("m1", [("user_id", .str "b")])])
        |>.install "timelines" (filed [("a", [("user_id", .str "a"), ("post_ids", .arr [])])])
        |>.install "follows"
          (filed [("a->b", [("follower_id", .str "a"), ("followee_id", .str "b")])]) }
  clock := default

/-- A store whose rows can all be read and whose numbers do not add up, so that both
checks turn it down. -/
theorem checks_exact_damaged :
    damaged.driver.connected = true ∧ Stock.Decodes damaged.driver.store.docs 1 ∧
    Feed.Decodes damaged.driver.store.docs ∧
    ¬ Stock.Balanced damaged.driver.store.docs (3 - 1) ∧
    ¬ Feed.Delivered damaged.driver.store.docs := by
  have horders : (damaged.driver.store.docs "orders").Legible Stock.orderIn :=
    Documents.legible_of_all (by decide +kernel)
  have htimelines : (damaged.driver.store.docs "timelines").Legible Feed.timelineIn :=
    Documents.legible_of_all (by decide +kernel)
  have hstock : Stock.Decodes damaged.driver.store.docs 1 := by
    refine ⟨⟨_, rfl, rfl⟩, horders, Documents.legible_of_all (by decide +kernel),
      Documents.legible_of_all (by decide +kernel), ?_⟩
    obtain ⟨listed, hlisted⟩ := horders.exists_listed
    refine (hlisted.nodup_map_values_iff id).mp ?_
    have hread : (["o1", "o2"] : List String) = listed.map Prod.snd :=
      Except.ok.inj ((show Except.ok ["o1", "o2"] = _ from rfl).trans hlisted.read)
    rw [← hread]
    decide
  have hfeed : Feed.Decodes damaged.driver.store.docs := by
    refine ⟨Documents.legible_of_all (by decide +kernel), htimelines,
      Documents.legible_of_all (by decide +kernel), ?_⟩
    obtain ⟨listed, hlisted⟩ := htimelines.exists_listed
    refine (hlisted.nodup_map_values_iff Prod.fst).mp ?_
    have hread : [("a", ([] : List String))] = listed.map Prod.snd :=
      Except.ok.inj ((show Except.ok [("a", ([] : List String))] = _ from rfl).trans hlisted.read)
    rw [← hread]
    decide
  obtain ⟨verdict, hverify, hbalanced⟩ :=
    (checks_exact (w := damaged) rfl).1 3 1 hstock (by decide) (by decide)
  obtain ⟨verdict', hverify', hdelivered⟩ := (checks_exact (w := damaged) rfl).2 2 hfeed
  -- Both checks are run.
  have hrefused : (World.site.run damaged
      (Stock.orderProcessing .document 3).verify.run).2.toOption = some (some false) := by
    decide +kernel
  have hrefused' : (World.site.run damaged
      (Feed.fanOutOnWrite .document 2).verify.run).2.toOption = some (some false) := by
    decide +kernel
  rw [hverify] at hrefused
  rw [hverify'] at hrefused'
  cases hrefused
  cases hrefused'
  exact ⟨rfl, hstock, hfeed, fun h => Bool.false_ne_true (hbalanced.mpr h),
    fun h => Bool.false_ne_true (hdelivered.mpr h)⟩

end StoreBench.Scenario
