import StoreBench.Proofs.Scenario.Catalog
import StoreBench.Proofs.Scenario.Ring
import StoreBench.Scenario.Catalog

/-!
# `StoreBench.Proofs.Scenario.Residue`: runs leave nothing behind

The workloads of a family use the same collections (`collections`), and each of them
drops these at its end. `Tidy` collects what makes this enough: the set-up only
inserts into these collections, the attempts and the check write to no other, and
the teardown drops each of them. All workloads of the catalog are tidy
(`tidy_of_buildSized`).

After a run of a tidy workload its collections are empty again and no other was
changed, whatever its clients did (`Tidy.teardown_run`), so that the next set-up
finds what the first one found (`leaves_no_residue`).
-/

set_option autoImplicit false

namespace StoreBench.Scenario

/-- The collections that the workloads of a family use. A family that is not known has
none, and no workload is built for it either. -/
def collections (family : String) : List String :=
  match family with
  | "ecommerce" => Shop.tables
  | "socialmedia" => Network.tables
  | "analytics" => [Events.table]
  | _ => []

/-! ### Tidy workloads -/

/-- A workload of some collections, which writes to no other and drops them all at
its end. -/
structure Tidy (names : List String) (workload : Workload requests) : Prop where
  setup : ∃ gather, workload.setup = gather >>= Task.execAll ∧ Draws (Seeds names) gather
  attempt : ∀ t, Confined names anything (workload.attempt t)
  verify : Confined names anything workload.verify
  teardown : workload.teardown = Task.execAll (names.map fun name => .on name .dropCollection)

namespace Tidy

variable {names : List String} {workload : Workload requests} {w prepared : World Server}

/-- A set-up writes to its collections only: all that it asks for besides is drawn from
the supply and the clock. -/
theorem confined_setup (h : Tidy names workload) : Confined names anything workload.setup := by
  obtain ⟨gather, hsetup, hgather⟩ := h.setup
  rw [hsetup]
  exact hgather.confined_setup

/-- A set-up succeeds where its collections are empty and no identity is drawn twice.
Nothing is assumed of the other collections. -/
theorem site_run_setup (h : Tidy names workload) (hconnected : w.driver.connected = true)
    (hfaults : w.driver.faults = []) (hempty : ∀ name ∈ names, w.driver.store.docs name = ∅)
    (hfresh : (w.supply.taken w.identities
      (World.site.run w workload.setup.run).1.identities).Nodup) :
    (World.site.run w workload.setup.run).2 = .ok () := by
  obtain ⟨gather, hsetup, hgather⟩ := h.setup
  rw [hsetup] at hfresh ⊢
  exact hgather.site_run_setup hconnected hfaults hempty hfresh

/-- Where nothing but its collections was changed since, the teardown leaves the
store as it was before, with these collections empty. -/
theorem teardown_run (h : Tidy names workload) {before : World Server}
    (hconnected : before.driver.connected = true) (hfaults : before.driver.faults = [])
    (hbeside : World.Beside names before w) :
    ∃ left, World.site.run w workload.teardown.run = (left, .ok ()) ∧
      left.driver.connected = true ∧ left.driver.faults = [] ∧
      (∀ name ∈ names, left.driver.store.docs name = ∅) ∧
      ∀ name ∉ names, left.driver.store.docs name = before.driver.store.docs name := by
  -- Nobody queues faults, so there are still none.
  have hsame : w.driver.faults = [] := by
    have hsuffix := hbeside.faults
    rw [hfaults] at hsuffix
    exact List.suffix_nil.mp hsuffix
  obtain ⟨left, hleft, hdocs⟩ := site_run_drops (hbeside.connected.trans hconnected) hsame names
  rw [← h.teardown] at hleft
  have hconfined : Confined names anything workload.teardown := by
    rw [h.teardown]
    refine .execAll fun s hs => ?_
    obtain ⟨name, hname, rfl⟩ := List.mem_map.mp hs
    exact hname
  have hafter := hbeside.trans (hconfined.site_run hleft)
  have hleftFaults := hafter.faults
  rw [hfaults] at hleftFaults
  refine ⟨left, hleft, hafter.connected.trans hconnected, List.suffix_nil.mp hleftFaults,
    fun name hname => ?_, hafter.docs⟩
  rw [hdocs, if_pos hname]

end Tidy

/-! ### The shop -/

namespace Stock

/-- Setting up a sale draws nothing, and inserts one product at a fixed place. -/
theorem draws_setup (inventory : Int) :
    Draws (Seeds Shop.tables) (pure (Shop.document.createSchema
      ++ [Shop.document.insertProduct product "test product" inventory []])) := by
  refine .pure ⟨[("products", product)], ?_, by decide, fun _ => by decide⟩
  exact InsertsAt.insert "products" product (by simp)

/-- Taking a piece changes the products and nothing else, whether there is one or not. -/
theorem confined_takePiece : Confined Shop.tables anything (takePiece .document) := by
  refine (Confined.execIn (Statement.within_on (by decide) _)).bind fun n _ => ?_
  split
  · exact .throw _
  · exact .pure trivial

/-- Looking how many pieces are left writes nothing. -/
theorem confined_remaining : Confined Shop.tables anything (remaining .document) := by
  refine (Confined.queryRow _).bind fun row _ => ?_
  cases row with
  | none => exact .throw _
  | some row => exact .lift _

/-- The statements of an order are about tables of the shop, whichever identities they
are made of. -/
theorem confined_orderStatements :
    Confined Shop.tables (fun statements => ∀ s ∈ statements, s.Within Shop.tables)
      (orderStatements .document) := by
  refine (Confined.ask (by trivial)).bind fun order _ =>
    (Confined.ask (by trivial)).bind fun user _ => (Confined.ask (by trivial)).bind fun time _ =>
    (Confined.ask (by trivial)).bind fun item _ => (Confined.ask (by trivial)).bind
    fun payment _ => .pure ?_
  simp only [List.forall_mem_cons]
  exact ⟨Statement.within_on (by decide) _, Statement.within_on (by decide) _,
    Statement.within_on (by decide) _, nofun⟩

/-- A sale without orders is tidy. It inserts one product and drops all tables of the
shop, also those that it never filled. -/
theorem tidy_inventoryUpdate (inventory : Int) :
    Tidy Shop.tables (inventoryUpdate .document inventory) where
  setup := ⟨_, rfl, draws_setup inventory⟩
  attempt _ := confined_takePiece.transact
  verify := confined_remaining.bind fun _ _ => .pure trivial
  teardown := rfl

/-- A sale with orders is tidy: orders, items and payments go to tables that are dropped
with the products. -/
theorem tidy_orderProcessing (inventory : Int) :
    Tidy Shop.tables (orderProcessing .document inventory) where
  setup := ⟨_, rfl, draws_setup inventory⟩
  attempt _ := confined_orderStatements.bind fun _ hstatements =>
    (Confined.bind (.forM fun s hs => (Confined.execIn (hstatements s hs)).discard)
      fun _ _ => confined_takePiece).transact
  verify := confined_remaining.bind fun _ _ => (Confined.query _).bind fun _ _ =>
    (Confined.query _).bind fun _ _ => (Confined.lift _).bind fun _ _ =>
    (Confined.query _).bind fun _ _ => (Confined.lift _).bind fun _ _ =>
    (Confined.lift_computed _).bind fun _ _ => (Confined.lift _).bind fun _ _ => .pure trivial
  teardown := rfl

end Stock

namespace Browse

/-- Looking for popular products is tidy. Its attempts only read, so what its set-up
inserted is all that there is to drop. -/
theorem tidy_catalogFilter (products : Nat) :
    Tidy Shop.tables (catalogFilter .document products) where
  setup := ⟨_, rfl, draws_seedStatements products⟩
  attempt _ := (Confined.query _).discard
  verify := .pure trivial
  teardown := rfl

end Browse

/-! ### The network -/

namespace Network

/-- The places of a user, and of its timeline where there are timelines. Both go by the
name of the user. -/
def userPlaces (timelines : Bool) (i : Nat) : List (String × String) :=
  ("users", userId i) :: (if timelines then [("timelines", userId i)] else [])

/-- All places of a user have the user's name for a key, so places of different users
are different. -/
theorem mem_userPlaces {timelines : Bool} {i : Nat} {place : String × String}
    (h : place ∈ userPlaces timelines i) :
    (place.1 = "users" ∨ place.1 = "timelines") ∧ place.2 = userId i := by
  rcases List.mem_cons.mp h with rfl | htimeline
  · exact ⟨.inl rfl, rfl⟩
  · split at htimeline
    · rw [List.mem_singleton.mp htimeline]
      exact ⟨.inr rfl, rfl⟩
    · cases htimeline

/-- The places of what a network is seeded with, in the order of the commands: users
with their timelines, and then the follows. -/
def seedPlaces (users follows : Nat) (timelines : Bool) : List (String × String) :=
  (List.range users).flatMap (userPlaces timelines)
  ++ (followEdges users follows).map fun edge => ("follows", followId edge)

/-- Seeding a network inserts at these places, one document at each. -/
theorem insertsAt_seed (users follows : Nat) (timelines : Bool) :
    InsertsAt (seedPlaces users follows timelines)
      (document.seed users follows timelines) := by
  have hfollows : InsertsAt
      ((followEdges users follows).map fun edge => ("follows", followId edge))
      ((followEdges users follows).map fun edge => document.insertFollow edge.1 edge.2) := by
    rw [List.map_eq_flatMap, List.map_eq_flatMap]
    exact .flatMap _ fun edge => .insert "follows" (followId edge) (by simp)
  refine InsertsAt.append (.flatMap _ fun i => ?_) hfollows
  have huser : InsertsAt [("users", userId i)]
      [document.insertUser (userId i) s!"user-{i}"] :=
    .insert "users" (userId i) (by simp)
  have htimeline : InsertsAt (if timelines then [("timelines", userId i)] else [])
      (if timelines then [document.insertTimeline (userId i)] else []) := by
    split
    · exact .insert "timelines" (userId i) (by simp)
    · exact .nil
  exact huser.append htimeline

/-- Each collection that is seeded is one of the network, and none has the posts. -/
theorem collection_of_seedPlaces {users follows : Nat} {timelines : Bool}
    {place : String × String} (h : place ∈ seedPlaces users follows timelines) :
    place.1 ∈ tables ∧ place.1 ≠ "posts" := by
  rcases List.mem_append.mp h with hname | hfollow
  · obtain ⟨i, -, hplace⟩ := List.mem_flatMap.mp hname
    rcases (mem_userPlaces hplace).1 with huser | htimeline
    · rw [huser]
      decide
    · rw [htimeline]
      decide
  · obtain ⟨edge, -, rfl⟩ := List.mem_map.mp hfollow
    exact ⟨show "follows" ∈ tables by decide, show "follows" ≠ "posts" by decide⟩

/-- No two of the places are the same: users go by their numbers, and nobody follows
more than one other. -/
theorem nodup_seedPlaces (users follows : Nat) (timelines : Bool) :
    (seedPlaces users follows timelines).Nodup := by
  refine List.nodup_append.mpr ⟨?_, ?_, ?_⟩
  · refine List.nodup_flatMap.mpr ⟨fun i _ => ?_, ?_⟩
    · cases timelines <;> simp [userPlaces]
    · -- The key tells the number of the user.
      refine List.nodup_range.imp fun {i j} hne place hi hj => ?_
      exact hne (userId_injective ((mem_userPlaces hi).2.symm.trans (mem_userPlaces hj).2))
  · have hring : ((List.range (min users follows)).map fun i =>
        ("follows", followId (ringEdge users i))).Nodup :=
      List.Nodup.map (fun i j h => followId_ringEdge_injective (Prod.mk.inj h).2)
        List.nodup_range
    refine (((followEdges_perm users follows).map _).nodup_iff).mpr ?_
    rwa [List.map_map]
  · rintro place hplace other hother rfl
    obtain ⟨i, -, hi⟩ := List.mem_flatMap.mp hplace
    obtain ⟨edge, -, rfl⟩ := List.mem_map.mp hother
    rcases (mem_userPlaces hi).1 with huser | htimeline
    · exact absurd (show "follows" = "users" from huser) (by decide)
    · exact absurd (show "follows" = "timelines" from htimeline) (by decide)

end Network

namespace Feed

open Network (userId)

/-- Publishing writes to the posts and to the timelines of followers, which are
collections of the network. -/
theorem confined_publish (author post : String) (time : Instant) :
    Confined Network.tables anything (publish .document author post time) := by
  refine Confined.transact ?_
  refine (Confined.execIn (Statement.within_on (by decide) _)).discard.bind fun _ _ => ?_
  refine (Confined.queryIn (Statement.within_on (by decide) _)).bind fun rows _ => ?_
  refine .forM fun row _ => (Confined.lift _).bind fun follower _ => ?_
  exact (Confined.execIn (Statement.within_on (by decide) _)).discard

/-- Reading a feed writes nothing, however many queries it takes. -/
theorem confined_feed (reader : String) :
    Confined Network.tables anything (feed .document reader) :=
  (Confined.query _).bind fun _ _ => (Confined.lift _).bind fun _ _ => .query _

/-- Seeding a network with posts draws an identity for each post. Its places are
different where these identities are, since users and follows have places that are
fixed. -/
theorem draws_seedStatements (users posts : Nat) :
    Draws (Seeds Network.tables) (seedStatements .document users posts) := by
  refine (Draws.ask (by nofun) (by nofun)).bind fun _ time htime => ?_
  have hpost (i : Nat) : Draws (fun drawn post => Inserts ["posts"] drawn [post]) (do
      let post ← Task.identity
      return Network.document.insertPost post (userId (i % users)) content time) := by
    refine Draws.identity.bind fun drawn post hpost => .pure ?_
    rw [List.append_nil, hpost]
    exact .insert (by decide) post (by simp)
  refine (Draws.mapM (fun _ => Inserts ["posts"]) hpost (.nil _)
    (fun _ _ _ _ _ _ hpost hposts => hpost.append hposts) _).bind
    fun drawn written hwritten => .pure ?_
  obtain ⟨places, hplaces, hnames, hdistinct⟩ := hwritten.seeds
  refine ⟨Network.seedPlaces users follows false ++ places,
    (Network.insertsAt_seed users follows false).append hplaces, ?_, ?_⟩
  · intro place hplace
    rcases List.mem_append.mp hplace with hseeded | hposted
    · exact (Network.collection_of_seedPlaces hseeded).1
    · rw [List.mem_singleton.mp (hnames place hposted)]
      decide
  · intro hnodup
    -- The posts have a collection of their own, and keys that were drawn.
    rw [htime, List.nil_append, List.append_nil] at hnodup
    refine List.nodup_append.mpr ⟨Network.nodup_seedPlaces _ _ _, hdistinct hnodup, ?_⟩
    rintro place hseeded other hposted rfl
    exact (Network.collection_of_seedPlaces hseeded).2
      (List.mem_singleton.mp (hnames place hposted))

/-- Publishing to timelines is tidy. Its set-up draws nothing, so it succeeds in
whatever state the supply is. -/
theorem tidy_fanOutOnWrite (users : Nat) :
    Tidy Network.tables (fanOutOnWrite .document users) where
  setup := ⟨pure (Network.document.seed (max users 1) follows true), rfl, .pure
    ⟨Network.seedPlaces (max users 1) follows true, Network.insertsAt_seed _ _ _,
      fun _ hplace => (Network.collection_of_seedPlaces hplace).1,
      fun _ => Network.nodup_seedPlaces _ _ _⟩⟩
  attempt _ := (Confined.ask (by trivial)).bind fun _ _ => (Confined.ask (by trivial)).bind
    fun _ _ => (Confined.ask (by trivial)).bind fun _ _ => confined_publish _ _ _
  verify := (Confined.query _).bind fun _ _ => (Confined.lift _).bind fun _ _ =>
    (Confined.query _).bind fun _ _ => (Confined.lift _).bind fun _ _ =>
    (Confined.query _).bind fun _ _ => (Confined.lift _).bind fun _ _ => .pure trivial
  teardown := rfl

/-- Joining on demand is tidy. Its posts are inserted by the set-up, and its attempts
only read. -/
theorem tidy_joinOnRead (users posts : Nat) :
    Tidy Network.tables (joinOnRead .document users posts) where
  setup := ⟨_, rfl, draws_seedStatements (max users 1) posts⟩
  attempt _ := (Confined.ask (by trivial)).bind fun _ _ => (confined_feed _).discard
  verify := .pure trivial
  teardown := rfl

end Feed

/-! ### The stream -/

namespace Stream

/-- A batch of events draws an identity for each of them and nothing else, so its events
have different places where these are different. -/
theorem draws_batchStatements (first batch : Nat) (time : Instant) :
    Draws (Inserts [Events.table]) (batchStatements .document first batch time) := by
  have hevent (i : Nat) : Draws (fun drawn event => Inserts [Events.table] drawn [event]) (do
      return Events.document.insert (.synthetic (← Task.identity) (first + i) time)) := by
    refine Draws.identity.bind fun drawn event hevent => .pure ?_
    rw [List.append_nil, hevent]
    exact .insert (by decide) event (by simp)
  exact Draws.mapM (fun _ => Inserts [Events.table]) hevent (.nil _)
    (fun _ _ _ _ _ _ hevent hevents => hevent.append hevents) _

/-- Counting events writes nothing. -/
theorem confined_countEvents : Confined [Events.table] anything (countEvents .document) := by
  refine (Confined.queryRow _).bind fun row _ => ?_
  cases row with
  | none => exact .throw _
  | some row => exact .lift _

/-- The beginning of a time window is computed from the clock, and breaks off where it
lies before all instants. -/
theorem confined_cutoff (window : Span) : Confined [Events.table] anything (cutoff window) := by
  refine (Confined.ask (by trivial)).bind fun now _ => ?_
  split
  · exact .pure trivial
  · exact .throw _

/-- Ingesting is tidy. Its set-up inserts nothing at all, and its batches go to the one
collection that it drops. -/
theorem tidy_ingestion (target batch : Nat) :
    Tidy [Events.table] (ingestion .document target batch) where
  setup := by
    -- All events come from the attempts.
    refine ⟨Task.clearStored >>= fun _ => pure [], rfl, ?_⟩
    exact (Draws.ask (by nofun) (by nofun)).bind fun drawn _ _ =>
      .pure ⟨[], .nil, nofun, fun _ => List.nodup_nil⟩
  attempt _ := by
    refine (Confined.ask (by trivial)).bind fun stored _ => ?_
    split
    · -- The target is reached.
      exact .throw_bind _ _
    · refine (Confined.ask (by trivial)).bind fun first _ => (Confined.ask (by trivial)).bind
        fun time _ => ((draws_batchStatements first (max batch 1) time).confined _).bind ?_
      rintro _ ⟨drawn, hbatch⟩
      exact (Confined.execAll hbatch.seeds.within).bind fun _ _ => .ask (by trivial)
  verify := confined_countEvents.bind fun _ _ => (Confined.ask (by trivial)).bind
    fun _ _ => .pure trivial
  teardown := rfl

/-- Summing up a time window is tidy: its set-up inserts one batch of events, and its
attempts only read. -/
theorem tidy_dashboardQuery (events : Nat) (window : Span) :
    Tidy [Events.table] (dashboardQuery .document events window) where
  setup := by
    -- The events are one batch of the stream, which begins there.
    refine ⟨Task.now >>= fun time => batchStatements .document 0 events time, rfl, ?_⟩
    exact (Draws.ask (by nofun) (by nofun)).bind fun drawn time hdrawn =>
      ((draws_batchStatements 0 events time).mono fun more events hevents => by
        rw [hdrawn]
        exact hevents.seeds)
  attempt _ := (confined_cutoff window).bind fun _ _ => (Confined.query _).discard
  verify := .pure trivial
  teardown := rfl

end Stream

/-! ### All workloads -/

/-- The workloads of the catalog are tidy, in all sizes. The cases are those of the
catalog, one for each name that it knows. -/
theorem tidy_of_buildSized {sizes : Sizes} {family test : String} {workload : Workload requests}
    (h : buildSized sizes family test .memory = .ok workload) :
    Tidy (collections family) workload := by
  unfold buildSized at h
  split at h
  · cases h
    exact Stock.tidy_inventoryUpdate _
  · cases h
    exact Stock.tidy_orderProcessing _
  · cases h
    exact Browse.tidy_catalogFilter _
  · cases h
    exact Feed.tidy_fanOutOnWrite _
  · cases h
    exact Feed.tidy_joinOnRead _ _
  · cases h
    exact Stream.tidy_ingestion _ _
  · -- A window that is too long makes no workload.
    cases hwindow : Stream.checkWindow sizes.window with
    | error e =>
        rw [hwindow] at h
        cases h
    | ok window =>
        rw [hwindow] at h
        cases h
        exact Stream.tidy_dashboardQuery _ _
  · cases h

/-- A run of any workload of the catalog, in any size, leaves its collections empty
and all others as they were before the set-up, whatever the order in which the
requests of its clients are answered, and whether its check is made before the
teardown or not. So every set-up of a workload of the family succeeds where the run
has left the store, as often as that is repeated.

The store is connected and no faults are queued. No set-up takes an identity
twice. -/
theorem leaves_no_residue {sizes : Sizes} {family test : String} {workload : Workload requests}
    (hbuild : buildSized sizes family test .memory = .ok workload) {w prepared : World Server}
    (hconnected : w.driver.connected = true) (hfaults : w.driver.faults = [])
    (hsetup : World.site.run w workload.setup.run = (prepared, .ok ())) (config : PoolConfig)
    (template : Recorder) (schedule : List Crew.Event) :
    let c : Clients := (Crew.start World.site config template {} prepared).run World.site
      workload.attempt schedule
    ∀ worked, worked = c.state ∨ worked = (World.site.run c.state workload.verify.run).1 →
    ∃ left, World.site.run worked workload.teardown.run = (left, .ok ()) ∧
      (∀ name ∈ collections family, left.driver.store.docs name = ∅) ∧
      (∀ name ∉ collections family, left.driver.store.docs name = w.driver.store.docs name) ∧
      ∀ (sizes : Sizes) (test : String) (next : Workload requests),
        buildSized sizes family test .memory = .ok next →
        ∀ again : World Server, again.driver = left.driver →
          (again.supply.taken again.identities
            (World.site.run again next.setup.run).1.identities).Nodup →
          (World.site.run again next.setup.run).2 = .ok () := by
  intro c worked hchecked
  have h := tidy_of_buildSized hbuild
  -- Neither the set-up nor the attempts, nor the check, change what is not their own.
  have hclients := (h.confined_setup.site_run hsetup).trans
    (Confined.clients_run h.attempt config template prepared schedule)
  have hworked : World.Beside (collections family) w worked := by
    rcases hchecked with rfl | rfl
    · exact hclients
    · exact hclients.trans (h.verify.site_run rfl)
  obtain ⟨left, hleft, hstillConnected, hstillFaults, hempty, hothers⟩ :=
    h.teardown_run hconnected hfaults hworked
  refine ⟨left, hleft, hempty, hothers, ?_⟩
  -- The teardown has left what a set-up needs: empty collections of its own.
  intro sizes' test' next hnext again hagain hfresh
  rw [← hagain] at hstillConnected hstillFaults hempty
  exact (tidy_of_buildSized hnext).site_run_setup hstillConnected hstillFaults hempty hfresh

/-- A store that holds a note, with numbers for identities. The note stands for whatever
else is kept in the same store. -/
def desk : World Server where
  driver :=
    { connected := true
      store := ({} : Store).install "notes" ((∅ : Documents).insert "1" (.str "buy milk")) }
  supply := { identity := toString, number := id }
  clock := default

/-- Nothing else is there, so every workload can be set up. -/
theorem docs_desk {name : String} (hname : name ≠ "notes") :
    desk.driver.store.docs name = ∅ :=
  (Store.docs_install _ _ _ _).trans ((if_neg hname.symm).trans (Store.docs_empty name))

/-- A network of two users that is set up there, next to the note. -/
def seeded : World Server :=
  (World.site.run desk (Feed.fanOutOnWrite .document 2).setup.run).1

/-- Two workers that publish posts in it and take turns, long enough for two posts. -/
def published : Clients :=
  (Crew.start World.site { concurrency := 2 } ⟨.empty ⟨2, 1, 2⟩⟩ {} seeded).run World.site
    (Feed.fanOutOnWrite .document 2).attempt ((List.range 50).map fun i => .turn (i % 2))

/-- After two posts and the teardown the posts are gone and the note is still there, and
a set-up of another workload of the family succeeds. -/
theorem leaves_no_residue_desk :
    (buildSized { users := 2 } "socialmedia" "fan_out_on_write" .memory
        = .ok (Feed.fanOutOnWrite .document 2) ∧
      desk.driver.connected = true ∧ desk.driver.faults = [] ∧
      World.site.run desk (Feed.fanOutOnWrite .document 2).setup.run = (seeded, .ok ())) ∧
    published.state.driver.documentCount "posts" = 2 ∧
    ∃ left, World.site.run published.state (Feed.fanOutOnWrite .document 2).teardown.run
        = (left, .ok ()) ∧
      left.driver.store.docs "posts" = ∅ ∧
      left.driver.store.docs "notes" = desk.driver.store.docs "notes" ∧
      (World.site.run { desk with driver := left.driver }
        (Feed.joinOnRead .document 2 3).setup.run).2 = .ok () := by
  have hbuild : buildSized { users := 2 } "socialmedia" "fan_out_on_write" .memory
      = .ok (Feed.fanOutOnWrite .document 2) := rfl
  have hempty : ∀ name ∈ Network.tables, desk.driver.store.docs name = ∅ := fun name hname =>
    docs_desk (by rintro rfl; exact absurd hname (by decide))
  have hsetup : World.site.run desk (Feed.fanOutOnWrite .document 2).setup.run
      = (seeded, .ok ()) :=
    Prod.ext rfl ((Feed.tidy_fanOutOnWrite 2).site_run_setup rfl rfl hempty
      (Supply.nodup_taken Text.toString_injective _ _))
  obtain ⟨left, hleft, hcleared, hothers, hagain⟩ := leaves_no_residue hbuild rfl rfl hsetup
    { concurrency := 2 } ⟨.empty ⟨2, 1, 2⟩⟩ ((List.range 50).map fun i => .turn (i % 2))
    published.state (.inl rfl)
  refine ⟨⟨hbuild, rfl, rfl, hsetup⟩, by decide +kernel, left, hleft,
    hcleared "posts" (by decide), hothers "notes" (by decide), ?_⟩
  exact hagain { users := 2, posts := 3 } "join_on_read" _ rfl _ rfl
    (Supply.nodup_taken Text.toString_injective _ _)

end StoreBench.Scenario
