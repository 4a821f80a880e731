import StoreBench.Proofs.Scenario.Atomic
import StoreBench.Proofs.Scenario.Check
import StoreBench.Proofs.Scenario.Graph

/-!
# `StoreBench.Proofs.Scenario.FanOut`: timelines that many authors write

An attempt to publish is one transaction, so by `Growth.run` what one post after the
other leads on (`Fanned.publish`) holds at every moment of every run.
`timelines_match_posts` says it of what the check reads: the timeline of each
user holds the posts of those whom the user follows, each once.
-/

set_option autoImplicit false

namespace StoreBench.Scenario.Feed

open Network (userId)

/-! ### The set-up -/

variable {users n : Nat} {posts : List Post} {lines : List (String × List String)}

/-- A set-up that succeeds leads to a network without posts, where its tables are
empty before. -/
theorem fanned_of_setup {w after : World Server} (hsound : w.driver.store.Sound)
    (hempty : ∀ table ∈ Network.tables, w.driver.documentCount table = 0)
    (h : World.site.run w (fanOutOnWrite .document users).setup.run = (after, .ok ())) :
    after.driver.connected = true ∧ after.driver.store.Sound ∧
      Fanned (max users 1) 0 after.driver.store.docs []
        ((List.range (max users 1)).map fun i => (userId i, [])) := by
  have hcleared : ∀ table ∈ Network.tables, w.driver.store.docs table = ∅ := fun table htable =>
    Std.ExtTreeMap.eq_empty_iff_size_eq_zero.mpr (hempty table htable)
  obtain ⟨hconnected, hstore, hseeded⟩ :=
    Network.holds_of_seed hsound hcleared (Nat.le_max_right users 1) h
  refine ⟨hconnected, hstore, rfl, hseeded.followDocs, ?_, hseeded.timelineDocs, ?_, ?_⟩
  · rw [hseeded.noPosts]
    exact Documents.records_of_size_eq_zero Post.entry Std.ExtTreeMap.size_empty
  · rw [List.map_map]
    exact .refl _
  · intro line hline
    obtain ⟨i, -, rfl⟩ := List.mem_map.mp hline
    exact .refl _

/-! ### The attempts -/

/-- Appending a post to the timelines of followers that were read comes to deeds
that complete what was done before. -/
theorem deliveries_meets {post : String} {rows : List Row} {deeds : List Deed}
    (h : ∀ appended, List.Forall₂ (Delivery post) rows appended → Published (deeds ++ appended)) :
    (Conduct.atomic Published).Meets (Conduct.Delivers Published) false (some deeds)
      (rows.forM (m := Task) fun row => do
        let follower ← row.scanNamed Value.toText "follower_id"
        discard (Task.execIn (Network.document.appendToTimeline follower post))).run := by
  -- So long as rows remain, their deliveries are all that is missing.
  refine Conduct.Meets.forM (fun rest landed known => landed = false ∧
    ∃ deeds, known = some deeds ∧ ∀ appended,
      List.Forall₂ (Delivery post) rest appended → Published (deeds ++ appended))
    ?_ ?_ ⟨rfl, deeds, rfl, h⟩
  · rintro row rest landed known ⟨rfl, deeds, rfl, hrest⟩
    cases hscan : row.scanNamed Value.toText "follower_id" with
    | error e => exact ⟨rfl, nofun⟩
    | ok follower =>
        refine Conduct.Meets.discarded ⟨⟨nofun, nofun⟩, fun fresh appended => ?_⟩
        cases appended with
        | error failure => exact ⟨rfl, nofun⟩
        | ok n =>
            refine ⟨rfl, _, rfl, fun more hmore => ?_⟩
            rw [List.append_assoc]
            exact hrest _ (.cons ⟨follower, hscan, rfl⟩ hmore)
  · rintro landed known ⟨rfl, deeds, rfl, hdeeds⟩
    refine ⟨rfl, fun _ => ⟨deeds, rfl, ?_⟩⟩
    have hall := hdeeds [] .nil
    rwa [List.append_nil] at hall

/-- Publishing commits the deeds of a post and its deliveries, whatever followers
it is told of. -/
theorem publish_meets (p : Post) (known : Standing) :
    (Conduct.atomic Published).Meets (fun landed _ result => landed = true ↔ result = .ok ())
      false known (publish .document p.author p.id p.time).run := by
  have hinsert : Network.document.insertPost p.id p.author content p.time
      = .document ⟨"posts", .insertOne p.entry.2⟩ :=
    insertPost_document p.id p.author content p.time
  unfold publish
  rw [hinsert]
  refine Conduct.Meets.atomic_transact (Conduct.Meets.task_bind (Conduct.Meets.discarded
    ⟨⟨nofun, nofun⟩, fun fresh inserted => ?_⟩))
  -- The post, then its followers, then the deliveries; a failure on the way commits nothing.
  cases inserted with
  | error failure => exact ⟨rfl, nofun⟩
  | ok n =>
      refine Conduct.Meets.task_bind ⟨⟨nofun, nofun⟩, fun fresh found => ?_⟩
      cases found with
      | error failure => exact ⟨rfl, nofun⟩
      | ok rows =>
          refine deliveries_meets ?_
          intro appended happended
          exact ⟨p, .affected n, rows, appended, happended, rfl⟩

/-- An attempt commits the deeds of a post, or nothing. -/
theorem fanOutOnWrite_meets (users : Nat) (t : Try) :
    (Conduct.atomic Published).Meets (fun landed _ result => landed = true ↔ result = .ok ())
      false none ((fanOutOnWrite .document users).attempt t).run := by
  refine Conduct.Meets.ask_bind ⟨nofun, nofun⟩ ?_
  intro _ author
  refine Conduct.Meets.ask_bind ⟨nofun, nofun⟩ ?_
  intro _ post
  refine Conduct.Meets.ask_bind ⟨nofun, nofun⟩ ?_
  intro _ time
  exact publish_meets ⟨post, userId author, time⟩ none

/-! ### What the check reads -/

/-- These are the posts, the timelines and the follows that are stored, as the
check reads them. There is one timeline for each user of the ring; it holds, once
each, the posts of those whom the user follows, and nothing else. -/
structure Exact (users : Nat) (w : World Server) (posts : List PostRef)
    (timelines : List (String × List String)) (edges : List (String × String)) : Prop where
  posts_eq : readPosts .document ((w.driver.store.docs "posts").rows (.find .all)) = .ok posts
  timelines_eq :
    readTimelines ((w.driver.store.docs "timelines").rows (.find .all)) = .ok timelines
  follows_eq : readFollows ((w.driver.store.docs "follows").rows (.find .all)) = .ok edges
  ring : edges.Perm (Network.followEdges users follows)
  distinct : (posts.map PostRef.id).Nodup
  owners : (timelines.map Prod.fst).Perm ((List.range users).map userId)
  single : (timelines.map Prod.fst).Nodup
  nodup : ∀ line ∈ timelines, line.2.Nodup
  mem_iff : ∀ line ∈ timelines, ∀ id, id ∈ line.2 ↔
    ∃ post ∈ posts, post.id = id ∧ (line.1, post.author) ∈ edges

/-- The texts of a stored list are read back as a list of texts. -/
theorem ofJson_texts (ids : List String) :
    Value.ofJson (.arr (ids.map Json.str)) = .textList ids := by
  have hitems : Value.stringItems? (ids.map Json.str) = some ids := by
    induction ids with
    | nil => rfl
    | cons id rest ih => rw [List.map_cons, Value.stringItems?, ih, Option.map_some]
  rw [Value.ofJson, hitems]

/-- What is on a timeline: the posts of those whom its user follows. -/
theorem mem_feedOf {user id : String} : id ∈ feedOf users posts user ↔
    ∃ p ∈ posts, p.id = id ∧ (user, p.author) ∈ Network.followEdges users follows := by
  simp only [feedOf, List.mem_map, List.mem_filter, decide_eq_true_iff]
  constructor
  · rintro ⟨p, ⟨hp, hfollows⟩, hid⟩
    exact ⟨p, hp, hid, hfollows⟩
  · rintro ⟨p, hp, hid, hfollows⟩
    exact ⟨p, ⟨hp, hfollows⟩, hid⟩

/-- What is read of a network where posts went to timelines. -/
theorem Fanned.exact_read {w : World Server}
    (h : Fanned users n w.driver.store.docs posts lines) :
    ∃ read timelines edges, Exact users w read timelines edges ∧ read.length = n := by
  obtain ⟨read, hread, hposts⟩ := h.stored.read_all Network.document.postRef
    (fun p => ⟨p.id, p.author⟩) fun _ => rfl
  obtain ⟨timelines, htimelines, hlines⟩ := h.timelines.read_all (fun row => do
    let owner ← row.scanNamed Value.toText "user_id"
    let posts ← row.scanNamed Value.toTexts "post_ids"
    return (owner, posts)) id fun line => by
      have hids : (timelineEntry line).2.toRow.scanNamed Value.toTexts "post_ids"
          = (Value.ofJson (.arr (line.2.map Json.str))).toTexts := rfl
      rw [hids, ofJson_texts]
      rfl
  obtain ⟨edges, hedges, hfollows⟩ := h.edges.read_all (fun row => do
    let follower ← row.scanNamed Value.toText "follower_id"
    let followee ← row.scanNamed Value.toText "followee_id"
    return (follower, followee)) id fun _ => rfl
  rw [List.map_id] at htimelines hedges
  -- A post is stored under its identity, so no identity is that of two posts.
  have hids : (posts.map Post.id).Nodup := h.stored.nodup
  refine ⟨read, timelines, edges, ⟨hposts, hlines, hfollows, hedges, ?_, ?_, ?_, ?_, ?_⟩, ?_⟩
  · refine ((hread.map PostRef.id).nodup_iff).mpr ?_
    rw [List.map_map]
    exact hids
  · exact (htimelines.map Prod.fst).trans h.owners
  · exact (htimelines.map Prod.fst).nodup_iff.mpr h.timelines.nodup
  · -- A timeline has each post as often as it is among those that the user follows.
    intro line hline
    have hexact := h.exact line (htimelines.mem_iff.mp hline)
    exact hexact.nodup_iff.mpr ((List.filter_sublist.map Post.id).nodup hids)
  · intro line hline id
    rw [(h.exact line (htimelines.mem_iff.mp hline)).mem_iff, mem_feedOf]
    simp only [hread.mem_iff, hedges.mem_iff, List.mem_map, exists_exists_and_eq_and]
  · rw [hread.length_eq, List.length_map, h.length_eq]

variable {w : World Server} {read : List PostRef} {timelines : List (String × List String)}
  {edges : List (String × String)}

/-- A timeline that is exact holds every post it should. -/
theorem Exact.delivered (h : Exact users w read timelines edges) {edge : String × String}
    (hedge : edge ∈ edges) : delivered read timelines edge = true := by
  -- The follower has a timeline, and the one that is found is exact, whichever it is.
  have howner : edge.1 ∈ timelines.map Prod.fst :=
    h.owners.mem_iff.mpr (Network.follower_mem (h.ring.mem_iff.mp hedge))
  obtain ⟨owned, howned, hname⟩ := List.mem_map.mp howner
  have hfound : (timelines.reverse.lookup edge.1).isSome := List.lookup_isSome_iff.mpr
    ⟨owned, List.mem_reverse.mpr howned, beq_iff_eq.mpr hname.symm⟩
  obtain ⟨ids, hlookup⟩ := Option.isSome_iff_exists.mp hfound
  have hline : (edge.1, ids) ∈ timelines := by
    obtain ⟨before, later, hsplit, -⟩ := List.lookup_eq_some_iff.mp hlookup
    refine List.mem_reverse.mp ?_
    rw [hsplit]
    exact List.mem_append_right _ List.mem_cons_self
  simp only [Feed.delivered, hlookup, Option.getD_some, List.all_eq_true, Bool.or_eq_true,
    bne_iff_ne, List.contains_iff_mem]
  intro post hpost
  by_cases hauthor : post.author = edge.2
  · refine .inr ((h.mem_iff _ hline post.id).mpr ⟨post, hpost, rfl, ?_⟩)
    rw [hauthor]
    exact hedge
  · exact .inl hauthor

/-- The check finds each timeline to be what the posts and the follows say. -/
theorem Exact.verify (hconnected : w.driver.connected = true)
    (h : Exact (max users 1) w read timelines edges) :
    (World.site.run w (fanOutOnWrite .document users).verify.run).2 = .ok (some true) := by
  refine World.Finds.result ?_
  have hall : edges.all (Feed.delivered read timelines) = true :=
    List.all_eq_true.mpr fun edge hedge => h.delivered hedge
  refine .query hconnected rfl (.lift h.posts_eq ?_)
  refine .query hconnected rfl (.lift h.timelines_eq ?_)
  refine .query hconnected rfl (.lift h.follows_eq ?_)
  rw [hall]
  exact .done w _

/-- Posts lead on the timelines, which the check finds as they should be. -/
theorem growth (users : Nat) :
    Growth (fanOutOnWrite .document users) Published
      fun n docs => ∃ posts lines, Fanned (max users 1) n docs posts lines where
  attempt := fanOutOnWrite_meets users
  grow := by
    rintro n docs deeds ⟨posts, lines, hfanned⟩ hpublished hexplains
    exact hfanned.publish hpublished hexplains
  verify := by
    rintro w n hconnected ⟨posts, lines, hfanned⟩
    obtain ⟨read, timelines, edges, hexact, -⟩ := hfanned.exact_read
    exact hexact.verify hconnected

/-! ### The attempts as a whole -/

/-- Timelines are exact at every moment, whatever the order in which the requests
of the workers are answered, under every retry policy and with every queue of
faults that is left after the set-up. So the check finds them right whenever it is
made. Where nobody is in an attempt, as many posts are stored as attempts
succeeded.

The tables of the network are empty before the set-up. Identities need not be
distinct: one that is taken makes its commit fail. -/
theorem timelines_match_posts (users : Nat) {w : World Server} (hsound : w.driver.store.Sound)
    (hempty : ∀ table ∈ Network.tables, w.driver.documentCount table = 0) :
    let work := fanOutOnWrite .document users
    (∀ prepared, World.site.run w work.setup.run = (prepared, .ok ()) →
      ∀ (faults : List Fault) (config : PoolConfig) (template : Recorder)
        (schedule : List Crew.Event),
      let seeded := { prepared with driver := prepared.driver.inject faults }
      let c : Clients := (Crew.start World.site config template {} seeded).run World.site
        work.attempt schedule
      ∃ posts timelines edges, Exact (max users 1) c.state posts timelines edges ∧
        (World.site.run c.state work.verify.run).2 = .ok (some true) ∧
        (c.Quiet → posts.length = c.successes)) ∧
    ∀ (engine : EngineConfig) (size : RunConfig) (passed : List (Passed Runner.stages _)) after
      report,
      Program.Passes (Runner.Passes World.site work) w
        (Runner.plan engine work.retryPolicy size).run passed after (.ok report) →
      report.dataIntegrity = true ∧
      ∃ prepared config template pool worked checked cleared posts timelines edges,
        passed = [⟨.setup, .ok (), prepared⟩, ⟨.attempts config template, pool, worked⟩,
          ⟨.verify, .ok (some true), checked⟩, ⟨.teardown, cleared, after⟩] ∧
        Exact (max users 1) worked posts timelines edges ∧
        report.operations = posts.length % 2 ^ 64 := by
  intro work
  constructor
  · intro prepared hsetup faults config template schedule seeded c
    -- At any moment the network has grown by some posts.
    obtain ⟨hconnected, hprepared, hfanned⟩ := fanned_of_setup hsound hempty hsetup
    obtain ⟨n, ⟨posts, lines, hnow⟩, hverify, hquiet⟩ := (growth users).run hconnected hprepared
      ⟨[], _, hfanned⟩ faults config template schedule
    obtain ⟨read, timelines, edges, hexact, hlength⟩ := hnow.exact_read
    exact ⟨read, timelines, edges, hexact, hverify, fun hq => hlength.trans (hquiet hq)⟩
  · intro engine size passed after report hpasses
    -- The attempts left a network that is quiet, so that each success is a post.
    obtain ⟨hintegrity, prepared, config, template, pool, worked, checked, cleared, n, rfl,
      ⟨posts, lines, hworked⟩, hoperations⟩ := (growth users).passes_plan (by
        intro prepared hprepared
        obtain ⟨hconnected, hstore, hfanned⟩ := fanned_of_setup hsound hempty hprepared
        exact ⟨hconnected, hstore, [], _, hfanned⟩) hpasses
    obtain ⟨read, timelines, edges, hexact, hlength⟩ := hworked.exact_read
    exact ⟨hintegrity, prepared, config, template, pool, worked, checked, cleared, read, timelines,
      edges, rfl, hexact, hlength ▸ hoperations⟩

/-- A network with numbers for identities, and a fault for the first commit. -/
def square : World Server where
  driver := { connected := true, faults := [.pass, .conflict], latency := ⟨1000⟩ }
  supply := { identity := toString, number := id }
  clock := default

/-- What becomes there of two workers that take turns, request by request. -/
def posted : Clients :=
  (Crew.start World.site { concurrency := 2 } ⟨.empty ⟨2, 1, 2⟩⟩ {}
    (World.site.run square (fanOutOnWrite .document 3).setup.run).1).run World.site
      (fanOutOnWrite .document 3).attempt ((List.range 39).map fun i => .turn (min i 37 % 2))

/-- Three users in a ring, each with one follower: after three posts each timeline is
exact. -/
theorem timelines_match_posts_square :
    (square.driver.store.Sound ∧ ∀ table ∈ Network.tables, square.driver.documentCount table = 0) ∧
    ∃ posts timelines edges, Exact 3 posted.state posts timelines edges ∧ posts.length = 3 ∧
      (World.site.run posted.state (fanOutOnWrite .document 3).verify.run).2 = .ok (some true) := by
  have hempty : ∀ table ∈ Network.tables, square.driver.documentCount table = 0 := by
    decide +kernel
  obtain ⟨posts, timelines, edges, hexact, hverify, hlength⟩ :=
    (timelines_match_posts 3 Store.sound_empty hempty).1 _ (Prod.ext rfl rfl) []
      { concurrency := 2 } ⟨.empty ⟨2, 1, 2⟩⟩ ((List.range 39).map fun i => .turn (min i 37 % 2))
  refine ⟨⟨Store.sound_empty, hempty⟩, posts, timelines, edges, hexact, ?_, hverify⟩
  have hidle : posted.hands.all (fun hand => hand.rest.isNone) = true := by decide +kernel
  have hsuccesses : posted.successes = 3 := by decide +kernel
  refine (hlength ?_).trans hsuccesses
  intro hand hhand
  exact Option.isNone_iff_eq_none.mp (List.all_eq_true.mp hidle hand hhand)

end StoreBench.Scenario.Feed
