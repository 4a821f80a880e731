import StoreBench.Proofs.Scenario.Atomic
import StoreBench.Proofs.Scenario.Residue
import StoreBench.Proofs.Scenario.Timeline

/-!
# `StoreBench.Proofs.Scenario.Graph`: networks that are seeded

A network is seeded with users, a ring of follows between them, and a timeline for each
user where there are timelines. Asking for more follows than there are users goes round
the ring again (`mem_followEdges`), so a ring has as many edges as it has users at most
(`length_followEdges`), and nobody follows two users or has two followers
(`edge_unique`).

All of this goes into the store in one batch. `seed_document` has its commands, and
`seed_complete` says that they succeed where the collections are empty and which
documents they leave.
-/

set_option autoImplicit false

namespace StoreBench.Scenario.Network

open Feed (followEntry timelineEntry insertFollow_document)

variable {users follows : Nat} {edge other : String × String}

/-! ### The ring -/

/-- Every step of a ring leads along an edge, also when it goes round again. -/
theorem mem_followEdges (hpos : 1 ≤ users) :
    edge ∈ followEdges users follows ↔
      ∃ i < follows, edge = (userId (i % users), userId ((i + 1) % users)) := by
  rw [(followEdges_perm users follows).mem_iff, List.mem_map]
  constructor
  · rintro ⟨i, hi, rfl⟩
    have hlt := List.mem_range.mp hi
    refine ⟨i, by omega, ?_⟩
    rw [ringEdge, Nat.mod_eq_of_lt (by omega : i < users)]
  · rintro ⟨i, hi, rfl⟩
    have hround : i % users < users := Nat.mod_lt i hpos
    have hle : i % users ≤ i := Nat.mod_le i users
    refine ⟨i % users, List.mem_range.mpr (by omega), ?_⟩
    rw [ringEdge, Nat.mod_add_mod]

/-- As many follows as are asked for, or one by each user where that is fewer. -/
theorem length_followEdges (users follows : Nat) :
    (followEdges users follows).length = min users follows := by
  rw [(followEdges_perm users follows).length_eq, List.length_map, List.length_range]

/-- No follow is there twice, as no two of them are by the same user. -/
theorem nodup_followEdges (users follows : Nat) : (followEdges users follows).Nodup := by
  rw [(followEdges_perm users follows).nodup_iff]
  exact List.Nodup.map (fun i j h => userId_injective (congrArg Prod.fst h)) List.nodup_range

/-- The number after another, and after the last one the first. -/
theorem succ_mod_eq {i : Nat} (hi : i < users) :
    (i + 1) % users = if i + 1 = users then 0 else i + 1 := by
  split
  · rename_i hlast
    rw [hlast, Nat.mod_self]
  · exact Nat.mod_eq_of_lt (by omega)

/-- No two edges have the same follower, or the same followed user. -/
theorem edge_unique (hedge : edge ∈ followEdges users follows)
    (hother : other ∈ followEdges users follows) (h : edge.1 = other.1 ∨ edge.2 = other.2) :
    edge = other := by
  rw [(followEdges_perm users follows).mem_iff] at hedge hother
  obtain ⟨i, hi, rfl⟩ := List.mem_map.mp hedge
  obtain ⟨j, hj, rfl⟩ := List.mem_map.mp hother
  have hilt := List.mem_range.mp hi
  have hjlt := List.mem_range.mp hj
  rcases h with hfollower | hfollowed
  · rw [userId_injective hfollower]
  · have hnext : (i + 1) % users = (j + 1) % users := userId_injective hfollowed
    rw [succ_mod_eq (by omega), succ_mod_eq (by omega)] at hnext
    have hsame : i = j := by
      split at hnext <;> split at hnext <;> omega
    rw [hsame]

/-! ### What is seeded -/

/-- The document of a user, by its number. -/
def userEntry (i : Nat) : String × Json :=
  (userId i, .obj [("_id", .str (userId i)), ("name", .str s!"user-{i}")])

/-- The commands that seed a user, and its timeline where there are timelines. -/
def userCommands (timelines : Bool) (i : Nat) : List Command :=
  ⟨"users", .insertOne (userEntry i).2⟩
    :: (if timelines then [⟨"timelines", .insertOne (timelineEntry (userId i, [])).2⟩] else [])

/-- All commands that seed a network: the users, their timelines if they have any, and
the follows. -/
def seedCommands (users follows : Nat) (timelines : Bool) : List Command :=
  (List.range users).flatMap (userCommands timelines)
    ++ (followEdges users follows).map fun edge => ⟨"follows", .insertOne (followEntry edge).2⟩

/-- This is what the workload asks a document store to run in one transaction. -/
theorem seed_document (users follows : Nat) (timelines : Bool) :
    document.seed users follows timelines
      = (seedCommands users follows timelines).map .document := by
  have huser (i : Nat) : document.insertUser (userId i) s!"user-{i}"
      = .document ⟨"users", .insertOne (userEntry i).2⟩ := by
    simp only [document, Statement.insert, Statement.on, Json.object, Fields.ofList,
      List.foldl_cons, List.foldl_nil, Fields.insert, String.reduceLT, if_false, userEntry,
      String.reduceEq]
  have htimeline (i : Nat) : document.insertTimeline (userId i)
      = .document ⟨"timelines", .insertOne (timelineEntry (userId i, [])).2⟩ := by
    simp only [document, Statement.insert, Statement.on, Json.object, Fields.ofList,
      List.foldl_cons, List.foldl_nil, Fields.insert, String.reduceLT, String.reduceEq, if_true,
      if_false, timelineEntry, List.map_nil]
  have hnone : document.createSchema timelines = [] := rfl
  simp only [seed, hnone, seedCommands, userCommands, huser, htimeline, insertFollow_document,
    List.nil_append, List.map_append, List.map_flatMap, List.map_map, List.map_cons]
  cases timelines <;> rfl

/-- What is inserted into one collection, user by user and then edge by edge. -/
theorem inserted_seedCommands (users follows : Nat) (timelines : Bool) (name : String) :
    (seedCommands users follows timelines).filterMap (Command.inserted? name)
      = ((List.range users).flatMap fun i =>
          (userCommands timelines i).filterMap (Command.inserted? name))
        ++ (followEdges users follows).filterMap fun edge =>
          Command.inserted? name ⟨"follows", .insertOne (followEntry edge).2⟩ := by
  rw [seedCommands, List.filterMap_append, List.filterMap_flatMap, List.filterMap_map]
  rfl

/-- The timelines of a network that is seeded with them, or without. -/
def emptyTimelines (users : Nat) (timelines : Bool) : List (String × List String) :=
  if timelines then (List.range users).map fun i => (userId i, []) else []

/-- Into the users go all users, and nothing else of the batch. -/
theorem inserted_users (users follows : Nat) (timelines : Bool) :
    (seedCommands users follows timelines).filterMap (Command.inserted? "users")
      = (List.range users).map fun i => (userEntry i).2 := by
  have huser (i : Nat) :
      (userCommands timelines i).filterMap (Command.inserted? "users") = [(userEntry i).2] := by
    cases timelines <;> rfl
  have hfollows : ((followEdges users follows).filterMap fun edge =>
      Command.inserted? "users" ⟨"follows", .insertOne (followEntry edge).2⟩) = [] :=
    List.filterMap_none _
  rw [inserted_seedCommands, hfollows, List.append_nil, List.map_eq_flatMap]
  simp only [huser]

/-- Into the timelines goes an empty one for each user, or nothing where timelines are
not kept. -/
theorem inserted_timelines (users follows : Nat) (timelines : Bool) :
    (seedCommands users follows timelines).filterMap (Command.inserted? "timelines")
      = (emptyTimelines users timelines).map fun line => (timelineEntry line).2 := by
  have hfollows : ((followEdges users follows).filterMap fun edge =>
      Command.inserted? "timelines" ⟨"follows", .insertOne (followEntry edge).2⟩) = [] :=
    List.filterMap_none _
  rw [inserted_seedCommands, hfollows, List.append_nil]
  cases timelines with
  | false => exact List.flatMap_eq_nil_iff.mpr fun _ _ => rfl
  | true =>
      rw [emptyTimelines, if_pos rfl, List.map_map, List.map_eq_flatMap]
      rfl

/-- Into the follows go the edges of the graph. -/
theorem inserted_follows (users follows : Nat) (timelines : Bool) :
    (seedCommands users follows timelines).filterMap (Command.inserted? "follows")
      = (followEdges users follows).map fun edge => (followEntry edge).2 := by
  have husers : ((List.range users).flatMap fun i =>
      (userCommands timelines i).filterMap (Command.inserted? "follows")) = [] := by
    refine List.flatMap_eq_nil_iff.mpr fun i _ => ?_
    cases timelines <;> rfl
  rw [inserted_seedCommands, husers, List.nil_append]
  exact congrFun List.filterMap_eq_map' _

/-! ### The batch -/

/-- The documents of a seeded network: its users, a timeline for each where there are
timelines, its follows, and no post. -/
structure Holds (users follows : Nat) (timelines : Bool) (docs : Contents) : Prop where
  userDocs : (docs "users").Records userEntry (List.range users)
  timelineDocs : (docs "timelines").Records timelineEntry (emptyTimelines users timelines)
  followDocs : (docs "follows").Records followEntry (followEdges users follows)
  noPosts : docs "posts" = ∅

/-- The places of the commands are those of users, timelines and follows. -/
theorem places_seedCommands (users follows : Nat) (timelines : Bool) :
    (seedCommands users follows timelines).map Command.place?
      = (seedPlaces users follows timelines).map some := by
  obtain ⟨commands, hcommands, hplaces⟩ := insertsAt_seed users follows timelines
  obtain rfl : seedCommands users follows timelines = commands := by
    refine List.map_injective_iff.mpr (fun a b h => Statement.document.inj h) ?_
    rw [← seed_document, hcommands]
  exact hplaces

/-- What these commands insert into empty collections is a seeded network. -/
theorem holds_of_inserted {timelines : Bool} {before after : Contents}
    (hempty : ∀ table ∈ tables, before table = ∅)
    (hinserted : ∀ name, (before name).insertAll name
      ((seedCommands users follows timelines).filterMap (Command.inserted? name))
        = .ok (after name)) : Holds users follows timelines after where
  userDocs := Documents.records_of_insertAll (hempty "users" (by decide)) (hinserted "users")
    (inserted_users users follows timelines) fun _ => rfl
  timelineDocs := Documents.records_of_insertAll (hempty "timelines" (by decide))
    (hinserted "timelines") (inserted_timelines users follows timelines) fun _ => rfl
  followDocs := Documents.records_of_insertAll (hempty "follows" (by decide))
    (hinserted "follows") (inserted_follows users follows timelines) fun _ => rfl
  noPosts := by
    have hnone := Command.inserted_eq_nil (places_seedCommands users follows timelines)
      fun place hplace => (collection_of_seedPlaces hplace).2
    have hafter := hinserted "posts"
    rw [hnone, hempty "posts" (by decide)] at hafter
    exact (Except.ok.inj hafter).symm

/-- A network can be seeded where its collections are empty, with any number of users
and follows. -/
theorem site_run_seed {w : World Server} (hconnected : w.driver.connected = true)
    (hfaults : w.driver.faults = [])
    (hempty : ∀ table ∈ tables, w.driver.store.docs table = ∅) (users follows : Nat)
    (timelines : Bool) :
    ∃ after, World.site.run w (Task.execAll (document.seed users follows timelines)).run
        = (after, .ok ()) ∧
      Holds users follows timelines after.driver.store.docs := by
  obtain ⟨after, hrun, hinserted⟩ := site_run_inserted hconnected hfaults
    (places_seedCommands users follows timelines) (nodup_seedPlaces users follows timelines)
    fun place hplace => by
      rw [hempty place.1 (collection_of_seedPlaces hplace).1]
      exact Std.ExtTreeMap.contains_empty
  rw [← seed_document] at hrun
  exact ⟨after, hrun, holds_of_inserted hempty hinserted⟩

/-- Where a network of at least one user is seeded with success, whatever faults there
are and however the store came about, its empty collections hold the network then. -/
theorem holds_of_seed {w after : World Server} (hsound : w.driver.store.Sound)
    (hempty : ∀ table ∈ tables, w.driver.store.docs table = ∅) (hpos : 1 ≤ users)
    {timelines : Bool}
    (h : World.site.run w (Task.execAll (document.seed users follows timelines)).run
      = (after, .ok ())) :
    after.driver.connected = true ∧ after.driver.store.Sound ∧
      Holds users follows timelines after.driver.store.docs := by
  have hplaces := places_seedCommands users follows timelines
  have hne : seedCommands users follows timelines ≠ [] := by
    -- There is at least one user.
    intro hnil
    have husers := inserted_users users follows timelines
    rw [hnil] at husers
    have hlength := congrArg List.length husers
    simp only [List.filterMap_nil, List.length_nil, List.length_map, List.length_range] at hlength
    omega
  rw [seed_document] at h
  obtain ⟨hconnected, hstore, deeds, hdeeds, hexplains, hrun⟩ := site_run_commands hne (by
    intro command hcommand fresh
    obtain ⟨place, -, hplace⟩ := Command.exists_place hplaces hcommand
    exact Command.identified_of_place? hplace fresh) hsound h
  refine ⟨hconnected, hstore, holds_of_inserted hempty fun name => ?_⟩
  rw [← hrun, ← hdeeds]
  refine hexplains.insertAll (fun deed hdeed => ?_) name
  have hcommand : deed.command ∈ seedCommands users follows timelines :=
    hdeeds ▸ List.mem_map_of_mem hdeed
  obtain ⟨place, -, hplace⟩ := Command.exists_place hplaces hcommand
  exact ⟨place, hplace⟩

/-- Seeding a network of at least one user is complete and never refused. Its ring has
one edge for each follow that is asked for, up to the number of users, in which
nobody follows two users or has two followers. The batch succeeds where the
collections of the network are empty, and leaves exactly the users, an empty timeline
for each where there are timelines, and those edges.

The store is connected and no faults are queued. -/
theorem seed_complete {w : World Server} (hconnected : w.driver.connected = true)
    (hfaults : w.driver.faults = [])
    (hempty : ∀ table ∈ tables, w.driver.store.docs table = ∅) {users : Nat} (hpos : 1 ≤ users)
    (follows : Nat) (timelines : Bool) :
    (followEdges users follows).length = min users follows ∧
      (followEdges users follows).Nodup ∧
      (∀ edge, edge ∈ followEdges users follows ↔
        ∃ i < follows, edge = (userId (i % users), userId ((i + 1) % users))) ∧
      (∀ edge ∈ followEdges users follows, ∀ other ∈ followEdges users follows,
        edge.1 = other.1 ∨ edge.2 = other.2 → edge = other) ∧
      ∃ after, World.site.run w (Task.execAll (document.seed users follows timelines)).run
          = (after, .ok ()) ∧
        Holds users follows timelines after.driver.store.docs :=
  ⟨length_followEdges users follows, nodup_followEdges users follows,
    fun _ => mem_followEdges hpos, fun _ hedge _ hother h => edge_unique hedge hother h,
    site_run_seed hconnected hfaults hempty users follows timelines⟩

/-- Three users, of whom each follows the next one, when five follows are asked for and
the ring is gone round. One user follows itself, once, however many are asked for. -/
theorem seed_complete_rings :
    (desk.driver.connected = true ∧ desk.driver.faults = [] ∧
      (∀ table ∈ tables, desk.driver.store.docs table = ∅) ∧ 1 ≤ 3 ∧ 1 ≤ 1) ∧
    ((followEdges 3 5).length = 3 ∧
      (∀ edge ∈ [("user0", "user1"), ("user1", "user2"), ("user2", "user0")],
        edge ∈ followEdges 3 5) ∧
      ∃ after, World.site.run desk (Task.execAll (document.seed 3 5 true)).run = (after, .ok ()) ∧
        Holds 3 5 true after.driver.store.docs ∧ after.driver.documentCount "users" = 3 ∧
        after.driver.documentCount "timelines" = 3 ∧ after.driver.documentCount "follows" = 3) ∧
    (followEdges 1 7).length = 1 ∧ ("user0", "user0") ∈ followEdges 1 7 ∧
    ∃ after, World.site.run desk (Task.execAll (document.seed 1 7 true)).run = (after, .ok ()) ∧
      Holds 1 7 true after.driver.store.docs := by
  have hempty : ∀ table ∈ tables, desk.driver.store.docs table = ∅ := fun table htable =>
    docs_desk (by rintro rfl; exact absurd htable (by decide))
  obtain ⟨hlength, -, hmem, -, after, hrun, hholds⟩ := seed_complete rfl rfl hempty
    (by decide : 1 ≤ 3) 5 true
  obtain ⟨hone, -, hloop, -, hlooped⟩ := seed_complete rfl rfl hempty (Nat.le_refl 1) 7 true
  refine ⟨⟨rfl, rfl, hempty, by decide, Nat.le_refl 1⟩, ⟨hlength, ?_, after, hrun, hholds,
    hholds.userDocs.size_eq, hholds.timelineDocs.size_eq, hholds.followDocs.size_eq.trans hlength⟩,
    hone, (hloop _).mpr ⟨0, by decide, rfl⟩, hlooped⟩
  intro edge hedge
  simp only [List.mem_cons, List.not_mem_nil, or_false] at hedge
  -- The last user's edge leads back to the first one.
  rcases hedge with rfl | rfl | rfl
  · exact (hmem _).mpr ⟨0, by decide, rfl⟩
  · exact (hmem _).mpr ⟨1, by decide, rfl⟩
  · exact (hmem _).mpr ⟨2, by decide, rfl⟩

end StoreBench.Scenario.Network
