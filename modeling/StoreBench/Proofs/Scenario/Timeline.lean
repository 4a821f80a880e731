import StoreBench.Proofs.Document.Records
import StoreBench.Proofs.Scenario.Product
import StoreBench.Scenario.Feed

/-!
# `StoreBench.Proofs.Scenario.Timeline`: posts that go to timelines

A network of users in a ring holds follows, posts and timelines, each in a
collection of documents of one form. `Fanned` says that they agree: the timeline
of each user holds the posts of those whom the user follows, each once.

To publish a post is to insert it and to append it to the timeline of every
follower that was read in between. One such append changes one timeline
(`records_deliver`), and all of them together those of the followers
(`deliver_run`), so what is published leads on from `Fanned` to `Fanned`
(`Fanned.publish`).
-/

set_option autoImplicit false

namespace StoreBench.Scenario

/-! ### The ring of users -/

namespace Network

/-- What is among the edges after an insertion is the new one or was there before. -/
theorem mem_insertEdge {edge other : String × String} {edges : List (String × String)}
    (h : edge ∈ insertEdge other edges) : edge = other ∨ edge ∈ edges := by
  induction edges with
  | nil => exact .inl (List.mem_singleton.mp h)
  | cons first rest ih =>
      simp only [insertEdge] at h
      split at h
      · exact List.mem_cons.mp h
      · split at h
        · exact .inr h
        · rcases List.mem_cons.mp h with rfl | hrest
          · exact .inr List.mem_cons_self
          · exact (ih hrest).imp_right (List.mem_cons_of_mem _)

/-- Who follows somebody is a user, so that there is a timeline to deliver to. -/
theorem follower_mem {users follows : Nat} {edge : String × String}
    (h : edge ∈ followEdges users follows) : edge.1 ∈ (List.range users).map userId := by
  have hfold (steps : List Nat) (edges : List (String × String))
      (hsteps : ∀ i ∈ steps, i < users)
      (hedges : ∀ e ∈ edges, e.1 ∈ (List.range users).map userId) :
      ∀ e ∈ steps.foldl
          (fun edges i => insertEdge (userId i, userId ((i + 1) % users)) edges) edges,
        e.1 ∈ (List.range users).map userId := by
    induction steps generalizing edges with
    | nil => exact hedges
    | cons i rest ih =>
        refine ih _ (fun j hj => hsteps j (List.mem_cons_of_mem _ hj)) ?_
        intro e he
        rcases mem_insertEdge he with rfl | he
        · exact List.mem_map_of_mem (List.mem_range.mpr (hsteps i List.mem_cons_self))
        · exact hedges e he
  unfold followEdges at h
  split at h
  · cases h
  · refine hfold _ [] ?_ nofun edge h
    intro i hi
    have hlt := List.mem_range.mp hi
    omega

end Network

namespace Feed

open Network (userId)

/-! ### The documents -/

/-- A post that is stored, with its author and its time. Its content does not matter to
timelines. -/
structure Post where
  id : String
  author : String
  time : Instant

/-- A post as a document, under the key of its identity. -/
def Post.entry (p : Post) : String × Json :=
  (p.id, .obj [("_id", .str p.id), ("content", .str content), ("created_at", .ofInstant p.time),
    ("user_id", .str p.author)])

/-- A follow, by its follower and its followed user, under a key made of both. -/
def followEntry (edge : String × String) : String × Json :=
  (s!"{edge.1}->{edge.2}", .obj [("_id", .str s!"{edge.1}->{edge.2}"),
    ("followee_id", .str edge.2), ("follower_id", .str edge.1)])

/-- A post is inserted with its fields in the order of their names. -/
theorem insertPost_document (id author text : String) (time : Instant) :
    Network.document.insertPost id author text time
      = .document ⟨"posts", .insertOne (.obj [("_id", .str id), ("content", .str text),
          ("created_at", .ofInstant time), ("user_id", .str author)])⟩ := by
  simp only [Network.document, Statement.insert, Statement.on, Json.object, Fields.ofList,
    List.foldl_cons, List.foldl_nil, Fields.insert, String.reduceLT, String.reduceEq, if_true,
    if_false]

/-- A follow is inserted as a document, under the key of its two users. -/
theorem insertFollow_document (edge : String × String) :
    Network.document.insertFollow edge.1 edge.2
      = .document ⟨"follows", .insertOne (followEntry edge).2⟩ := by
  simp only [Network.document, Statement.insert, Statement.on, Json.object, Fields.ofList,
    List.foldl_cons, List.foldl_nil, Fields.insert, String.reduceLT, String.reduceEq, if_true,
    if_false, followEntry]

/-- A timeline, by whose it is and the posts on it. -/
def timelineEntry (line : String × List String) : String × Json :=
  (line.1, .obj [("_id", .str line.1), ("post_ids", .arr (line.2.map Json.str)),
    ("user_id", .str line.1)])

/-- What finds the followers of a user, who are to have the post in their timelines. -/
def followersCommand (user : String) : Command := ⟨"follows", .find (.eq "followee_id" (.str user))⟩

/-- What appends a post to the timeline of a user. -/
def appendCommand (user post : String) : Command :=
  ⟨"timelines", .updateOne (.eq "user_id" (.str user)) [.push "post_ids" (.str post)]⟩

/-- Texts are equal to a filter when they are the same. -/
theorem equals_str (s t : String) : (Json.str s).equals (.str t) = decide (s = t) := by
  show (compare s t == .eq) = decide (s = t)
  rw [Bool.eq_iff_iff, beq_iff_eq, decide_eq_true_iff, Std.compare_eq_iff_eq]

/-- A text in a field is found by that text. -/
theorem selects_eq_str {doc : Json} {field s : String} (h : doc.lookup field = some (.str s))
    (t : String) : (Filter.eq field (.str t)).selects doc = decide (s = t) := by
  simp only [Filter.eq, Filter.selects, List.all_cons, List.all_nil, Bool.and_true, h,
    Predicate.holds, equals_str]

/-- A text in a field is found by a condition on several texts that has it among them. -/
theorem selects_isIn_str {doc : Json} {field s : String} (h : doc.lookup field = some (.str s))
    (choices : List String) :
    Filter.selects [(field, .isIn (choices.map Json.str))] doc = decide (s ∈ choices) := by
  simp only [Filter.selects, List.all_cons, List.all_nil, Bool.and_true, h, Predicate.holds,
    List.any_map]
  rw [Bool.eq_iff_iff, List.any_eq_true, decide_eq_true_iff]
  simp only [Function.comp_apply, equals_str, decide_eq_true_iff, exists_eq_right']

/-- The filter for a user selects the timelines of this user. -/
theorem selects_timeline (line : String × List String) (user : String) :
    (Filter.eq "user_id" (.str user)).selects (timelineEntry line).2 = decide (line.1 = user) :=
  selects_eq_str rfl user

/-- The filter for a user selects the follows of those who follow this user. -/
theorem selects_follow (edge : String × String) (user : String) :
    (Filter.eq "followee_id" (.str user)).selects (followEntry edge).2 = decide (edge.2 = user) :=
  selects_eq_str rfl user

/-! ### Delivering a post -/

/-- A timeline after a post went to the timelines of these users. -/
def deliver (post : String) (users : List String) (line : String × List String) :
    String × List String :=
  if line.1 ∈ users then (line.1, line.2 ++ [post]) else line

variable {docs : Documents} {c : Contents} {lines : List (String × List String)}
  {user post : String}

/-- A timeline to which a post was delivered is of the same user as before. -/
theorem deliver_fst (post : String) (users : List String) (line : String × List String) :
    (deliver post users line).1 = line.1 := by
  unfold deliver
  split <;> rfl

/-- Delivering a post leaves the users of timelines as they are. -/
theorem map_fst_deliver (post : String) (users : List String)
    (lines : List (String × List String)) :
    (lines.map (deliver post users)).map Prod.fst = lines.map Prod.fst := by
  rw [List.map_map]
  exact List.map_congr_left fun line _ => deliver_fst post users line

/-- The timeline of a user is changed by appending to it. -/
theorem edit_timeline (line : String × List String) (post : String) :
    Update.edit [.push "post_ids" (.str post)] (timelineEntry line).2
      = ((timelineEntry (line.1, line.2 ++ [post])).2, .ok ()) := by
  have hpushed : line.2.map Json.str ++ [.str post] = (line.2 ++ [post]).map Json.str := by
    rw [List.map_append]
    rfl
  show (Json.obj [("_id", .str line.1), ("post_ids", .arr (line.2.map Json.str ++ [.str post])),
    ("user_id", .str line.1)], Except.ok ()) = _
  rw [hpushed]
  rfl

/-- Appending a post to the timeline of a user delivers it there. -/
theorem records_deliver (h : docs.Records timelineEntry lines) (huser : user ∈ lines.map Prod.fst) :
    (docs.apply "timelines" (appendCommand user post).action).1.Records timelineEntry
      (lines.map (deliver post [user])) := by
  obtain ⟨line, hline, rfl⟩ := List.mem_map.mp huser
  have hstored := (h.mem_iff line.1 (timelineEntry line).2).mpr ⟨line, hline, rfl⟩
  -- There is one timeline of that user.
  have hmatching : docs.matching (.eq "user_id" (.str line.1)) = [timelineEntry line] := by
    refine Documents.matching_eq_singleton hstored ?_ ?_
    · exact (selects_timeline line line.1).trans (decide_eq_true rfl)
    · intro other found hfound hselects
      obtain ⟨r, -, hr⟩ := (h.mem_iff other found).mp hfound
      obtain ⟨rfl, rfl⟩ := Prod.mk.inj hr
      exact of_decide_eq_true ((selects_timeline r line.1).symm.trans hselects)
  have hdelivered : deliver post [line.1] line = (line.1, line.2 ++ [post]) :=
    if_pos List.mem_cons_self
  have happly : (docs.apply "timelines" (appendCommand line.1 post).action).1
      = docs.insert (timelineEntry line).1 (timelineEntry (deliver post [line.1] line)).2 := by
    rw [hdelivered]
    simp only [appendCommand, Documents.apply, hmatching, List.take_succ_cons, List.take_zero,
      Documents.update]
    show (Documents.editAll _ docs [((timelineEntry line).1, (timelineEntry line).2)]).1 = _
    simp only [Documents.editAll, edit_timeline]
  rw [happly]
  refine h.modify hline ?_ ?_
  · exact deliver_fst post [line.1]
  · intro r hr
    exact if_neg fun hmem => hr (List.mem_singleton.mp hmem)

/-- Two deliveries of a post to different users are one delivery to both. -/
theorem deliver_deliver {users : List String} (huser : user ∉ users)
    (line : String × List String) :
    deliver post users (deliver post [user] line) = deliver post (user :: users) line := by
  unfold deliver
  by_cases hself : line.1 = user
  · subst hself
    rw [if_pos (List.mem_singleton.mpr rfl), if_pos List.mem_cons_self]
    exact if_neg huser
  · rw [if_neg (fun hmem => hself (List.mem_singleton.mp hmem))]
    simp only [List.mem_cons, hself, false_or]

/-- Deeds that append a post to the timelines of some users deliver it to all of
them, and leave the other collections as they are. -/
theorem deliver_run {users : List String} {deeds : List Deed} (hnodup : users.Nodup)
    (husers : ∀ user ∈ users, user ∈ lines.map Prod.fst)
    (hdeeds : deeds.map Deed.command = users.map fun user => appendCommand user post)
    (h : (c "timelines").Records timelineEntry lines) :
    (c.run deeds "timelines").Records timelineEntry (lines.map (deliver post users)) ∧
      ∀ other ≠ "timelines", c.run deeds other = c other := by
  induction users generalizing c deeds lines with
  | nil =>
      obtain rfl := List.map_eq_nil_iff.mp hdeeds
      have hsame : lines.map (deliver post []) = lines :=
        (List.map_congr_left fun line _ => if_neg List.not_mem_nil).trans (List.map_id lines)
      rw [hsame]
      exact ⟨h, fun _ _ => rfl⟩
  | cons user rest ih =>
      obtain ⟨huser, hrest⟩ := List.nodup_cons.mp hnodup
      -- The first deed is the delivery to the first user, from which the rest goes on.
      match deeds, hdeeds with
      | ⟨command, seen⟩ :: deeds, hdeeds =>
          obtain ⟨rfl, hcommands⟩ := List.cons.inj hdeeds
          have hfirst : ((c "timelines").apply "timelines"
              (appendCommand user post).action).1.Records timelineEntry
                (lines.map (deliver post [user])) :=
            records_deliver h (husers user List.mem_cons_self)
          have hself : (c.perform (appendCommand user post)).1 "timelines"
              = ((c "timelines").apply "timelines" (appendCommand user post).action).1 :=
            c.perform_self _
          rw [← hself] at hfirst
          obtain ⟨htimelines, hothers⟩ := ih (c := (c.perform (appendCommand user post)).1) hrest
            (by
              intro other hother
              rw [map_fst_deliver]
              exact husers other (List.mem_cons_of_mem _ hother)) hcommands hfirst
          refine ⟨?_, ?_⟩
          · have hboth : (lines.map (deliver post [user])).map (deliver post rest)
                = lines.map (deliver post (user :: rest)) := by
              rw [List.map_map]
              exact List.map_congr_left fun line _ => deliver_deliver huser line
            rw [hboth] at htimelines
            exact htimelines
          · intro other hother
            exact (hothers other hother).trans (Contents.perform_other hother)

/-! ### Publishing -/

/-- A row of a follow and the deed that goes with it: the post is appended to the
timeline of the follower. -/
def Delivery (post : String) (row : Row) (deed : Deed) : Prop :=
  ∃ follower, row.scanNamed Value.toText "follower_id" = .ok follower ∧
    deed.command = appendCommand follower post

/-- The deeds that publish a post: it is inserted, and delivered to the followers that
were found. -/
def Published (deeds : List Deed) : Prop :=
  ∃ (p : Post) (seen : Seen) (rows : List Row) (appended : List Deed),
    List.Forall₂ (Delivery p.id) rows appended ∧
    deeds = ⟨⟨"posts", .insertOne p.entry.2⟩, seen⟩ ::
      ⟨followersCommand p.author, .rows rows⟩ :: appended

variable {users n : Nat} {posts : List Post}

/-- What is on a timeline: the posts of everyone whom its user follows. -/
def feedOf (users : Nat) (posts : List Post) (user : String) : List String :=
  (posts.filter fun p => decide ((user, p.author) ∈ Network.followEdges users follows)).map Post.id

/-- So many posts are stored, and each user has a timeline with the posts of
those whom the user follows. -/
structure Fanned (users n : Nat) (docs : Contents) (posts : List Post)
    (lines : List (String × List String)) : Prop where
  length_eq : posts.length = n
  edges : (docs "follows").Records followEntry (Network.followEdges users follows)
  stored : (docs "posts").Records Post.entry posts
  timelines : (docs "timelines").Records timelineEntry lines
  owners : (lines.map Prod.fst).Perm ((List.range users).map userId)
  exact : ∀ line ∈ lines, line.2.Perm (feedOf users posts line.1)

/-- The followers that a query finds are those of the ring, each once. -/
theorem exists_followers {docs : Documents}
    (h : docs.Records followEntry (Network.followEdges users follows)) (author : String) :
    ∃ found : List (String × String), docs.rows (followersCommand author).action
        = found.map (fun edge => (followEntry edge).2.toRow) ∧
      (found.map Prod.fst).Nodup ∧
      ∀ user, user ∈ found.map Prod.fst ↔ (user, author) ∈ Network.followEdges users follows := by
  obtain ⟨found, hperm, hrows⟩ := h.rows_find (.eq "followee_id" (.str author))
  have hmem (edge : String × String) : edge ∈ found ↔
      edge ∈ Network.followEdges users follows ∧ edge.2 = author := by
    rw [hperm.mem_iff, List.mem_filter, selects_follow, decide_eq_true_iff]
  refine ⟨found, hrows, ?_, ?_⟩
  · have hnodup : found.Nodup :=
      hperm.nodup_iff.mpr ((List.Nodup.of_map _ h.nodup).filter _)
    -- They all follow the same user, so they differ in who follows.
    refine List.Nodup.map_on ?_ hnodup
    intro edge hedge other hother hsame
    exact Prod.ext hsame (((hmem edge).mp hedge).2.trans ((hmem other).mp hother).2.symm)
  · intro user
    constructor
    · intro huser
      obtain ⟨edge, hedge, rfl⟩ := List.mem_map.mp huser
      obtain ⟨hring, rfl⟩ := (hmem edge).mp hedge
      exact hring
    · intro hring
      exact List.mem_map.mpr ⟨(user, author), (hmem _).mpr ⟨hring, rfl⟩, rfl⟩

/-- The deeds of appending go with the followers that were found. -/
theorem map_command_of_delivery {post : String} {found : List (String × String)}
    {appended : List Deed}
    (h : List.Forall₂ (Delivery post) (found.map fun edge => (followEntry edge).2.toRow) appended) :
    appended.map Deed.command = (found.map Prod.fst).map fun user => appendCommand user post := by
  induction found generalizing appended with
  | nil =>
      cases h
      rfl
  | cons edge rest ih =>
      cases h with
      | cons hfirst hrest =>
          obtain ⟨follower, hscan, hcommand⟩ := hfirst
          have hfollower : (followEntry edge).2.toRow.scanNamed Value.toText "follower_id"
              = .ok edge.1 := rfl
          obtain rfl := Except.ok.inj (hfollower.symm.trans hscan)
          rw [List.map_cons, hcommand, ih hrest]
          rfl

/-- Deeds that read the followers of a user and append to their timelines deliver
a post to all of them. -/
theorem deliver_followers {author post : String} {rows : List Row} {appended : List Deed}
    (hedges : (c "follows").Records followEntry (Network.followEdges users follows))
    (htimelines : (c "timelines").Records timelineEntry lines)
    (howners : (lines.map Prod.fst).Perm ((List.range users).map userId))
    (hshows : c.Shows ⟨followersCommand author, .rows rows⟩)
    (hdelivered : List.Forall₂ (Delivery post) rows appended) :
    ∃ followers : List String,
      (∀ user, user ∈ followers ↔ (user, author) ∈ Network.followEdges users follows) ∧
      (c.run (⟨followersCommand author, .rows rows⟩ :: appended) "timelines").Records timelineEntry
        (lines.map (deliver post followers)) ∧
      ∀ other ≠ "timelines",
        c.run (⟨followersCommand author, .rows rows⟩ :: appended) other = c other := by
  obtain ⟨found, hrows, hnodup, hfollowers⟩ := exists_followers hedges author
  obtain ⟨outcome, hok, hseen⟩ := hshows
  have hread : (c.perform (followersCommand author)).2
      = .ok ((c "follows").read (followersCommand author).action) :=
    congrArg Prod.snd (Documents.apply_of_isRead "follows" (c "follows")
      (show (followersCommand author).action.isRead = true from rfl))
  have hrows' : found.map (fun edge => (followEntry edge).2.toRow) = rows := by
    rw [← hrows, ← hseen, ← Except.ok.inj (hread.symm.trans hok)]
    rfl
  rw [← hrows'] at hdelivered
  -- The query changes nothing, so the appending begins where it did.
  have hrun : c.run (⟨followersCommand author, .rows rows⟩ :: appended) = c.run appended :=
    congrArg (fun after => Contents.run after appended) (c.perform_of_isRead rfl)
  rw [hrun]
  refine ⟨found.map Prod.fst, hfollowers, deliver_run hnodup ?_
    (map_command_of_delivery hdelivered) htimelines⟩
  intro user huser
  rw [howners.mem_iff]
  exact Network.follower_mem ((hfollowers user).mp huser)

/-- A timeline after a post of somebody is what its user follows, with the post. -/
theorem deliver_exact {followers : List String} {p : Post}
    (hfollowers : ∀ user, user ∈ followers ↔
      (user, p.author) ∈ Network.followEdges users follows)
    {line : String × List String} (h : line.2.Perm (feedOf users posts line.1)) :
    (deliver p.id followers line).2.Perm
      (feedOf users (p :: posts) (deliver p.id followers line).1) := by
  unfold deliver
  by_cases hfollows : line.1 ∈ followers
  · rw [if_pos hfollows]
    have hnew : feedOf users (p :: posts) line.1 = p.id :: feedOf users posts line.1 := by
      have hring := decide_eq_true ((hfollowers line.1).mp hfollows)
      simp only [feedOf, List.filter_cons, hring, if_true, List.map_cons]
    rw [hnew]
    exact List.perm_append_singleton p.id line.2 |>.trans (h.cons p.id)
  · rw [if_neg hfollows]
    have hsame : feedOf users (p :: posts) line.1 = feedOf users posts line.1 := by
      have hring := decide_eq_false fun hmem => hfollows ((hfollowers line.1).mpr hmem)
      simp only [feedOf, List.filter_cons, hring, Bool.false_eq_true, if_false]
    rw [hsame]
    exact h

/-- One post more that is published, and every timeline is exact again. -/
theorem Fanned.publish (h : Fanned users n c posts lines) {deeds : List Deed}
    (hpublished : Published deeds) (hexplains : c.Explains deeds) :
    ∃ posts lines, Fanned users (n + 1) (c.run deeds) posts lines := by
  obtain ⟨p, seen, rows, appended, hdelivered, rfl⟩ := hpublished
  obtain ⟨hinsert, hquery, -⟩ := hexplains
  have hstored := hinsert.records_insertOne h.stored rfl
  obtain ⟨followers, hfollowers, htimelines, hothers⟩ :=
    deliver_followers (c := (c.perform ⟨"posts", .insertOne p.entry.2⟩).1) h.edges h.timelines
      h.owners hquery hdelivered
  refine ⟨p :: posts, lines.map (deliver p.id followers), congrArg (· + 1) h.length_eq, ?_, ?_,
    htimelines, ?_, ?_⟩
  · have hsame := hothers "follows" (by decide)
    exact hsame ▸ h.edges
  · have hsame := hothers "posts" (by decide)
    exact hsame ▸ hstored
  · rw [map_fst_deliver]
    exact h.owners
  · intro line hline
    obtain ⟨before, hbefore, rfl⟩ := List.mem_map.mp hline
    exact deliver_exact hfollowers (h.exact before hbefore)

end Feed

end StoreBench.Scenario
