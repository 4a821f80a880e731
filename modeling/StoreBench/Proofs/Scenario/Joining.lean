import Mathlib.Data.Fin.VecNotation
import StoreBench.Proofs.Document.Kinds
import StoreBench.Proofs.Scenario.Check
import StoreBench.Proofs.Scenario.Timeline
import StoreBench.Proofs.Sql.Select

/-!
# `StoreBench.Proofs.Scenario.Joining`: a feed that is made when it is read

A feed is a join: of every post and every follow, those pairs in which the reader
follows the author of the post (`joined`). A SQL store is asked for it in one
statement. A document store is asked for the followed users first and for the posts of
these users then.

Both come to the same. The second way finds the posts of `joined`, each as often as it
is there, in any store that clients have filled with follows and posts (`feed_document`).
The first way finds them in a database that has the same follows and posts in its
tables (`feed_sql`). `feed_joins` puts the two side by side.
-/

set_option autoImplicit false

namespace StoreBench.Scenario.Feed

/-! ### The join -/

/-- A post as it was written: by whom, what, and when. -/
structure Written where
  id : String
  author : String
  content : String
  time : Instant

/-- The posts of everyone whom a reader follows: each post beside each follow, as far
as the two go together. -/
def joined (edges : List (String × String)) (posts : List Written) (reader : String) :
    List Written :=
  ((posts ×ˢ edges).filter fun pair =>
    decide (pair.2.1 = reader) && decide (pair.1.author = pair.2.2)).map Prod.fst

variable {edges : List (String × String)} {posts : List Written} {reader : String}

/-- Where no follow is there twice, at most one joins a post to a reader. -/
theorem filter_follows (h : edges.Nodup) (reader author : String) :
    (edges.filter fun edge => decide (edge.1 = reader) && decide (author = edge.2))
      = if (reader, author) ∈ edges then [(reader, author)] else [] := by
  have hsame : (fun edge : String × String =>
      decide (edge.1 = reader) && decide (author = edge.2))
        = fun edge => edge == (reader, author) := by
    funext edge
    rw [Bool.eq_iff_iff, Bool.and_eq_true, decide_eq_true_iff, decide_eq_true_iff, beq_iff_eq,
      Prod.ext_iff]
    exact and_congr_right fun _ => eq_comm
  rw [hsame, List.filter_beq, h.count]
  split <;> rfl

/-- So the join has the posts of the followed users. -/
theorem joined_eq_filter (h : edges.Nodup) (posts : List Written) (reader : String) :
    joined edges posts reader = posts.filter fun p => decide ((reader, p.author) ∈ edges) := by
  unfold joined
  induction posts with
  | nil => rfl
  | cons p rest ih =>
      -- The pairs of this post come first.
      have hfirst : (edges.filter ((fun pair : Written × String × String =>
          decide (pair.2.1 = reader) && decide (pair.1.author = pair.2.2)) ∘ fun edge => (p, edge)))
            = if (reader, p.author) ∈ edges then [(reader, p.author)] else [] :=
        filter_follows h reader p.author
      rw [List.product_cons, List.filter_append, List.map_append, ih, List.filter_map, List.map_map,
        hfirst]
      by_cases hmem : (reader, p.author) ∈ edges
      · simp [hmem]
      · simp [hmem]

/-- The order of follows and posts does not matter. -/
theorem joined_perm {edges' : List (String × String)} {posts' : List Written}
    (hedges : edges'.Perm edges) (hposts : posts'.Perm posts) (reader : String) :
    (joined edges' posts' reader).Perm (joined edges posts reader) :=
  ((hposts.product hedges).filter _).map _

/-- The posts of the join are those of whom the reader follows, which is what a feed is. -/
theorem mem_joined {p : Written} :
    p ∈ joined edges posts reader ↔ p ∈ posts ∧ (reader, p.author) ∈ edges := by
  simp only [joined, List.mem_map, List.mem_filter, List.mem_product, Prod.exists,
    Bool.and_eq_true, decide_eq_true_iff, exists_and_right, exists_eq_right]
  constructor
  · rintro ⟨follower, followee, ⟨hp, hedge⟩, rfl, rfl⟩
    exact ⟨hp, hedge⟩
  · rintro ⟨hp, hedge⟩
    exact ⟨reader, p.author, ⟨hp, hedge⟩, rfl, rfl⟩

/-! ### In a document store -/

/-- A post as a document, under the key of its identity. -/
def Written.entry (p : Written) : String × Json :=
  (p.id, .obj [("_id", .str p.id), ("content", .str p.content),
    ("created_at", .ofInstant p.time), ("user_id", .str p.author)])

variable {w : World Server}

/-- A document store finds the feed in two steps. -/
theorem feed_document (hconnected : w.driver.connected = true)
    (hedges : (w.driver.store.docs "follows").Records followEntry edges)
    (hposts : (w.driver.store.docs "posts").Records Written.entry posts) (reader : String) :
    ∃ rows, (World.site.run w (feed .document reader).run).2 = .ok rows ∧
      rows.Perm ((joined edges posts reader).map fun p => p.entry.2.toRow) := by
  -- The first query finds those whom the reader follows.
  obtain ⟨followed, hfollowed, hfirst⟩ := hedges.rows_find (.eq "follower_id" (.str reader))
  have hread : readFollowees ((w.driver.store.docs "follows").rows
      (.find (.eq "follower_id" (.str reader)))) = .ok (followed.map Prod.snd) := by
    rw [hfirst]
    refine mapM_map_ok followed fun edge _ => ?_
    rfl
  have hmem (author : String) : author ∈ followed.map Prod.snd ↔ (reader, author) ∈ edges := by
    have hselects (edge : String × String) :
        (Filter.eq "follower_id" (.str reader)).selects (followEntry edge).2
          = decide (edge.1 = reader) := selects_eq_str rfl reader
    simp only [List.mem_map, hfollowed.mem_iff, List.mem_filter, hselects, decide_eq_true_iff,
      Prod.exists, exists_eq_right]
  -- The second query finds their posts.
  obtain ⟨found, hfound, hsecond⟩ :=
    hposts.rows_find [("user_id", .isIn ((followed.map Prod.snd).map Json.str))]
  have hperm : found.Perm (joined edges posts reader) := by
    rw [joined_eq_filter (List.Nodup.of_map _ hedges.nodup)]
    have hsame : (fun p : Written =>
        Filter.selects [("user_id", .isIn ((followed.map Prod.snd).map Json.str))] p.entry.2)
          = fun p => decide ((reader, p.author) ∈ edges) := by
      funext p
      rw [selects_isIn_str (show p.entry.2.lookup "user_id" = some (.str p.author) from rfl)]
      exact decide_eq_decide.mpr (hmem p.author)
    rwa [hsame] at hfound
  refine ⟨_, World.Finds.result ?_, hperm.map _⟩
  show w.Finds (Task.query (Network.document.followeesOf reader) >>= fun rows =>
    liftM (readFollowees rows) >>= fun followees =>
      Task.query (Network.document.postsBy followees)).run _
  refine .query hconnected rfl (.lift hread ?_)
  rw [← bind_pure (Task.query _)]
  refine .query hconnected rfl ?_
  rw [hsecond]
  exact .done w _

/-! ### In a SQL store -/

open Sql (Bound Cell Expr Instruction Table)

/-- A post as a row of its table, its time as text. -/
def Written.cells (p : Written) : List Cell :=
  [.text p.id, .text p.author, .text p.content, .text p.time.microText]

/-- A follow as a row of its table, the follower first. -/
def followCells (edge : String × String) : List Cell := [.text edge.1, .text edge.2]

/-- The tables of a database hold these follows and posts, in columns of texts. -/
structure Tabled (d : Sql.Database) (edges : List (String × String)) (posts : List Written) :
    Prop where
  follows : ∃ t : Table, d.table "follows" = .ok t ∧ t.OfTexts ["follower_id", "followee_id"] ∧
    t.rows.values.Perm (edges.map followCells)
  posts : ∃ t : Table, d.table "posts" = .ok t ∧
    t.OfTexts ["id", "user_id", "content", "created_at"] ∧
    t.rows.values.Perm (posts.map Written.cells)

/-- A post in a row of an answer, with its columns in the order of the statement. -/
def Written.row (p : Written) : Row :=
  ⟨["id", "user_id", "content", "created_at"],
    [.text p.id, .text p.author, .text p.content, .text p.time.microText]⟩

/-- The statement that joins, as it is read. -/
def joining : Sql.Select where
  columns := ["id", "user_id", "content", "created_at"].map fun name =>
    .expr (.column (some "p") name) name
  sources :=
    [ ⟨"posts", "p", none⟩,
      ⟨"follows", "f",
        some (.binary .equal (.column (some "p") "user_id") (.column (some "f") "followee_id"))⟩ ]
  condition := some (.binary .equal (.column (some "f") "follower_id") (.param 1))
  groupBy := []
  having := none
  orderBy := []

/-- The text of it, as it is sent. -/
def joiningText : String :=
  Dialect.sqlite.render ("SELECT p.id, p.user_id, p.content, p.created_at FROM posts p "
    ++ "JOIN follows f ON p.user_id = f.followee_id WHERE f.follower_id = $1")

/-- The text is read as this selection, parsed by evaluation. -/
theorem ofText_joining : Instruction.ofText joiningText = [.ok (.select joining)] := by
  decide +kernel

/-- The columns of posts and those of follows, each by its table and its name. -/
def places : Fin 6 → String × String :=
  ![("p", "id"), ("p", "user_id"), ("p", "content"), ("p", "created_at"),
    ("f", "follower_id"), ("f", "followee_id")]

/-- A row of posts beside a row of follows. -/
def beside (cells : Fin 6 → Cell) (i : Fin 6) : Bound :=
  ⟨(places i).1, (places i).2, .text, cells i⟩

/-- No two columns of the pair have one name in one source, so that each is found. -/
theorem distinct_beside (cells : Fin 6 → Cell) : Sql.Distinct (beside cells) := by
  show ∀ i j : Fin 6, Sql.sameName (places j).2 (places i).2 = true →
    Sql.sameName (places j).1 (places i).1 = true → j = i
  decide

/-- The cells of a post and a follow. -/
def pairCells (pair : Written × String × String) : Fin 6 → Cell :=
  ![.text pair.1.id, .text pair.1.author, .text pair.1.content, .text pair.1.time.microText,
    .text pair.2.1, .text pair.2.2]

variable {d : Sql.Database} {tableOfPosts tableOfFollows : Table}

/-- A post beside a follow is what the join makes of their rows. -/
theorem bind_beside (hposts : tableOfPosts.OfTexts ["id", "user_id", "content", "created_at"])
    (hfollows : tableOfFollows.OfTexts ["follower_id", "followee_id"])
    (pair : Written × String × String) :
    tableOfPosts.bind "p" pair.1.cells ++ tableOfFollows.bind "f" (followCells pair.2)
      = List.ofFn (beside (pairCells pair)) := by
  rw [hposts.typed.bind, hfollows.typed.bind, List.ofFn_eq_map]
  rfl

/-- Where there are no pairs the columns are still known, with nothing in them. -/
theorem blankRow_joining (hposts : d.table "posts" = .ok tableOfPosts)
    (hpostTexts : tableOfPosts.OfTexts ["id", "user_id", "content", "created_at"])
    (hfollows : d.table "follows" = .ok tableOfFollows)
    (hfollowTexts : tableOfFollows.OfTexts ["follower_id", "followee_id"]) :
    d.blankRow joining.sources = .ok (List.ofFn (beside fun _ => .null)) := by
  rw [joining, Sql.Database.blankRow_pair hposts hfollows, hpostTexts.typed.blank,
    hfollowTexts.typed.blank, List.ofFn_eq_map]
  rfl

/-- The columns that the statement asks for, all of them the post's. -/
def shown : List (Expr × String) :=
  ["id", "user_id", "content", "created_at"].map fun name => (.column (some "p") name, name)

/-- Every column that the statement speaks of is there. -/
theorem checked_joining :
    Sql.Database.Checked false (List.ofFn (beside fun _ => .null)) shown joining := by
  have hcheck := (distinct_beside fun _ => .null).check
  refine ⟨rfl, ?_, ?_, ?_, nofun, nofun⟩
  · rintro source hsource e he
    rcases List.mem_pair.mp hsource with rfl | rfl
    · cases he
    · cases he
      exact Expr.check_binary (hcheck 1 false) (hcheck 5 false)
  · simp only [shown, List.map_cons, List.map_nil, List.forall_mem_cons]
    exact ⟨hcheck 0 false, hcheck 1 false, hcheck 2 false, hcheck 3 false, nofun⟩
  · rintro e ⟨⟩
    exact Expr.check_binary (hcheck 4 false) rfl

section Pair

variable (pair : Written × String × String)

/-- A column of the pair has the value of its cell, whatever the parameters are. -/
theorem eval_pair (i : Fin 6) (params : List Cell) :
    Expr.eval ⟨params, List.ofFn (beside (pairCells pair)), []⟩
        (.column (some (places i).1) (places i).2) = .ok (pairCells pair i) :=
  (distinct_beside (pairCells pair)).eval i params []

/-- Every column is one of texts, so that identities compare as texts and no number is
made of them. -/
theorem isNumeric_pair (i : Fin 6) :
    (Expr.affinity (List.ofFn (beside (pairCells pair)))
      (.column (some (places i).1) (places i).2)).isNumeric = false :=
  congrArg Sql.Affinity.isNumeric ((distinct_beside (pairCells pair)).affinity i)

/-- A post is joined to the follows of its author. -/
theorem holds_joinedOn (params : List Cell) :
    Expr.holds ⟨params, List.ofFn (beside (pairCells pair)), []⟩
        (some (.binary .equal (.column (some "p") "user_id") (.column (some "f") "followee_id")))
      = .ok (decide (pair.1.author = pair.2.2)) :=
  Expr.holds_equal_text (eval_pair pair 1 params) (eval_pair pair 5 params)
    (isNumeric_pair pair 1) (isNumeric_pair pair 5)

/-- Of these, those of the reader are kept. -/
theorem holds_condition (reader : String) :
    Expr.holds ⟨[.text reader], List.ofFn (beside (pairCells pair)), []⟩ joining.condition
      = .ok (decide (pair.2.1 = reader)) :=
  Expr.holds_equal_text (eval_pair pair 4 _) rfl (isNumeric_pair pair 4) rfl

/-- What is shown of them is the post. -/
theorem evalAll_shown (params : List Cell) :
    Expr.evalAll ⟨params, List.ofFn (beside (pairCells pair)), []⟩ (shown.map Prod.fst)
      = .ok pair.1.cells :=
  Expr.evalAll_cons (eval_pair pair 0 params) <| Expr.evalAll_cons (eval_pair pair 1 params) <|
    Expr.evalAll_cons (eval_pair pair 2 params) <| Expr.evalAll_cons (eval_pair pair 3 params) rfl

end Pair

/-- The statement finds the join, each post as often as it is in it, in some order. -/
theorem select_joining (h : Tabled d edges posts) (reader : String) :
    ∃ found : List Written, found.Perm (joined edges posts reader) ∧
      d.select [.text reader] joining = .ok
        { columns := ["id", "user_id", "content", "created_at"]
          rows := found.map Written.cells } := by
  obtain ⟨tableOfFollows, hfollows, hfollowTexts, hfollowRows⟩ := h.follows
  obtain ⟨tableOfPosts, hposts, hpostTexts, hpostRows⟩ := h.posts
  -- The tables list the follows and the posts in some order.
  obtain ⟨edges', hedges', hperm⟩ := exists_map_of_perm hfollowRows
  obtain ⟨posts', hposts', hperm'⟩ := exists_map_of_perm hpostRows
  refine ⟨joined edges' posts' reader, joined_perm hperm hperm' reader, ?_⟩
  have hrow := bind_beside hpostTexts hfollowTexts
  have hjoined : d.joinSources [.text reader] joining.sources [[]]
      = .ok (((posts' ×ˢ edges').filter fun pair => decide (pair.1.author = pair.2.2)).map
          fun pair => List.ofFn (beside (pairCells pair))) := by
    rw [joining, Sql.Database.joinSources_first hposts hposts' rfl,
      Sql.Database.joinSources_cons hfollows hedges' fun pair => (hrow pair).symm ▸
        holds_joinedOn pair [.text reader], Sql.Database.joinSources]
    simp only [hrow]
  have hresults : Sql.Database.resultColumns (List.ofFn (beside fun _ => .null)) joining
      = .ok shown := rfl
  have hselect := Sql.Database.select_plain rfl rfl
    (blankRow_joining hposts hpostTexts hfollows hfollowTexts) hresults checked_joining
    hjoined (fun pair => holds_condition pair reader) fun pair => evalAll_shown pair _
  rw [hselect, List.filter_filter, joined, List.map_map]
  rfl

/-- A SQL store finds the feed in one step. -/
theorem feed_sql {w : World Sql.Server} (hconnected : w.driver.isConnected = true)
    (h : Tabled w.driver.database edges posts) (reader : String) :
    ∃ rows, (World.site.run w (feed (.sql .sqlite) reader).run).2 = .ok rows ∧
      rows.Perm ((joined edges posts reader).map Written.row) := by
  obtain ⟨found, hfound, hselect⟩ := select_joining h reader
  refine ⟨found.map Written.row, ?_, hfound.map _⟩
  have hrows : Sql.Answer.toRows
      { columns := ["id", "user_id", "content", "created_at"]
        rows := found.map Written.cells } = .ok (found.map Written.row) := by
    refine mapM_map_ok found fun p _ => ?_
    rfl
  have hstatement : (Network.sql .sqlite).followeePosts reader
      = some (.sql joiningText [.text reader]) := rfl
  have hparams : [.text reader] = [Value.text reader].map Cell.ofValue := rfl
  rw [hparams] at hselect
  have hread := ofText_joining
  rw [feed, hstatement]
  -- What the text is does not matter any more, only how it is read.
  generalize joiningText = text at hread
  show (World.site.run w (Task.query (.sql text [.text reader])).run).2 = _
  rw [World.run_query]
  exact Sql.Server.answer_select hconnected hread hselect hrows none

/-! ### Stores that clients fill -/

/-- A statement that leaves follows and posts as they are, drops them all, or adds one
more. -/
inductive Fills : Statement → Prop
  | follow (follower followee : String) : Fills (Network.document.insertFollow follower followee)
  | post (id author content : String) (time : Instant) :
      Fills (Network.document.insertPost id author content time)
  | other {command : Command} (hfollows : command.collection ≠ "follows")
      (hposts : command.collection ≠ "posts") : Fills (.document command)
  | read {command : Command} (h : command.action.isRead = true) : Fills (.document command)
  | drop (name : String) : Fills (.on name .dropCollection)
  | sql (text : String) (params : List Value) : Fills (.sql text params)

/-- A step of a client that does no more than that. -/
def FillsOnly (e : Traffic.Event) : Prop :=
  match e with
  | .call _ _ (.exec statement) | .call _ _ (.execIn statement) => Fills statement
  | _ => True

/-- What is added to the follows is a follow, and what is added to the posts a post. -/
theorem Fills.adds {these : Json → Prop} {name : String} {command : Command}
    (h : Fills (.document command)) (hname : name = "follows" ∨ name = "posts")
    (hfollow : name = "follows" → ∀ edge, these (followEntry edge).2)
    (hpost : name = "posts" → ∀ p : Written, these p.entry.2) (fresh : String) :
    command.collection = name → (command.identified fresh).action.Adds these := by
  intro hcollection
  generalize hstatement : Statement.document command = statement at h
  cases h with
  | follow follower followee =>
      rw [insertFollow_document (follower, followee)] at hstatement
      obtain rfl := Statement.document.inj hstatement
      exact hfollow hcollection.symm (follower, followee)
  | post id author content time =>
      rw [insertPost_document] at hstatement
      obtain rfl := Statement.document.inj hstatement
      exact hpost hcollection.symm ⟨id, author, content, time⟩
  | other hfollows hposts =>
      obtain rfl := Statement.document.inj hstatement
      rw [hcollection] at hfollows hposts
      exact (hname.elim hfollows hposts).elim
  | read hread =>
      obtain rfl := Statement.document.inj hstatement
      rw [Command.identified_of_isRead hread]
      exact Action.adds_of_isRead hread
  | drop =>
      obtain rfl := Statement.document.inj hstatement
      trivial
  | sql => cases hstatement

/-- What only fills the two collections adds to each of them the documents of its kind. -/
theorem FillsOnly.adds {these : Json → Prop} {name : String} {e : Traffic.Event}
    (h : FillsOnly e) (hname : name = "follows" ∨ name = "posts")
    (hfollow : name = "follows" → ∀ edge, these (followEntry edge).2)
    (hpost : name = "posts" → ∀ p : Written, these p.entry.2) : e.Adds these name := by
  unfold FillsOnly at h
  unfold Traffic.Event.Adds
  split
  · exact h.adds hname hfollow hpost _
  · exact h.adds hname hfollow hpost _
  · trivial

variable {history : List Traffic.Event}

/-- A store that is filled so holds follows and posts and nothing else under these
names. -/
theorem exists_records (faults : List Fault) (latency : Span)
    (h : ∀ e ∈ history, FillsOnly e) :
    ∃ (edges : List (String × String)) (posts : List Written),
      ((((Traffic.new faults latency).pass history).server.store.docs "follows").Records
        followEntry edges) ∧
      ((((Traffic.new faults latency).pass history).server.store.docs "posts").Records
        Written.entry posts) := by
  have hfollows : (((Traffic.new faults latency).pass history).server.store.docs
      "follows").OnlyOf fun doc => ∃ edge, (followEntry edge).2 = doc :=
    ((Traffic.onlyOf_new _ "follows" faults latency).pass fun e he =>
      (h e he).adds (.inl rfl) (fun _ edge => ⟨edge, rfl⟩) nofun).stored
  have hposts : (((Traffic.new faults latency).pass history).server.store.docs
      "posts").OnlyOf fun doc => ∃ p : Written, p.entry.2 = doc :=
    ((Traffic.onlyOf_new _ "posts" faults latency).pass fun e he =>
      (h e he).adds (.inr rfl) nofun fun _ p => ⟨p, rfl⟩).stored
  obtain ⟨edges, hedges⟩ := hfollows.exists_records (fun _ hdoc => hdoc) fun _ => rfl
  obtain ⟨posts, hrecords⟩ := hposts.exists_records (fun _ hdoc => hdoc) fun _ => rfl
  exact ⟨edges, posts, hedges, hrecords⟩

/-- Stores that clients fill with follows and posts hold records of both, and the feed of
a reader, asked for in two steps, is the join of these: it has the posts of everyone
whom the reader follows, each once, and no post for a reader who follows nobody. A SQL
store with the same follows and posts, asked for it in one step, gives the same posts. -/
theorem feed_joins (faults : List Fault) (latency : Span) (hfills : ∀ e ∈ history, FillsOnly e)
    {w : World Server} (hdriver : w.driver = ((Traffic.new faults latency).pass history).server)
    (hconnected : w.driver.connected = true) :
    (∃ (edges : List (String × String)) (posts : List Written),
      (w.driver.store.docs "follows").Records followEntry edges ∧
      (w.driver.store.docs "posts").Records Written.entry posts) ∧
    ∀ (edges : List (String × String)) (posts : List Written) (reader : String),
      (w.driver.store.docs "follows").Records followEntry edges →
      (w.driver.store.docs "posts").Records Written.entry posts →
      (∃ rows, (World.site.run w (feed .document reader).run).2 = .ok rows ∧
        rows.Perm ((joined edges posts reader).map fun p => p.entry.2.toRow)) ∧
      (joined edges posts reader).Nodup ∧
      (∀ p, p ∈ joined edges posts reader ↔ p ∈ posts ∧ (reader, p.author) ∈ edges) ∧
      ((∀ followee, (reader, followee) ∉ edges) →
        (World.site.run w (feed .document reader).run).2 = .ok []) ∧
      ∀ v : World Sql.Server, v.driver.isConnected = true →
        Tabled v.driver.database edges posts →
        ∃ rows, (World.site.run v (feed (.sql .sqlite) reader).run).2 = .ok rows ∧
          rows.Perm ((joined edges posts reader).map Written.row) := by
  refine ⟨?_, ?_⟩
  · rw [hdriver]
    exact exists_records faults latency hfills
  · intro edges posts reader hedges hposts
    obtain ⟨rows, hrun, hrows⟩ := feed_document hconnected hedges hposts reader
    refine ⟨⟨rows, hrun, hrows⟩, ?_, fun p => mem_joined, ?_, ?_⟩
    · rw [joined_eq_filter (List.Nodup.of_map _ hedges.nodup)]
      exact (List.Nodup.of_map _ hposts.nodup).filter _
    · -- Who follows nobody joins no post.
      intro hnobody
      have hnone : joined edges posts reader = [] :=
        List.eq_nil_iff_forall_not_mem.mpr fun p hp => hnobody p.author (mem_joined.mp hp).2
      rw [hnone] at hrows
      rw [hrun, hrows.eq_nil]
    · intro v hv htabled
      exact feed_sql hv htabled reader

/-- Three posts of two users, two of them by the same one. -/
def letters : List Written :=
  [⟨"p1", "bob", "hello", ⟨0, 0⟩⟩, ⟨"p2", "cid", "hello", ⟨1, 0⟩⟩, ⟨"p3", "bob", "again", ⟨2, 0⟩⟩]

/-- They are written while two users follow others, one of them inside a transaction. -/
def mingled : List Traffic.Event :=
  [ .connect "memory://",
    .call 0 "" (.exec (Network.document.insertFollow "ann" "bob")),
    .call 0 "" (.exec (Network.document.insertPost "p1" "bob" "hello" ⟨0, 0⟩)),
    .call 1 "" .begin,
    .call 1 "" (.execIn (Network.document.insertFollow "bob" "cid")),
    .call 0 "" (.exec (Network.document.insertPost "p2" "cid" "hello" ⟨1, 0⟩)),
    .call 1 "" .commit,
    .call 0 "" (.exec (Network.document.insertPost "p3" "bob" "again" ⟨2, 0⟩)) ]

/-- The same posts as rows of tables, with the follows among them. -/
def lettersTable : Sql.Database :=
  { tables :=
      [ ⟨"follows", ["follower_id", "followee_id"].map fun name => ⟨name, "TEXT", true, false⟩,
          ["follower_id", "followee_id"],
          (∅ : Std.ExtTreeMap Int (List Cell)).insertMany
            [(1, followCells ("ann", "bob")), (2, followCells ("bob", "cid"))], ∅⟩,
        ⟨"posts", ["id", "user_id", "content", "created_at"].map fun name =>
            ⟨name, "TEXT", true, false⟩, ["id"],
          (∅ : Std.ExtTreeMap Int (List Cell)).insertMany
            (letters.zipIdx.map fun entry => ((entry.2 : Int), entry.1.cells)), ∅⟩ ] }

/-- Posts and follows that come in by the statements of one client and a transaction of
another at once. -/
theorem feed_joins_mingled :
    let w : World Server :=
      { driver := ((Traffic.new [] .zero).pass mingled).server, clock := ⟨0, 0⟩ }
    let v : World Sql.Server :=
      { driver := { path := some "feed.db", database := lettersTable }, clock := ⟨0, 0⟩ }
    (∃ rows, (World.site.run w (feed .document "ann").run).2 = .ok rows ∧
      rows.Perm ((joined [("ann", "bob"), ("bob", "cid")] letters "ann").map
        fun p => p.entry.2.toRow)) ∧
    (joined [("ann", "bob"), ("bob", "cid")] letters "ann").map Written.id = ["p1", "p3"] ∧
    (World.site.run w (feed .document "cid").run).2 = .ok [] ∧
    ∃ rows, (World.site.run v (feed (.sql .sqlite) "ann").run).2 = .ok rows ∧
      rows.Perm ((joined [("ann", "bob"), ("bob", "cid")] letters "ann").map Written.row) := by
  intro w v
  have hfills : ∀ e ∈ mingled, FillsOnly e := by
    simp only [mingled, List.forall_mem_cons, FillsOnly, true_and]
    exact ⟨.follow _ _, .post _ _ _ _, .follow _ _, .post _ _ _ _, .post _ _ _ _, nofun⟩
  obtain ⟨-, hfeed⟩ := feed_joins [] .zero hfills (show w.driver = _ from rfl) rfl
  have hedges : (w.driver.store.docs "follows").Records followEntry
      [("ann", "bob"), ("bob", "cid")] := Documents.records_of_toList rfl
  have hposts : (w.driver.store.docs "posts").Records Written.entry letters :=
    Documents.records_of_toList rfl
  have htabled : Tabled v.driver.database [("ann", "bob"), ("bob", "cid")] letters :=
    ⟨⟨_, rfl, ⟨rfl, by decide⟩, .of_eq rfl⟩, ⟨_, rfl, ⟨rfl, by decide⟩, .of_eq rfl⟩⟩
  obtain ⟨hrows, -, -, -, hsql⟩ := hfeed _ _ "ann" hedges hposts
  obtain ⟨-, -, -, hnobody, -⟩ := hfeed _ _ "cid" hedges hposts
  exact ⟨hrows, by decide, hnobody (by simp), hsql v rfl htabled⟩

end StoreBench.Scenario.Feed
