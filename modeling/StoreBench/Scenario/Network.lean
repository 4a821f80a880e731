import StoreBench.Row
import StoreBench.Scenario.Schema

/-!
# `StoreBench.Scenario.Network`: the statements of a social network

Users follow each other and write posts. A timeline collects, for one
user, the posts of everyone that the user follows. A SQL store can join
follows and posts in one statement; a document store is asked for the
followed users first and for their posts then.

The users of a scenario follow each other in a ring (`followEdges`).
-/

set_option autoImplicit false

namespace StoreBench.Scenario

/-- A post and who wrote it. -/
structure PostRef where
  id : String
  author : String
deriving DecidableEq, Repr, Inhabited

/-- What a social network does with its store. -/
structure Network where
  createSchema : (timelines : Bool) → List Statement
  dropSchema : List Statement
  insertUser : (id name : String) → Statement
  /-- An empty timeline of a user. -/
  insertTimeline : (user : String) → Statement
  insertFollow : (follower followee : String) → Statement
  insertPost : (id author content : String) → (time : Instant) → Statement
  /-- Everyone who follows a user. -/
  followersOf : (user : String) → Statement
  /-- Everyone whom a user follows. -/
  followeesOf : (user : String) → Statement
  /-- The posts of everyone whom a user follows, if one statement can tell. -/
  followeePosts : (user : String) → Option Statement
  postsBy : (authors : List String) → Statement
  appendToTimeline : (user post : String) → Statement
  listPosts : Statement
  postRef : Row → Except BenchError PostRef
  listFollows : Statement
  listTimelines : Statement

namespace Network

/-- The tables of a network, those that refer to others first. -/
def tables : List String := ["timelines", "follows", "posts", "users"]

/-- The placeholders from the first to the `n`-th, or what is in no list. -/
def placeholders (n : Nat) : String :=
  if n = 0 then "NULL"
  else ", ".intercalate ((List.range n).map fun i => s!"${i + 1}")

/-- A post as a row names it. -/
def readPost (id : String) (row : Row) : Except BenchError PostRef := do
  let id ← row.scanNamed Value.toText id
  let author ← row.scanNamed Value.toText "user_id"
  return { id, author }

/-- A network on a SQL store. -/
def sql (d : Dialect) : Network where
  createSchema timelines :=
    [ Dialect.createTable "users"
        ["id VARCHAR(255) PRIMARY KEY", "name VARCHAR(255) NOT NULL"],
      Dialect.createTable "posts"
        ["id VARCHAR(255) PRIMARY KEY", "user_id VARCHAR(255) NOT NULL", "content TEXT NOT NULL",
          s!"created_at {d.instantType} NOT NULL"],
      .sql "CREATE INDEX IF NOT EXISTS idx_posts_user_id ON posts (user_id)" [],
      Dialect.createTable "follows"
        ["follower_id VARCHAR(255) NOT NULL", "followee_id VARCHAR(255) NOT NULL",
          "PRIMARY KEY (follower_id, followee_id)"] ]
    ++ (if timelines then
        [Dialect.createTable "timelines"
          ["user_id VARCHAR(255) PRIMARY KEY", s!"post_ids {d.textListType} NOT NULL"]]
      else [])
  dropSchema := tables.map d.dropTable
  insertUser id name :=
    d.statement "INSERT INTO users (id, name) VALUES ($1, $2)" [.text id, .text name]
  insertTimeline user :=
    d.statement "INSERT INTO timelines (user_id, post_ids) VALUES ($1, $2)"
      [.text user, .textList []]
  insertFollow follower followee :=
    d.statement ("INSERT INTO follows (follower_id, followee_id) VALUES ($1, $2) "
      ++ "ON CONFLICT DO NOTHING") [.text follower, .text followee]
  insertPost id author content time :=
    d.statement "INSERT INTO posts (id, user_id, content, created_at) VALUES ($1, $2, $3, $4)"
      [.text id, .text author, .text content, .timestamp time]
  followersOf user :=
    d.statement "SELECT follower_id FROM follows WHERE followee_id = $1" [.text user]
  followeesOf user :=
    d.statement "SELECT followee_id FROM follows WHERE follower_id = $1" [.text user]
  followeePosts user :=
    some (d.statement ("SELECT p.id, p.user_id, p.content, p.created_at FROM posts p "
      ++ "JOIN follows f ON p.user_id = f.followee_id WHERE f.follower_id = $1") [.text user])
  postsBy authors :=
    d.statement ("SELECT id, user_id, content, created_at FROM posts WHERE user_id IN "
      ++ s!"({placeholders authors.length})") (authors.map Value.text)
  appendToTimeline user post :=
    d.statement ("UPDATE timelines SET post_ids = " ++ d.append "post_ids" "$1"
      ++ " WHERE user_id = $2") [.text post, .text user]
  listPosts := .sql "SELECT id, user_id FROM posts" []
  postRef := readPost "id"
  listFollows := .sql "SELECT follower_id, followee_id FROM follows" []
  listTimelines := .sql "SELECT user_id, post_ids FROM timelines" []

/-- A network on a document store. A follow is kept under the two names it
joins, so that no follow is stored twice. -/
def document : Network where
  createSchema _ := []
  dropSchema := tables.map fun table => .on table .dropCollection
  insertUser id name := .insert "users" [("_id", .str id), ("name", .str name)]
  insertTimeline user :=
    .insert "timelines" [("_id", .str user), ("user_id", .str user), ("post_ids", .arr [])]
  insertFollow follower followee :=
    .insert "follows"
      [ ("_id", .str s!"{follower}->{followee}"), ("follower_id", .str follower),
        ("followee_id", .str followee) ]
  insertPost id author content time :=
    .insert "posts"
      [ ("_id", .str id), ("user_id", .str author), ("content", .str content),
        ("created_at", .ofInstant time) ]
  followersOf user := .find "follows" (.eq "followee_id" (.str user))
  followeesOf user := .find "follows" (.eq "follower_id" (.str user))
  followeePosts _ := none
  postsBy authors := .find "posts" [("user_id", .isIn (authors.map Json.str))]
  appendToTimeline user post :=
    .on "timelines" (.updateOne (.eq "user_id" (.str user)) [.push "post_ids" (.str post)])
  listPosts := .find "posts" .all
  postRef := readPost "_id"
  listFollows := .find "follows" .all
  listTimelines := .find "timelines" .all

/-- The statements for a backend. -/
def on (b : Backend) : Network :=
  match b.dialect? with
  | some d => sql d
  | none => document

/-! ### Seeding -/

/-- The name of a user, by number. -/
def userId (i : Nat) : String := s!"user{i}"

/-- Puts a follow into its place, unless it is there. -/
def insertEdge (edge : String × String) : List (String × String) → List (String × String)
  | [] => [edge]
  | other :: rest =>
    if edge.1 < other.1 ∨ (edge.1 = other.1 ∧ edge.2 < other.2) then edge :: other :: rest
    else if edge = other then other :: rest
    else other :: insertEdge edge rest

/-- The first `follows` edges of a ring of users, each once and sorted: the
user of a number follows the user of the next one. -/
def followEdges (users follows : Nat) : List (String × String) :=
  if users = 0 then []
  else (List.range (min users follows)).foldl
    (fun edges i => insertEdge (userId i, userId ((i + 1) % users)) edges) []

/-- The statements that make a network of users in a ring. -/
def seed (n : Network) (users follows : Nat) (timelines : Bool) : List Statement :=
  n.createSchema timelines
  ++ ((List.range users).flatMap fun i =>
      n.insertUser (userId i) s!"user-{i}"
        :: (if timelines then [n.insertTimeline (userId i)] else []))
  ++ (followEdges users follows).map fun edge => n.insertFollow edge.1 edge.2

end Network

end StoreBench.Scenario
