import StoreBench.Load.Workload
import StoreBench.Scenario.Network
import StoreBench.Scenario.Request

/-!
# `StoreBench.Scenario.Feed`: two ways to a feed

The feed of a user is made of the posts of everyone whom the user follows.
`fanOutOnWrite` makes it when a post is written: the post goes to the
timeline of every follower in one transaction, and afterwards no timeline
may lack a post. `joinOnRead` makes it when it is read, in one joining
statement or in two.
-/

set_option autoImplicit false

namespace StoreBench.Scenario.Feed

open Network (userId)

/-- The follow edges that are seeded, before duplicates are dropped. -/
def follows : Nat := 1000

def content : String := "post content"

/-! ### On write -/

/-- Writes a post and puts it on the timeline of every follower. -/
def publish (n : Network) (author post : String) (time : Instant) : Task Unit :=
  Task.transact do
    discard (Task.execIn (n.insertPost post author content time))
    (← Task.queryIn (n.followersOf author)).forM fun row => do
      let follower ← row.scanNamed Value.toText "follower_id"
      discard (Task.execIn (n.appendToTimeline follower post))

/-- The posts in rows. -/
def readPosts (n : Network) (rows : List Row) : Except BenchError (List PostRef) :=
  rows.mapM n.postRef

/-- The timelines in rows: whose each is, and the posts on it. -/
def readTimelines (rows : List Row) : Except BenchError (List (String × List String)) :=
  rows.mapM fun row => do
    let owner ← row.scanNamed Value.toText "user_id"
    let posts ← row.scanNamed Value.toTexts "post_ids"
    return (owner, posts)

/-- The follows in rows: follower and followed user of each. -/
def readFollows (rows : List Row) : Except BenchError (List (String × String)) :=
  rows.mapM fun row => do
    let follower ← row.scanNamed Value.toText "follower_id"
    let followee ← row.scanNamed Value.toText "followee_id"
    return (follower, followee)

/-- The users followed in rows. -/
def readFollowees (rows : List Row) : Except BenchError (List String) :=
  rows.mapM fun row => row.scanNamed Value.toText "followee_id"

/-- Whether the follower's timeline holds every post of the followed user.
Of two timelines of one user the later counts. -/
def delivered (posts : List PostRef) (timelines : List (String × List String))
    (follow : String × String) : Bool :=
  let timeline := (timelines.reverse.lookup follow.1).getD []
  posts.all fun post => post.author != follow.2 || timeline.contains post.id

/-- Each post is delivered to the timelines of all followers when it is written. -/
def fanOutOnWrite (n : Network) (users : Nat) : Workload requests :=
  let users := max users 1
  { name := "fan_out_on_write"
    setup := Task.execAll (n.seed users follows true)
    attempt := fun _ => do
      let author ← Task.draw users
      let post ← Task.identity
      publish n (userId author) post (← Task.now)
    verify := do
      let posts ← readPosts n (← Task.query n.listPosts)
      let timelines ← readTimelines (← Task.query n.listTimelines)
      let follows ← readFollows (← Task.query n.listFollows)
      return some (follows.all (delivered posts timelines))
    teardown := Task.execAll n.dropSchema }

/-! ### On read -/

/-- The feed of a user. -/
def feed (n : Network) (reader : String) : Task (List Row) := do
  match n.followeePosts reader with
  | some joined => Task.query joined
  | none =>
    let followees ← readFollowees (← Task.query (n.followeesOf reader))
    Task.query (n.postsBy followees)

/-- The statements that make a network whose users have written posts in
turn. -/
def seedStatements (n : Network) (users posts : Nat) : Task (List Statement) := do
  let time ← Task.now
  let written ← (List.range posts).mapM fun i => do
    let post ← Task.identity
    return n.insertPost post (userId (i % users)) content time
  return n.seed users follows false ++ written

/-- Nothing is delivered, and a feed is put together when it is read. -/
def joinOnRead (n : Network) (users posts : Nat) : Workload requests :=
  let users := max users 1
  { name := "join_on_read"
    setup := do Task.execAll (← seedStatements n users posts)
    attempt := fun _ => do
      let reader ← Task.draw users
      discard (feed n (userId reader))
    teardown := Task.execAll n.dropSchema }

end StoreBench.Scenario.Feed
