import StoreBench.Proofs.Document.Traffic

/-!
# `StoreBench.Proofs.Document.Serializable`: transactions happen at their commit

However the steps of the clients are mixed, the store holds at every moment
what the blocks of the ledger give when they are played one after the other,
and everybody whose work took effect saw what that serial run shows
(`serializable`).

The invariant is `Serial`. It holds the serial state against the store, and
for every open transaction in which nothing failed that it stands for the
deeds its client has noted down (`Transaction.Tracks`). A step of one client
moves the store to a later state, over which the transactions of the others
keep what they stand for; `Serial.turn` is that argument, and what remains
of each step is its effect on the client's own part.
-/

set_option autoImplicit false

namespace StoreBench.Traffic

variable {t : Traffic} {l m : Ledger} {α : Type}

/-! ### The ledger, client by client -/

/-- The client for whom something is put has it. -/
@[simp] theorem putFor_self (of : Nat → α) (client : Nat) (a : α) :
    putFor of client a client = a := if_pos rfl

/-- What belongs to one client can change without touching what belongs to another. -/
theorem putFor_of_ne {client other : Nat} (h : client ≠ other) (of : Nat → α) (a : α) :
    putFor of client a other = of other := if_neg h

/-- The ledger says of this client what it said. -/
def Ledger.SameFor (l m : Ledger) (client : Nat) : Prop :=
  m.pending client = l.pending client ∧ m.failed client = l.failed client

/-- What is known of a client only changes by what it does itself. -/
@[simp] theorem Ledger.sameFor_self (l : Ledger) (client : Nat) : l.SameFor l client := ⟨rfl, rfl⟩

/-- A block that is entered is known by its place in the ledger and is nobody's pending
work. -/
@[simp] theorem Ledger.sameFor_add (l : Ledger) (block : Block) (client : Nat) :
    l.SameFor (l.add block) client := ⟨rfl, rfl⟩

/-- A statement by itself leaves open transactions as they are. -/
@[simp] theorem Ledger.sameFor_single (l : Ledger) (deed : Option Deed) (client : Nat) :
    l.SameFor (l.single deed) client := by
  cases deed <;> exact ⟨rfl, rfl⟩

/-- What a client notes down concerns no other client. -/
theorem Ledger.sameFor_note (l : Ledger) {client other : Nat} (h : client ≠ other)
    (deed : Option Deed) : l.SameFor (l.note client deed) other := by
  cases deed with
  | none => exact ⟨rfl, putFor_of_ne h _ _⟩
  | some deed => exact ⟨putFor_of_ne h _ _, rfl⟩

/-- A transaction that one client begins is not another's. -/
theorem Ledger.sameFor_begin (l : Ledger) {client other : Nat} (h : client ≠ other) :
    l.SameFor (l.begin client) other := ⟨putFor_of_ne h _ _, putFor_of_ne h _ _⟩

/-- A deed that succeeded is pending, after those before it. -/
@[simp] theorem Ledger.pending_note_some (l : Ledger) (client : Nat) (deed : Deed) :
    (l.note client (some deed)).pending client = l.pending client ++ [deed] := putFor_self _ _ _

/-- Nothing is pending when a transaction begins. -/
@[simp] theorem Ledger.pending_begin (l : Ledger) (client : Nat) :
    (l.begin client).pending client = [] := putFor_self _ _ _

/-- A statement that failed is remembered, as such a transaction is not committed in
order. -/
@[simp] theorem Ledger.failed_note_none (l : Ledger) (client : Nat) :
    (l.note client none).failed client = true := putFor_self _ _ _

/-- Statements in a transaction take no effect before its commit. -/
@[simp] theorem Ledger.blocks_note (l : Ledger) (client : Nat) (deed : Option Deed) :
    (l.note client deed).blocks = l.blocks := by
  cases deed <;> rfl

/-! ### The invariant -/

/-- The store holds what the ledger's blocks give one after the other, and
the open transactions stand for what their clients noted down. -/
structure Serial (t : Traffic) (l : Ledger) : Prop where
  sound : t.server.store.Sound
  contents : t.server.store.docs = Contents.empty.serial l.blocks
  serves : Contents.empty.Serves l.blocks
  tracks : ∀ client tx, t.held client = some tx → l.failed client = false →
    tx.Tracks t.server.store (l.pending client)

/-- Nobody has called a new server, and replaying nothing gives its empty store. -/
theorem serial_new (faults : List Fault) (latency : Span) : Serial (new faults latency) {} where
  sound := Store.sound_empty
  contents := funext Store.docs_empty
  serves := trivial
  tracks client tx h := by cases h

/-- The step of the invariant, for whatever one client's turn leaves: the
others go by the later state of the store. -/
theorem Serial.turn (h : Serial t l) (server : Server)
    (hbecomes : t.server.store.Becomes server.store)
    (hcontents : server.store.docs = Contents.empty.serial m.blocks)
    (hserves : Contents.empty.Serves m.blocks) (client : Nat) (held : Option Transaction)
    (hothers : ∀ other, client ≠ other → l.SameFor m other)
    (hown : ∀ tx, held = some tx → m.failed client = false →
      tx.Tracks server.store (m.pending client)) :
    Serial { server := server, held := putFor t.held client held } m where
  sound := hbecomes.sound h.sound
  contents := hcontents
  serves := hserves
  tracks other tx hheld hok := by
    change putFor t.held client held other = some tx at hheld
    by_cases hother : client = other
    · subst hother
      rw [putFor_self] at hheld
      exact hown tx hheld hok
    · -- Another client holds what it held, and noted down what it had.
      rw [putFor_of_ne hother] at hheld
      obtain ⟨hpending, hfailed⟩ := hothers other hother
      rw [hpending]
      rw [hfailed] at hok
      exact (h.tracks other tx hheld hok).since hbecomes.since

/-- A turn that leaves the store as it was, and adds no block. -/
theorem Serial.quiet (h : Serial t l) (server : Server) (hstore : server.store = t.server.store)
    (hblocks : m.blocks = l.blocks) (client : Nat) (held : Option Transaction)
    (hothers : ∀ other, client ≠ other → l.SameFor m other)
    (hown : ∀ tx, held = some tx → m.failed client = false →
      tx.Tracks server.store (m.pending client)) :
    Serial { server := server, held := putFor t.held client held } m := by
  refine h.turn server ?_ ?_ ?_ client held hothers hown
  · rw [hstore]
    exact .same
  · rw [hstore, hblocks]
    exact h.contents
  · rw [hblocks]
    exact h.serves

/-- A block that fits what the store holds may be added, when the store is
changed as the block says. -/
theorem Serial.concat (h : Serial t l) (server : Server) (block : Block)
    (hfits : Contents.Fits t.server.store.docs block)
    (hplay : server.store.docs = Contents.play t.server.store.docs block) :
    server.store.docs = Contents.empty.serial (l.add block).blocks ∧
    Contents.empty.Serves (l.add block).blocks := by
  rw [h.contents] at hfits hplay
  refine ⟨?_, (Contents.serves_concat _ _ _).mpr ⟨h.serves, hfits⟩⟩
  rw [hplay]
  exact (Contents.serial_concat _ _ _).symm

/-! ### Statements -/

/-- A command that was made on the contents is a block of its own. -/
theorem play_single {c after : Contents} {deed : Deed} {outcome : Outcome}
    (hperform : c.perform deed.command = (after, .ok outcome))
    (hseen : deed.seen.Shows outcome) :
    c.Fits (.single deed) ∧ after = c.play (.single deed) := by
  refine ⟨⟨outcome, by rw [hperform], hseen⟩, ?_⟩
  rw [Contents.play, Contents.run, Contents.run, hperform]

/-- A statement by itself takes no effect, or is the block that the ledger
enters. -/
theorem exec_effect (s : Server) (fresh : String) (statement : Statement) :
    (deed? fresh statement ((s.exec fresh statement).2.map .affected) = none ∧
      (s.exec fresh statement).1.store = s.store) ∨
    ∃ deed, deed? fresh statement ((s.exec fresh statement).2.map .affected) = some deed ∧
      Contents.Fits s.store.docs (.single deed) ∧
      (s.exec fresh statement).1.store.docs = Contents.play s.store.docs (.single deed) := by
  rcases hdone : s.exec fresh statement with ⟨after, result⟩
  cases result with
  | error failure =>
      left
      refine ⟨?_, Server.exec_error hdone⟩
      cases statement <;> rfl
  | ok n =>
      obtain ⟨command, outcome, rfl, hseen, hperform⟩ := Server.exec_ok hdone
      exact .inr ⟨⟨command.identified fresh, .affected n⟩, rfl, play_single hperform hseen⟩

/-- A query by itself is refused, or is the block that the ledger enters. -/
theorem query_effect (s : Server) (fresh : String) (statement : Statement) :
    deed? fresh statement ((s.query statement).2.map .rows) = none ∨
    ∃ deed, deed? fresh statement ((s.query statement).2.map .rows) = some deed ∧
      Contents.Fits s.store.docs (.single deed) ∧
      s.store.docs = Contents.play s.store.docs (.single deed) := by
  cases hdone : (s.query statement).2 with
  | error failure =>
      left
      cases statement <;> rfl
  | ok found =>
      -- A query has no document to identify, so its deed is the command itself.
      obtain ⟨command, outcome, rfl, hseen, hread, hperform⟩ := Server.query_ok hdone
      refine .inr ⟨⟨command.identified fresh, .rows found⟩, rfl, ?_⟩
      rw [Command.identified_of_isRead hread]
      exact play_single hperform hseen

/-- What is noted of a statement in a transaction is an action in it. -/
theorem execIn_effect (s : Server) (tx : Transaction) (fresh : String) (statement : Statement) :
    deed? fresh statement ((s.execIn tx fresh statement).2.map .affected) = none ∨
    ∃ deed outcome,
      deed? fresh statement ((s.execIn tx fresh statement).2.map .affected) = some deed ∧
      tx.apply s.store deed.command = ((s.execIn tx fresh statement).1, .ok outcome) ∧
      deed.seen.Shows outcome := by
  rcases hdone : s.execIn tx fresh statement with ⟨after, result⟩
  cases result with
  | error failure =>
      left
      cases statement <;> rfl
  | ok n =>
      obtain ⟨command, outcome, rfl, hseen, happly⟩ := Server.execIn_ok hdone
      exact .inr ⟨⟨command.identified fresh, .affected n⟩, outcome, rfl, happly, hseen⟩

/-- What is noted of a query in a transaction is an action in it. -/
theorem queryIn_effect (s : Server) (tx : Transaction) (fresh : String) (statement : Statement) :
    deed? fresh statement ((s.queryIn tx statement).2.map .rows) = none ∨
    ∃ deed outcome,
      deed? fresh statement ((s.queryIn tx statement).2.map .rows) = some deed ∧
      tx.apply s.store deed.command = ((s.queryIn tx statement).1, .ok outcome) ∧
      deed.seen.Shows outcome := by
  rcases hdone : s.queryIn tx statement with ⟨after, result⟩
  cases result with
  | error failure =>
      left
      cases statement <;> rfl
  | ok found =>
      obtain ⟨command, outcome, rfl, hseen, hread, happly⟩ := Server.queryIn_ok hdone
      refine .inr ⟨⟨command.identified fresh, .rows found⟩, outcome, rfl, ?_, hseen⟩
      rwa [Command.identified_of_isRead hread]

/-! ### The step -/

/-- A statement by itself, of a client that may also have a transaction
open. -/
theorem Serial.single (h : Serial t l) (server : Server) {deed : Option Deed}
    (hbecomes : t.server.store.Becomes server.store)
    (heffect : (deed = none ∧ server.store = t.server.store) ∨
      ∃ d, deed = some d ∧ Contents.Fits t.server.store.docs (.single d) ∧
        server.store.docs = Contents.play t.server.store.docs (.single d)) (client : Nat) :
    Serial { server := server, held := putFor t.held client (t.held client) } (l.single deed) := by
  have hown : ∀ tx, t.held client = some tx → (l.single deed).failed client = false →
      tx.Tracks server.store ((l.single deed).pending client) := by
    intro tx hheld hok
    obtain ⟨hpending, hfailed⟩ := l.sameFor_single deed client
    rw [hpending]
    rw [hfailed] at hok
    exact (h.tracks client tx hheld hok).since hbecomes.since
  rcases heffect with ⟨rfl, hstore⟩ | ⟨d, rfl, hfits, hplay⟩
  · exact h.quiet server hstore rfl client _ (fun other _ => l.sameFor_single none other) hown
  · obtain ⟨hcontents, hserves⟩ := h.concat server _ hfits hplay
    exact h.turn server hbecomes hcontents hserves client _
      (fun other _ => l.sameFor_single (some d) other) hown

/-- A statement in the transaction that a client has open. -/
theorem Serial.note (h : Serial t l) {client : Nat} {tx after : Transaction}
    (hheld : t.held client = some tx) {deed : Option Deed}
    (heffect : deed = none ∨ ∃ d outcome, deed = some d ∧
      tx.apply t.server.store d.command = (after, .ok outcome) ∧ d.seen.Shows outcome) :
    Serial { server := t.server, held := putFor t.held client (some after) }
      (l.note client deed) := by
  refine h.quiet t.server rfl (l.blocks_note client deed) client _
    (fun other hother => l.sameFor_note hother deed) ?_
  intro new hnew hok
  obtain rfl := Option.some.inj hnew
  rcases heffect with rfl | ⟨d, outcome, rfl, happly, hseen⟩
  · -- What failed is noted, so nothing is claimed of the transaction.
    rw [Ledger.failed_note_none] at hok
    cases hok
  · rw [Ledger.pending_note_some]
    exact (h.tracks client tx hheld hok).apply h.sound happly hseen

/-- A client that ends its transaction without effect. -/
theorem Serial.drop (h : Serial t l) (server : Server)
    (hstore : server.store = t.server.store) (client : Nat) :
    Serial { server := server, held := putFor t.held client none } l :=
  h.quiet server hstore rfl client none (fun other _ => l.sameFor_self other) nofun

/-- A client that commits: its transaction stands for its deeds, so the store
after the commit is the one after their serial run. -/
theorem Serial.commit (h : Serial t l) (server : Server) {client : Nat} {tx : Transaction}
    (hheld : t.held client = some tx) (hok : l.failed client = false)
    (hcommit : tx.commit t.server.store = .ok server.store) :
    Serial { server := server, held := putFor t.held client none }
      (l.add (.transaction (l.pending client))) := by
  obtain ⟨hexplains, hrun⟩ := (h.tracks client tx hheld hok).commit hcommit
  obtain ⟨hcontents, hserves⟩ := h.concat server (.transaction (l.pending client))
    hexplains hrun.symm
  exact h.turn server (Transaction.becomes_commit hcommit) hcontents hserves client none
    (fun other _ => l.sameFor_add _ other) nofun

/-- A client that has begun a transaction, also in the place of another. -/
theorem Serial.begin (h : Serial t l) (client : Nat) :
    Serial { server := t.server, held := putFor t.held client (some []) } (l.begin client) := by
  refine h.quiet t.server (m := l.begin client) rfl rfl client _
    (fun other hother => l.sameFor_begin hother) ?_
  intro tx htx _
  obtain rfl := Option.some.inj htx
  rw [Ledger.pending_begin]
  exact Transaction.tracks_nil _

/-- A client that makes a statement in a transaction it has not begun. -/
theorem Serial.idle (h : Serial t l) (client : Nat) (deed : Option Deed) :
    Serial { server := t.server, held := putFor t.held client none } (l.note client deed) :=
  h.quiet t.server rfl (l.blocks_note client deed) client none
    (fun _ hother => l.sameFor_note hother deed) nofun

/-- A client whose turn changes nothing that is held. -/
theorem Serial.refused (h : Serial t l) (client : Nat) :
    Serial { server := t.server, held := putFor t.held client (t.held client) } l :=
  h.quiet t.server rfl rfl client _ (fun other _ => l.sameFor_self other)
    fun tx => h.tracks client tx

/-- Every call keeps the invariant, whatever is answered. The ledger records the answer. -/
theorem Serial.call (h : Serial t l) (client : Nat) (fresh : String) (c : Call)
    (hallowed : l.Allows (.call client fresh c)) :
    Serial (t.answer (.call client fresh c)).1
      (l.recordCall client fresh c (t.answer (.call client fresh c)).2) := by
  cases c with
  | exec statement =>
      exact h.single _ (Server.becomes_exec t.server fresh statement)
        (exec_effect t.server fresh statement) client
  | query statement =>
      -- A query adds a block, too, though it leaves the server as it was.
      have hsame := Server.query_fst t.server statement
      refine h.single (t.server.query statement).1 ?_ ?_ client
      · rw [hsame]
        exact .same
      · rw [hsame]
        rcases query_effect t.server fresh statement with hnone | hsome
        · exact .inl ⟨hnone, rfl⟩
        · exact .inr hsome
  | begin =>
      simp only [answer, Server.answer]
      cases t.server.checkConnected with
      | ok _ => exact h.begin client
      | error e => exact h.refused client
  | execIn statement =>
      simp only [answer, Server.answer]
      cases hheld : t.held client with
      | none => exact h.idle client _
      | some tx => exact h.note hheld (execIn_effect t.server tx fresh statement)
  | queryIn statement =>
      simp only [answer, Server.answer]
      cases hheld : t.held client with
      | none => exact h.idle client _
      | some tx => exact h.note hheld (queryIn_effect t.server tx fresh statement)
  | commit =>
      simp only [answer, Server.answer]
      cases hheld : t.held client with
      | none => exact h.drop t.server rfl client
      | some tx =>
          rcases hdone : t.server.commit tx with ⟨server, result⟩
          simp only [hdone]
          -- In an orderly run nothing failed in the transaction, so it stands for its deeds.
          cases result with
          | error e => exact h.drop server (Server.commit_error_store hdone) client
          | ok _ => exact h.commit server hheld hallowed (Server.commit_ok_store hdone)
  | rollback e => exact h.drop (t.server.rollback e) rfl client
  | abandon => exact h.drop t.server rfl client

/-- A step of the server itself, which is no client's turn. -/
theorem Serial.serve (h : Serial t l) (server : Server) (hstore : server.store = t.server.store) :
    Serial { t with server := server } l where
  sound := hstore ▸ h.sound
  contents := hstore ▸ h.contents
  serves := h.serves
  tracks client tx hheld hok := hstore ▸ h.tracks client tx hheld hok

/-- A reset makes every collection absent, which open transactions notice by
the version, if they have a copy of documents that are gone. -/
theorem Serial.reset (h : Serial t l) (server : Server)
    (hstore : server.store = t.server.store.clear) :
    Serial { t with server := server } (l.add .reset) := by
  have hempty : server.store.docs = Contents.empty := by
    rw [hstore]
    exact funext (Store.docs_clear _)
  obtain ⟨hcontents, hserves⟩ := h.concat server .reset trivial hempty
  refine ⟨?_, hcontents, hserves, ?_⟩
  · rw [show ({ t with server := server } : Traffic).server.store = _ from hstore]
    exact .clear _
  · intro client tx hheld hok
    refine (h.tracks client tx hheld hok).since ?_
    rw [hstore]
    exact Store.since_clear _

/-- Every step keeps the invariant, a reset and an injected fault too. -/
theorem Serial.follow (h : Serial t l) (e : Event) (hallowed : l.Allows e) :
    Serial (follow (t, l) e).1 (follow (t, l) e).2 := by
  cases e with
  | call client fresh c => exact h.call client fresh c hallowed
  | connect address =>
      refine h.serve (t.server.connect address).1 ?_
      unfold Server.connect
      split <;> rfl
  | close => exact h.serve t.server.close rfl
  | reset =>
      simp only [Traffic.follow, answer, Server.reset]
      cases t.server.checkConnected with
      | ok _ => exact h.reset _ rfl
      | error e => exact h.serve t.server rfl
  | inject faults => exact h.serve (t.server.inject faults) rfl

/-- So does every orderly run, by induction on its steps. -/
theorem Serial.run {s : Traffic × Ledger} (h : Serial s.1 s.2) {events : List Event}
    (horderly : Orderly s events) : Serial (run s events).1 (run s events).2 := by
  induction events generalizing s with
  | nil => exact h
  | cons e rest ih => exact ih (h.follow e horderly.1) horderly.2

/-- However the steps of any number of clients are mixed, what a new server
holds after them is what the blocks give when they are played one after the
other, from nothing: the transactions that committed so far in the order of
their commits, each without interruption, the statements by themselves and
the resets. All clients whose work is in a block saw what this serial run
shows at its place. -/
theorem serializable (faults : List Fault) (latency : Span) (events : List Event)
    (horderly : Orderly (new faults latency, {}) events) :
    let (t, ledger) := run (new faults latency, {}) events
    t.server.store.docs = Contents.empty.serial ledger.blocks ∧
      Contents.empty.Serves ledger.blocks := by
  have hserial := (serial_new faults latency).run (s := (new faults latency, {})) horderly
  exact ⟨hserial.contents, hserial.serves⟩

/-- Two clients write the same collection. The blind insert of the first
goes in after a single insert it never saw; the second, which looked at the
collection in between, is refused. -/
def rivals : List Event :=
  [ .connect "memory://",
    .call 0 "" .begin,
    .call 0 "a" (.execIn (.on "orders" (.insertOne (.obj [])))),
    .call 0 "" (.queryIn (.on "stock" (.count .all))),
    .call 1 "b" (.exec (.on "orders" (.insertOne (.obj [])))),
    .call 1 "" .begin,
    .call 1 "" (.execIn (.on "orders" .dropCollection)),
    .call 0 "" .commit,
    .call 1 "" .commit,
    .call 1 "" (.query (.on "orders" (.count .all))) ]

/-- Two clients, one of whom drops the collection into which the other inserts, commits
later and is turned away. -/
theorem serializable_rivals :
    Orderly (new [] .zero, {}) rivals ∧ (run (new [] .zero, {}) rivals).2.blocks.length = 3 ∧
    let (t, ledger) := run (new [] .zero, {}) rivals
    t.server.store.docs = Contents.empty.serial ledger.blocks ∧
      Contents.empty.Serves ledger.blocks := by
  have horderly : Orderly (new [] .zero, {}) rivals :=
    ⟨trivial, trivial, trivial, trivial, trivial, trivial, trivial, rfl, rfl, trivial, trivial⟩
  exact ⟨horderly, rfl, serializable [] .zero rivals horderly⟩

end StoreBench.Traffic
