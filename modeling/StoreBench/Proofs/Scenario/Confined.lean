import StoreBench.Proofs.Document.Within
import StoreBench.Proofs.Scenario.Clients

/-!
# `StoreBench.Proofs.Scenario.Confined`: tasks that keep to some collections

A task is confined to some collections when every statement that it makes is about
one of them, whatever it is answered (`Confined`). Nothing is asked of its reads by
themselves, which change nothing.

What such a task does to the store stays in these collections, whether the client is
alone (`Confined.site_run`) or one of many (`Confined.clients_run`): a transaction
holds the collections of its statements only, so its commit changes no other. No
task can connect the store or close it, or queue a fault. All of this is
`World.Beside`.
-/

set_option autoImplicit false

namespace StoreBench.Scenario

variable {names : List String}

/-- What a request may write is in these collections. Requests that are no calls touch
the supply and the counters, which no collection is about. -/
def Request.Within (names : List String) : Request → Prop
  | .call c => c.Within names
  | .identity | .draw _ | .now | .stored | .addStored _ | .clearStored | .takeBegun _ => True

/-! ### Worlds that differ in these collections -/

/-- The documents of all other collections are as they were before, and the driver
is as far from failing as it was. -/
structure World.Beside (names : List String) (before w : World Server) : Prop where
  connected : w.driver.connected = before.driver.connected
  faults : w.driver.faults <:+ before.driver.faults
  docs : ∀ name ∉ names, w.driver.store.docs name = before.driver.store.docs name

namespace World.Beside

variable {w before after : World Server} {held held' : Option Transaction} {r : Request}
  {reply : r.Reply}

/-- A world differs from itself in no collection at all. -/
theorem refl (names : List String) (w : World Server) : World.Beside names w w where
  connected := rfl
  faults := List.suffix_rfl
  docs _ _ := rfl

/-- What keeps to some collections twice keeps to them altogether. Queues of faults only
become shorter on the way. -/
theorem trans (h : World.Beside names before w) (hnext : World.Beside names w after) :
    World.Beside names before after where
  connected := hnext.connected.trans h.connected
  faults := hnext.faults.trans h.faults
  docs name hname := (hnext.docs name hname).trans (h.docs name hname)

/-- The answer to a request changes no other collection, if the client holds nothing
else in its transaction; and it holds nothing else afterwards. -/
theorem answer (hheld : Server.HeldWithin names held) (hr : r.Within names)
    (hanswer : w.answer held r = (after, held', reply)) :
    World.Beside names w after ∧ Server.HeldWithin names held' := by
  match r with
  | .call c =>
      obtain ⟨hafter, hothers⟩ :=
        Server.within_answer (s := w.driver) hheld hr (w.supply.identity w.identities)
      have hconnected := w.driver.connected_answer held (w.supply.identity w.identities) c
      have hfaults := w.driver.faults_answer held (w.supply.identity w.identities) c
      cases hanswer
      exact ⟨⟨hconnected, hfaults, hothers⟩, hafter⟩
  | .identity | .draw _ | .now | .stored | .addStored _ | .clearStored | .takeBegun _ =>
      cases hanswer
      exact ⟨⟨rfl, List.suffix_rfl, fun _ _ => rfl⟩, hheld⟩

end World.Beside

/-! ### Confined tasks -/

/-- A client keeps to some collections: all that it may ask for is about them. It has
only one point, and may come to anything. -/
def Conduct.within (names : List String) : Conduct Unit where
  start := ()
  next _ _ _ := ()
  asks _ _ r := r.Within names
  ends _ _ := True

/-- A client that keeps to them changes no other, request by request, from whatever it
holds at the beginning. -/
theorem Conduct.Meets.beside {γ : Type} {post : Unit → Standing → γ → Prop} {known : Standing}
    {p : Program requests γ} (h : (Conduct.within names).Meets post () known p) (w : World Server)
    {held : Option Transaction} (hheld : Server.HeldWithin names held) :
    World.Beside names w (Program.run World.exchange (w, held) p).1.1 := by
  induction p generalizing w held known with
  | done a => exact .refl names w
  | ask r next ih =>
      obtain ⟨hmiddle, hheld'⟩ := World.Beside.answer hheld h.1 rfl
      exact hmiddle.trans (ih _ (h.2 default _) _ hheld')

/-- A task keeps to some collections, and what it comes to is good, if it comes to
anything. -/
def Confined {α : Type} (names : List String) (good : α → Prop) (t : Task α) : Prop :=
  ∀ known, (Conduct.within names).Meets (fun _ _ result => ∀ a, result = .ok a → good a) () known
    t.run

/-- Whatever a task comes to. Most tasks are confined whatever they are told, and need
nothing to be known of their results. -/
def anything {α : Type} (_ : α) : Prop := True

namespace Confined

variable {α β : Type} {good : α → Prop} {better : β → Prop} {t : Task α}

/-- A task that makes no request is confined to every collection there is. -/
theorem pure {a : α} (h : good a) : Confined names good (pure a) := by
  rintro known _ ⟨⟩
  exact h

/-- A result that is there already comes from no request, so it only has to be good
where it is one. -/
theorem ofResult {result : Attempted α} (h : ∀ a, result = .ok a → good a) :
    Confined names good (StoreBench.Task.ofResult result) := fun _ => h

/-- Decoding a row makes no request, whether it can be decoded or not. -/
theorem lift (result : Except BenchError α) :
    Confined names anything (liftM result : Task α) := fun _ _ _ => trivial

/-- A computation that may break off makes no request, so that it is confined to any
tables. -/
theorem lift_computed (result : Except Crash α) :
    Confined names anything (liftM result : Task α) := fun _ _ _ => trivial

/-- A task that fails makes no request, and comes to nothing that would have to be good. -/
theorem throw (failure : Failure) : Confined names good (throw failure : Task α) := nofun

/-- Nothing follows a task that failed, so nothing need be shown of what was to follow. -/
theorem throw_bind (failure : Failure) (f : α → Task β) :
    Confined names better ((MonadExcept.throw failure : Task α) >>= f) := nofun

/-- Two tasks after each other are confined, where the second one is for every good
result of the first. -/
theorem bind {f : α → Task β} (h : Confined names good t)
    (hnext : ∀ a, good a → Confined names better (f a)) : Confined names better (t >>= f) := by
  refine fun known => Conduct.Meets.task_bind ((h known).mono ?_)
  intro _ known result hresult
  cases result with
  | ok a => exact hnext a (hresult a rfl) known
  | error failure => exact nofun

/-- A request that is answered with a result is confined, where it is about these
collections and all that may follow is confined. -/
theorem request {r : Request} {next : r.Reply → Program requests (Attempted α)}
    (hr : r.Within names)
    (hnext : ∀ reply, Confined names good (ExceptT.mk (next reply))) :
    Confined names good (ExceptT.mk (.ask r next)) := fun _ =>
  ⟨hr, fun _ reply => hnext reply _⟩

/-- A request by itself is confined to the tables that it is within. -/
theorem ask {r : Request} (hr : r.Within names) : Confined names anything (Task.ask r) :=
  request hr fun _ => ofResult fun _ _ => trivial

/-- A query by itself writes nothing, whatever it is about. So checks are confined
although they read everything. -/
theorem query (s : Statement) : Confined names anything (Task.query s) :=
  request trivial fun _ => ofResult fun _ _ => trivial

/-- A query for the first row writes nothing, whatever it is about. -/
theorem queryRow (s : Statement) : Confined names anything (Task.queryRow s) :=
  (query s).bind fun _ _ => .pure trivial

/-- A statement in a transaction has to be about one of the collections, as its changes
are made at the commit. -/
theorem execIn {s : Statement} (h : s.Within names) : Confined names anything (Task.execIn s) :=
  request h fun _ => ofResult fun _ _ => trivial

/-- So has a query in a transaction: it makes the transaction hold a copy of its
collection. -/
theorem queryIn {s : Statement} (h : s.Within names) : Confined names anything (Task.queryIn s) :=
  request h fun _ => ofResult fun _ _ => trivial

/-- A task whose result nobody asks for is confined as the task is. -/
theorem discard (h : Confined names good t) : Confined names anything (discard t) :=
  fun known => Conduct.Meets.discarded ((h known).mono fun _ _ _ _ _ _ => trivial)

/-- A transaction is confined where its body is. What ends it, a commit or a rollback,
is about what the body left in it. -/
theorem transact {body : Task Unit} (h : Confined names anything body) :
    Confined names anything (Task.transact body) := by
  intro known
  refine Conduct.Meets.transact trivial (fun _ _ _ => trivial) ((h (some [])).mono ?_)
  intro _ known result _
  match result with
  | .ok () => exact ⟨trivial, fun _ _ _ _ => trivial⟩
  | .error (.error e) => exact ⟨trivial, fun _ _ _ _ => trivial⟩
  | .error (.crash c) => exact ⟨trivial, fun _ _ _ _ => trivial⟩

/-- A task for each of some items is confined where each of these tasks is. -/
theorem forM {f : α → Task PUnit} {items : List α}
    (h : ∀ a ∈ items, Confined names anything (f a)) : Confined names anything (items.forM f) := by
  induction items with
  | nil => exact .pure trivial
  | cons a rest ih =>
      obtain ⟨ha, hrest⟩ := List.forall_mem_cons.mp h
      exact ha.bind fun _ _ => ih hrest

/-- Statements one after the other in one transaction, as set-ups and teardowns make
them. -/
theorem execAll {statements : List Statement} (h : ∀ s ∈ statements, s.Within names) :
    Confined names anything (Task.execAll statements) := by
  cases statements with
  | nil => exact .pure trivial
  | cons s rest => exact transact (forM fun s hs => discard (execIn (h s hs)))

/-! ### What they leave -/

variable {w : World Server} {after : World Server}

/-- A client that nobody interrupts changes only these collections. This is the case of
set-ups, checks and teardowns. -/
theorem site_run (h : Confined names good t) {result : Attempted α}
    (hrun : World.site.run w t.run = (after, result)) : World.Beside names w after := by
  rw [site_run_eq] at hrun
  obtain ⟨rfl, -⟩ := Prod.mk.inj hrun
  exact (h none).beside w (Server.heldWithin_none names)

/-- Each client holds nothing but these collections, and goes on with a program that
keeps to them. -/
def Staff (names : List String) (c : Clients) : Prop :=
  ∀ hand ∈ c.hands, Server.HeldWithin names hand.held ∧ ∀ p, hand.rest = some p →
    ∃ known, (Conduct.within names).Meets (fun _ _ _ => True) () known p

variable {attempt : Try → Task Unit}

/-- One event in the work of clients whose attempts are confined changes only these
collections, and leaves everybody confined in what is left of the attempt. -/
theorem clients_step (h : ∀ t, Confined names anything (attempt t)) {c : Clients}
    (hstaff : Staff names c) (e : Crew.Event) :
    World.Beside names c.state (c.step World.site attempt e).state ∧
      Staff names (c.step World.site attempt e) := by
  rcases c.step_cases World.site attempt e with hstep | ⟨event, -, hstep⟩ |
    ⟨i, hand, r, next, hhand, hrest, -, hstep⟩ | ⟨i, hand, event, hhand, -, -, hstep⟩ <;> rw [hstep]
  · exact ⟨.refl names _, hstaff⟩
  · exact ⟨.refl names _, hstaff⟩
  · -- A request is answered, which is all that the world notices.
    obtain ⟨hheld, hprogram⟩ := hstaff hand (List.mem_of_getElem? hhand)
    obtain ⟨known, hr, hnext⟩ := hprogram _ hrest
    rcases hanswer : c.state.answer hand.held r with ⟨after, held', reply⟩
    obtain ⟨hafter, hheld'⟩ := World.Beside.answer hheld hr hanswer
    rw [Clients.exchange_eq hanswer]
    refine ⟨hafter, fun other hother => ?_⟩
    rcases List.mem_or_eq_of_mem_set hother with hbefore | rfl
    · exact hstaff other hbefore
    · refine ⟨hheld', ?_⟩
      rintro _ ⟨⟩
      exact ⟨_, hnext default reply⟩
  · -- An attempt is over. The client keeps what it holds, and may begin another one.
    refine ⟨.refl names _, fun other hother => ?_⟩
    rcases List.mem_or_eq_of_mem_set hother with hbefore | rfl
    · exact hstaff other hbefore
    · refine ⟨(hstaff hand (List.mem_of_getElem? hhand)).1, ?_⟩
      intro p hp
      obtain ⟨t, -, rfl⟩ := Option.map_eq_some_iff.mp hp
      exact ⟨none, (h t none).mono fun _ _ _ _ => trivial⟩

/-- Any number of events, by induction on the schedule with the clients of each moment. -/
theorem clients_events (h : ∀ t, Confined names anything (attempt t)) (schedule : List Crew.Event)
    {c : Clients} (hstaff : Staff names c) :
    World.Beside names c.state (c.run World.site attempt schedule).state := by
  induction schedule generalizing c with
  | nil => exact .refl names _
  | cons e rest ih =>
      obtain ⟨hafter, hstaff'⟩ := clients_step h hstaff e
      exact hafter.trans (ih hstaff')

/-- Any number of clients whose requests are answered in any order change only these
collections. They begin with nothing held, so nothing is asked of the world. -/
theorem clients_run (h : ∀ t, Confined names anything (attempt t)) (config : PoolConfig)
    (template : Recorder) (w : World Server) (schedule : List Crew.Event) :
    World.Beside names w ((Crew.start World.site config template {} w).run World.site attempt
      schedule).state := by
  refine clients_events (c := Crew.start World.site config template {} w) h schedule ?_
  intro hand hhand
  obtain rfl := List.eq_of_mem_replicate hhand
  exact ⟨Server.heldWithin_none names, nofun⟩

end Confined

end StoreBench.Scenario
