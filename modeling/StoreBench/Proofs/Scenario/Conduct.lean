import StoreBench.Proofs.Document.Refusal
import StoreBench.Proofs.Document.Serializable
import StoreBench.Proofs.Scenario.Transact

/-!
# `StoreBench.Proofs.Scenario.Conduct`: what a client asks, whatever it is answered

A client is a program that goes on with whatever it is answered. A `Conduct`
says of such a client what it may ask at every point and what it may end with.
The points are of any type `G` that suits the workload; beside them a client has
its `Standing`, the deeds that its open transaction stands for. `Conduct.Meets`
holds of a program that keeps to a conduct under every answer, and is proved
along the program: `Meets.bind`, `Meets.ask_bind`, `Meets.transact` and those for
loops are its rules.

What makes a standing worth having is `Holds`: the transaction that a client
holds at a store stands for those deeds, and is new before the first of them. Every
answer keeps this
(`Holds.answer`), whoever it is given to (`Holds.since`), and when such a
transaction is committed the store is changed as a serial run of the deeds
would (`Holds.commit`). Nothing but a commit changes the store of a client that
makes no statement by itself (`store_of_not_commit`).
-/

set_option autoImplicit false

namespace StoreBench.Scenario

/-- Whether an exchange is a commit that succeeded. One that was refused installed
nothing. -/
def isCommit : (r : Request) × r.Reply → Bool
  | ⟨.call .commit, .ok ()⟩ => true
  | _ => false

/-- The deeds that the open transaction of a client stands for, if it has one
and no statement in it failed. -/
abbrev Standing := Option (List Deed)

namespace Standing

/-- Another deed, or a statement that failed, after which nothing is known any more. -/
def add (known : Standing) (deed : Option Deed) : Standing :=
  known.bind fun deeds => deed.map fun d => deeds ++ [d]

/-- The standing after the reply to a request: what is known of the transaction that is
open. -/
def after (known : Standing) (fresh : String) : (r : Request) → r.Reply → Standing
  | .call .begin, .ok () => some []
  | .call (.execIn s), reply => known.add (Traffic.deed? fresh s (reply.map .affected))
  | .call (.queryIn s), reply => known.add (Traffic.deed? fresh s (reply.map .rows))
  | .call .commit, _ | .call (.rollback _), _ | .call .abandon, _ => none
  | .call .begin, .error _ | .call (.exec _), _ | .call (.query _), _ => known
  | .identity, _ | .draw _, _ | .now, _ | .stored, _ | .addStored _, _ | .clearStored, _
  | .takeBegun _, _ => known

end Standing

/-- The transaction that a client holds at a store stands for these deeds. Before the
first of them it is a new one, which has not looked at anything. -/
def Holds (s : Store) (held : Option Transaction) (known : Standing) : Prop :=
  ∀ deeds, known = some deeds →
    ∃ tx, held = some tx ∧ tx.Tracks s deeds ∧ (deeds = [] → tx = [])

/-! ### Answers -/

section Answers

variable {w after : World Server} {held held' : Option Transaction} {known : Standing}
  {r : Request} {reply : r.Reply}

/-- Every answer installs collections, or leaves the store as it was. -/
theorem becomes_answer (hanswer : w.answer held r = (after, held', reply)) :
    w.driver.store.Becomes after.driver.store := by
  cases r with
  | call c =>
      have hbecomes := w.driver.becomes_answer held (w.supply.identity w.identities) c
      cases hanswer
      exact hbecomes
  | identity | draw | now | stored | addStored | clearStored | takeBegun =>
      cases hanswer
      exact .same

/-- An answer leaves the store as it was, unless it is to a statement by itself
or a commit that succeeds. -/
theorem store_of_not_commit (hanswer : w.answer held r = (after, held', reply))
    (hexec : ∀ statement, r ≠ .call (.exec statement)) (hnot : isCommit ⟨r, reply⟩ = false) :
    after.driver.store = w.driver.store := by
  cases r with
  | call c =>
      rcases w.driver.store_answer held (w.supply.identity w.identities) c with
        hsame | ⟨statement, rfl, -⟩ | ⟨tx, rfl, rfl, -⟩
      · cases hanswer
        exact hsame
      · exact absurd rfl (hexec statement)
      · rcases hcommit : w.driver.commit tx with ⟨server, result⟩
        simp only [World.answer, Driver.answer, Server.answer, hcommit] at hanswer
        cases hanswer
        cases reply with
        | ok done => cases hnot
        | error e => exact Server.commit_error_store hcommit
  | identity | draw | now | stored | addStored | clearStored | takeBegun =>
      cases hanswer
      rfl

/-- A commit that succeeds is that of the transaction that was held. -/
theorem commit_of_isCommit (hanswer : w.answer held r = (after, held', reply))
    (hcommit : isCommit ⟨r, reply⟩ = true) :
    ∃ tx, held = some tx ∧ tx.commit w.driver.store = .ok after.driver.store := by
  match r, reply, hcommit with
  | .call .commit, .ok (), _ =>
      cases held with
      | none => cases hanswer
      | some tx =>
          rcases hdone : w.driver.commit tx with ⟨server, result⟩
          simp only [World.answer, Driver.answer, Server.answer, hdone] at hanswer
          cases hanswer
          exact ⟨tx, rfl, Server.commit_ok_store hdone⟩

/-- No workload ends because of what the store answers. It ends by what the workload
makes of the answers. -/
theorem isEnd_of_answer {c : Call} {reply : c.Reply}
    (hanswer : w.answer held (.call c) = (after, held', reply)) : c.isEnd reply = false := by
  have hanswered := w.driver.isEnd_answer held (w.supply.identity w.identities) c
  cases hanswer
  exact hanswered

/-- What is known of a transaction stays true, whatever others do. -/
theorem Holds.since {s t : Store} (h : Holds s held known) (hst : s.Since t) :
    Holds t held known := by
  intro deeds hknown
  obtain ⟨tx, hheld, htracks, hnew⟩ := h deeds hknown
  exact ⟨tx, hheld, htracks.since hst, hnew⟩

/-- Nothing is known of a client that has just come. -/
theorem holds_none (s : Store) (held : Option Transaction) : Holds s held none := nofun

/-- A statement in a transaction adds its deed, or nothing is known any more. -/
theorem Holds.add {s : Store} (h : Holds s held known) (hs : s.Sound) {deed : Option Deed}
    (next : Transaction → Transaction)
    (hdeed : ∀ tx d, held = some tx → deed = some d →
      ∃ outcome, tx.apply s d.command = (next tx, .ok outcome) ∧ d.seen.Shows outcome) :
    Holds s (held.map next) (known.add deed) := by
  intro deeds hknown
  obtain ⟨before, hbefore, hadded⟩ := Option.bind_eq_some_iff.mp hknown
  obtain ⟨d, rfl, rfl⟩ := Option.map_eq_some_iff.mp hadded
  obtain ⟨tx, rfl, htracks, -⟩ := h before hbefore
  obtain ⟨outcome, happly, hseen⟩ := hdeed tx d rfl rfl
  refine ⟨next tx, rfl, htracks.apply hs happly hseen, fun hnone => ?_⟩
  exact absurd hnone (List.append_ne_nil_of_right_ne_nil _ (List.cons_ne_nil _ _))

/-- Every answer keeps what is known of the client's own transaction. -/
theorem Holds.answer (h : Holds w.driver.store held known) (hs : w.driver.store.Sound)
    (hanswer : w.answer held r = (after, held', reply)) :
    Holds after.driver.store held' (known.after (w.supply.identity w.identities) r reply) := by
  have hsince := (becomes_answer hanswer).since
  match r with
  | .call .begin =>
      simp only [World.answer, Driver.answer, Server.answer] at hanswer
      cases hconnected : w.driver.checkConnected with
      | ok connected =>
          simp only [hconnected] at hanswer
          cases hanswer
          -- Nothing has been done in the new transaction.
          intro deeds hknown
          obtain rfl := Option.some.inj hknown
          exact ⟨[], rfl, Transaction.tracks_nil _, fun _ => rfl⟩
      | error e =>
          simp only [hconnected] at hanswer
          cases hanswer
          exact h
  | .call (.execIn statement) =>
      cases held with
      | none =>
          cases hanswer
          -- Outside a transaction nothing was known to begin with.
          intro deeds hknown
          obtain ⟨before, hbefore, -⟩ := Option.bind_eq_some_iff.mp hknown
          obtain ⟨tx, hnone, -⟩ := h before hbefore
          cases hnone
      | some tx =>
          cases hanswer
          -- What was known goes on with what the statement did, if it did anything.
          refine h.add hs
            (fun tx => (w.driver.execIn tx (w.supply.identity w.identities) statement).1) ?_
          intro tx' d htx hd
          obtain rfl := Option.some.inj htx
          rcases Traffic.execIn_effect w.driver tx (w.supply.identity w.identities) statement with
            hnone | ⟨d', outcome, hd', happly, hseen⟩
          · cases hnone.symm.trans hd
          · obtain rfl := Option.some.inj (hd'.symm.trans hd)
            exact ⟨outcome, happly, hseen⟩
  | .call (.queryIn statement) =>
      cases held with
      | none =>
          cases hanswer
          intro deeds hknown
          obtain ⟨before, hbefore, -⟩ := Option.bind_eq_some_iff.mp hknown
          obtain ⟨tx, hnone, -⟩ := h before hbefore
          cases hnone
      | some tx =>
          cases hanswer
          refine h.add hs (fun tx => (w.driver.queryIn tx statement).1) ?_
          intro tx' d htx hd
          obtain rfl := Option.some.inj htx
          rcases Traffic.queryIn_effect w.driver tx (w.supply.identity w.identities) statement with
            hnone | ⟨d', outcome, hd', happly, hseen⟩
          · cases hnone.symm.trans hd
          · obtain rfl := Option.some.inj (hd'.symm.trans hd)
            exact ⟨outcome, happly, hseen⟩
  | .call .commit | .call (.rollback _) | .call .abandon => exact holds_none _ _
  | .call (.exec statement) | .call (.query statement) =>
      -- The transaction is as it was, and the store may only have gone on.
      have hheld : held' = held := by
        cases hanswer
        rfl
      rw [hheld]
      exact h.since hsince
  | .identity | .draw _ | .now | .stored | .addStored _ | .clearStored | .takeBegun _ =>
      cases hanswer
      exact h

/-- A commit changes the store as a serial run of the deeds does that the
transaction stands for, and the run shows what its client saw. -/
theorem Holds.commit {deeds : List Deed} (h : Holds w.driver.store held (some deeds))
    (hanswer : w.answer held r = (after, held', reply)) (hcommit : isCommit ⟨r, reply⟩ = true) :
    Contents.Explains w.driver.store.docs deeds ∧
      Contents.run w.driver.store.docs deeds = after.driver.store.docs := by
  obtain ⟨tx, rfl, hstore⟩ := commit_of_isCommit hanswer hcommit
  obtain ⟨tx', htx, htracks, -⟩ := h deeds rfl
  obtain rfl := Option.some.inj htx
  exact htracks.commit hstore

end Answers

/-! ### Conducts -/

/-- What clients of a workload may ask, and what they may come to. -/
structure Conduct (G : Type) where
  /-- Where an attempt begins. -/
  start : G
  /-- Where the reply to a request leads. -/
  next : G → (r : Request) → r.Reply → G
  asks : G → Standing → Request → Prop
  ends : G → Attempted Unit → Prop

namespace Conduct

variable {G α β : Type} {c : Conduct G}

/-- Whatever a program is answered, it asks what it may, and what it comes to is
as stated. -/
def Meets (c : Conduct G) (post : G → Standing → α → Prop) :
    G → Standing → Program requests α → Prop
  | g, known, .done a => post g known a
  | g, known, .ask r next =>
    c.asks g known r ∧ ∀ fresh reply,
      Meets c post (c.next g r reply) (known.after fresh r reply) (next reply)

variable {post : G → Standing → β → Prop} {g : G} {known : Standing}

/-- A program and what follows it, from wherever the first one may have come to. -/
theorem Meets.bind {p : Program requests α} {f : α → Program requests β}
    (h : c.Meets (fun g known a => c.Meets post g known (f a)) g known p) :
    c.Meets post g known (p.bind f) := by
  induction p generalizing g known with
  | done a => exact h
  | ask r next ih => exact ⟨h.1, fun fresh reply => ih reply (h.2 fresh reply)⟩

/-- A program that comes to more comes to less, so that conditions can be weakened at
the end. -/
theorem Meets.mono {p : Program requests β} {weaker : G → Standing → β → Prop}
    (h : c.Meets post g known p) (himp : ∀ g known b, post g known b → weaker g known b) :
    c.Meets weaker g known p := by
  induction p generalizing g known with
  | done b => exact himp _ _ _ h
  | ask r next ih => exact ⟨h.1, fun fresh reply => ih reply (h.2 fresh reply)⟩

/-! ### Tasks -/

/-- What is to be shown of a task after which another follows: the other, if it
succeeds, and its failure. -/
def thenMeets (c : Conduct G) (post : G → Standing → Attempted β → Prop) (f : α → Task β) (g : G)
    (known : Standing) : Attempted α → Prop
  | .ok a => c.Meets post g known (f a).run
  | .error failure => post g known (.error failure)

variable {post : G → Standing → Attempted β → Prop}

/-- A task and the task that follows it, if the first one succeeds. -/
theorem Meets.task_bind {t : Task α} {f : α → Task β}
    (h : c.Meets (c.thenMeets post f) g known t.run) : c.Meets post g known (t >>= f).run := by
  refine Meets.bind (f := fun result => ExceptT.bindCont f result) (h.mono ?_)
  intro g known result hresult
  cases result with
  | ok a => exact hresult
  | error failure => exact hresult

/-- A request and the task that follows it, for every reply that it may get. -/
theorem Meets.ask_bind {r : Request} {f : r.Reply → Task β} (hasks : c.asks g known r)
    (hnext : ∀ fresh reply,
      c.Meets post (c.next g r reply) (known.after fresh r reply) (f reply).run) :
    c.Meets post g known (Task.ask r >>= f).run := ⟨hasks, hnext⟩

/-- A task of which nobody asks more than whether it failed. -/
theorem Meets.discarded {post : G → Standing → Attempted PUnit → Prop} {t : Task α}
    (h : c.Meets (fun g known result => post g known (result.map fun _ => ⟨⟩)) g known t.run) :
    c.Meets post g known (discard t).run := by
  refine Meets.bind (p := t.run) (h.mono ?_)
  intro g known result hresult
  cases result with
  | ok a => exact hresult
  | error failure => exact hresult

/-- The end of a transaction whose body came to a result. -/
def closes (c : Conduct G) (post : G → Standing → Attempted Unit → Prop) (g : G)
    (known : Standing) (result : Attempted Unit) : Prop :=
  c.Meets post g known (Task.closing result)

/-- A transaction begins, has its body run and is closed by what came of it. -/
theorem Meets.transact {post : G → Standing → Attempted Unit → Prop} {body : Task Unit}
    (hbegin : c.asks g known (.call .begin))
    (hrefused : ∀ e, post (c.next g (.call .begin) (.error e)) known (.error (.error e)))
    (hbody : c.Meets (c.closes post) (c.next g (.call .begin) (.ok ())) (some []) body.run) :
    c.Meets post g known (Task.transact body).run := by
  rw [Task.transact_run]
  refine ⟨hbegin, fun fresh reply => ?_⟩
  cases reply with
  | ok connected => exact Meets.bind hbody
  | error e => exact hrefused e

/-! ### Loops -/

/-- A task for each of some items. What holds where so many items remain holds
where one is gone. -/
theorem Meets.forM {post : G → Standing → Attempted PUnit → Prop} {f : α → Task PUnit}
    (remain : List α → G → Standing → Prop)
    (hone : ∀ a rest g known, remain (a :: rest) g known →
      c.Meets (fun g known result => match result with
        | .ok _ => remain rest g known
        | .error failure => post g known (.error failure)) g known (f a).run)
    (hnone : ∀ g known, remain [] g known → post g known (.ok ⟨⟩)) {items : List α}
    (h : remain items g known) : c.Meets post g known (items.forM f).run := by
  induction items generalizing g known with
  | nil => exact hnone g known h
  | cons a rest ih =>
      refine Meets.task_bind ((hone a rest g known h).mono ?_)
      intro g known result hresult
      cases result with
      | ok done => exact ih hresult
      | error failure => exact hresult

/-- A task for each of some items that leaves the client where it is, and the
list of their results. -/
theorem Meets.mapM {post : G → Standing → Attempted (List β) → Prop} {f : α → Task β}
    (good : β → Prop)
    (hone : ∀ a (post : G → Standing → Attempted β → Prop),
      (∀ b, good b → post g known (.ok b)) → c.Meets post g known (f a).run) {items : List α}
    (hall : ∀ results : List β, results.length = items.length → (∀ b ∈ results, good b) →
      post g known (.ok results)) : c.Meets post g known (items.mapM f).run := by
  induction items generalizing post with
  | nil => exact hall [] rfl nofun
  | cons a rest ih =>
      rw [List.mapM_cons]
      refine Meets.task_bind (hone a _ ?_)
      intro b hb
      refine Meets.task_bind (ih ?_)
      intro results hlength hgood
      exact hall (b :: results) (congrArg (· + 1) hlength) (List.forall_mem_cons.mpr ⟨hb, hgood⟩)

/-- Statements one after the other, in an open transaction that stands for all
of them at the end. -/
theorem Meets.execEach {post : G → Standing → Attempted PUnit → Prop} {commands : List Command}
    {deeds : List Deed}
    (hasks : ∀ known command, c.asks g known (.call (.execIn (.document command))))
    (hnext : ∀ command n, c.next g (.call (.execIn (.document command))) (.ok n) = g)
    (hown : ∀ command ∈ commands, ∀ fresh, command.identified fresh = command)
    (hok : ∀ new : List Deed, new.map Deed.command = commands →
      post g (some (deeds ++ new)) (.ok ⟨⟩))
    (herror : ∀ command known failure,
      post (c.next g (.call (.execIn (.document command))) (.error failure)) known
        (.error failure)) :
    c.Meets post g (some deeds)
      ((commands.map Statement.document).forM fun s => discard (Task.execIn s)).run := by
  induction commands generalizing deeds with
  | nil =>
      have hnone := hok [] rfl
      rwa [List.append_nil] at hnone
  | cons command rest ih =>
      refine Meets.task_bind (Meets.discarded ⟨hasks _ command, ?_⟩)
      intro fresh reply
      cases reply with
      | error failure => exact herror command _ failure
      | ok n =>
          rw [hnext]
          -- The command has its identity already, so the deed is the one that was asked for.
          have hcommand := hown command List.mem_cons_self fresh
          show c.Meets post g (some (deeds ++ [⟨command.identified fresh, .affected n⟩])) _
          refine ih
            (fun other hother => hown other (List.mem_cons_of_mem _ hother)) ?_
          intro new hnew
          rw [List.append_assoc]
          refine hok _ ?_
          rw [List.singleton_append, List.map_cons, hnew, hcommand]

end Conduct

/-! ### A client alone -/

section Alone

variable {G α : Type} {c : Conduct G} {post : G → Standing → α → Prop}
  (inv : World Server → G → Prop)
  (hstep : ∀ {w after : World Server} {g : G} {known : Standing}
    {held held' : Option Transaction} {r : Request} {reply : r.Reply}, inv w g →
    c.asks g known r → Holds w.driver.store held known →
    w.answer held r = (after, held', reply) → inv after (c.next g r reply))
  {p : Program requests α} {w after : World Server} {a : α}
include hstep

/-- A client whose requests are answered at once, one after the other: what they
keep up holds at its end. -/
theorem Conduct.Meets.run_exchange {g : G} {known : Standing} {held left : Option Transaction}
    (h : c.Meets post g known p) (hinv : inv w g) (hs : w.driver.store.Sound)
    (hholds : Holds w.driver.store held known)
    (hrun : Program.run World.exchange (w, held) p = ((after, left), a)) :
    ∃ g known, post g known a ∧ inv after g := by
  induction p generalizing w g known held with
  | done b =>
      cases hrun
      exact ⟨g, known, h, hinv⟩
  | ask r next ih =>
      rcases hone : w.answer held r with ⟨middle, held', reply⟩
      rw [run_ask, World.exchange, hone] at hrun
      exact ih reply (h.2 (w.supply.identity w.identities) reply) (hstep hinv h.1 hholds hone)
        ((becomes_answer hone).sound hs) (hholds.answer hs hone) hrun

/-- A client that nobody interrupts at a site comes to what its program meets, and the
invariant holds of the site afterwards. -/
theorem Conduct.Meets.site_run {g : G} (h : c.Meets post g none p) (hinv : inv w g)
    (hs : w.driver.store.Sound) (hrun : World.site.run w p = (after, a)) :
    ∃ g known, post g known a ∧ inv after g := by
  rw [site_run_eq] at hrun
  obtain ⟨hafter, ha⟩ := Prod.mk.inj hrun
  exact h.run_exchange inv hstep hinv hs (holds_none _ none) (Prod.ext (Prod.ext hafter rfl) ha)

end Alone

end StoreBench.Scenario
