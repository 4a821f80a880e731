import StoreBench.Proofs.Document.Serializable

/-!
# `StoreBench.Proofs.Document.Turns`: what a step does to an open transaction

Seen from one client, a step of the traffic is one of a few things
(`Traffic.turn`). It makes a command in the client's open transaction, which
succeeds or stumbles; it begins a transaction or ends one; or it leaves what the
client holds and what its statements came to as they were. What the store becomes by
any step (`Traffic.becomes_step`) is a later state of it, and a sound one.

Invariants of open transactions are proved by going through these cases.
-/

set_option autoImplicit false

namespace StoreBench.Traffic

variable {t : Traffic} {l : Ledger} {client : Nat}

/-! ### The store -/

/-- Every step installs collections, clears the store, or leaves it as it was. -/
theorem becomes_step (t : Traffic) (e : Event) :
    t.server.store.Becomes (t.answer e).1.server.store := by
  cases e with
  | call client fresh c => exact Server.becomes_answer _ _ _ _
  | connect address =>
      simp only [answer, Server.connect]
      split <;> exact .same
  | reset =>
      simp only [answer, Server.reset]
      split
      · exact Store.Becomes.same.clear
      · exact .same
  | close | inject faults => exact .same

/-- Every step leads to a later state of the store. -/
theorem since_step (t : Traffic) (e : Event) :
    t.server.store.Since (t.answer e).1.server.store := (becomes_step t e).since

/-- Every step keeps the store sound. -/
theorem sound_step (h : t.server.store.Sound) (e : Event) :
    (t.answer e).1.server.store.Sound := (becomes_step t e).sound h

/-- A commit that succeeds installs the transaction that the client held. -/
theorem commit_ok {fresh : String} (h : (t.answer (.call client fresh .commit)).2 = .ok ()) :
    ∃ tx, t.held client = some tx ∧ tx.commit t.server.store
      = .ok (t.answer (.call client fresh .commit)).1.server.store := by
  cases hheld : t.held client with
  | none =>
      simp only [answer, Server.answer, hheld] at h
      cases h
  | some tx =>
      rcases hcommit : t.server.commit tx with ⟨server, result⟩
      simp only [answer, Server.answer, hheld, hcommit] at h ⊢
      subst h
      exact ⟨tx, rfl, Server.commit_ok_store hcommit⟩

/-! ### Turns -/

/-- The command that a step makes in the open transaction of a client. A
statement that is none, and a query that is no read, are refused before they come
to the transaction. -/
def Event.inside? : Event → Option (Nat × Command)
  | .call client fresh (.execIn (.document command)) => some (client, command.identified fresh)
  | .call client _ (.queryIn (.document command)) =>
    if command.action.isRead then some (client, command) else none
  | _ => none

/-- What becomes of what a client holds, and of the deeds that it has noted
down, by one step of the traffic. -/
inductive Turn (client : Nat) (t : Traffic) (l : Ledger) (e : Event) :
    Option Transaction → List Deed → Prop
  /-- Nothing, if it has a statement refused or it is not its turn. -/
  | kept : Turn client t l e (t.held client) (l.pending client)
  /-- It has no transaction after that. -/
  | ended : Turn client t l e none (l.pending client)
  | begun {fresh : String} (hbegin : e = .call client fresh .begin) :
      Turn client t l e (some []) []
  /-- A command succeeds in its transaction. -/
  | acted {tx after : Transaction} {command : Command} {outcome : Outcome} {seen : Seen}
      (hheld : t.held client = some tx) (hinside : e.inside? = some (client, command))
      (happly : tx.apply t.server.store command = (after, .ok outcome))
      (hseen : seen.Shows outcome) :
      Turn client t l e (some after) (l.pending client ++ [⟨command, seen⟩])
  /-- A command fails in its transaction. -/
  | stumbled {tx after : Transaction} {command : Command} {failure : Failure}
      (hheld : t.held client = some tx) (hinside : e.inside? = some (client, command))
      (happly : tx.apply t.server.store command = (after, .error failure)) :
      Turn client t l e (some after) (l.pending client)

/-- What a client notes down of a call concerns no other client. -/
theorem Ledger.sameFor_recordCall (l : Ledger) {caller other : Nat} (h : caller ≠ other)
    (fresh : String) (c : Call) (reply : c.Reply) :
    l.SameFor (l.recordCall caller fresh c reply) other := by
  cases c with
  | exec statement | query statement => exact l.sameFor_single _ other
  | execIn statement | queryIn statement => exact l.sameFor_note h _
  | begin =>
      cases reply with
      | ok _ => exact l.sameFor_begin h
      | error e => exact l.sameFor_self other
  | commit =>
      cases reply with
      | ok _ => exact l.sameFor_add _ other
      | error e => exact l.sameFor_self other
  | rollback e | abandon => exact l.sameFor_self other

section Turn

variable {e : Event} {held : Option Transaction} {pending : List Deed}

/-- Whoever holds the same and has the same pending is at the same turn. -/
theorem Turn.of_eq (hheld : held = t.held client) (hpending : pending = l.pending client) :
    Turn client t l e held pending := by
  rw [hheld, hpending]
  exact .kept

/-- The turn of a statement in the open transaction, which the ledger notes down. -/
theorem turn_execIn (t : Traffic) (l : Ledger) {tx : Transaction}
    (hheld : t.held client = some tx) (fresh : String) (statement : Statement) :
    Turn client t l (.call client fresh (.execIn statement))
      (some (t.server.execIn tx fresh statement).1)
      ((l.note client (deed? fresh statement
        ((t.server.execIn tx fresh statement).2.map .affected))).pending client) := by
  cases statement with
  | sql text params => exact .of_eq hheld.symm rfl
  | document command =>
      rcases happly : tx.apply t.server.store (command.identified fresh) with ⟨after, result⟩
      simp only [Server.execIn, Server.commandOf, happly]
      cases result with
      | error failure => exact .stumbled hheld rfl happly
      | ok outcome =>
          rw [show deed? fresh (.document command) _ = some ⟨_, .affected outcome.affected⟩
            from rfl, Ledger.pending_note_some]
          exact .acted hheld rfl happly rfl

/-- The turn of a query in the open transaction, which the ledger notes down with its
rows. -/
theorem turn_queryIn (t : Traffic) (l : Ledger) {tx : Transaction}
    (hheld : t.held client = some tx) (fresh : String) (statement : Statement) :
    Turn client t l (.call client fresh (.queryIn statement))
      (some (t.server.queryIn tx statement).1)
      ((l.note client (deed? fresh statement
        ((t.server.queryIn tx statement).2.map .rows))).pending client) := by
  cases statement with
  | sql text params => exact .of_eq hheld.symm rfl
  | document command =>
      by_cases hread : command.action.isRead = true
      · have hinside : (Event.call client fresh (.queryIn (.document command))).inside?
            = some (client, command) := if_pos hread
        rcases happly : tx.apply t.server.store command with ⟨after, result⟩
        simp only [Server.queryIn, Server.queryOf, Server.commandOf, bind, Except.bind, hread,
          if_true, happly]
        cases result with
        | error failure => exact .stumbled hheld hinside happly
        | ok outcome =>
            -- A query has no document to identify, so its deed is the command itself.
            rw [show deed? fresh (.document command) _ = some ⟨_, .rows outcome.rows⟩ from rfl,
              Ledger.pending_note_some, Command.identified_of_isRead hread]
            exact .acted hheld hinside happly rfl
      · simp only [Server.queryIn, Server.queryOf, Server.commandOf, bind, Except.bind, hread,
          Bool.false_eq_true, if_false]
        exact .of_eq hheld.symm rfl

/-- What a call leaves to the client that makes it. -/
theorem turn_own (t : Traffic) (l : Ledger) (client : Nat) (fresh : String) (c : Call) :
    Turn client t l (.call client fresh c) (t.server.answer (t.held client) fresh c).2.1
      ((l.recordCall client fresh c
        (t.server.answer (t.held client) fresh c).2.2).pending client) := by
  cases c with
  | exec statement | query statement => exact .of_eq rfl (l.sameFor_single _ client).1
  | begin =>
      simp only [Server.answer]
      cases t.server.checkConnected with
      | ok _ =>
          simp only [Ledger.recordCall, Ledger.pending_begin]
          exact .begun rfl
      | error e => exact .kept
  | execIn statement =>
      cases hheld : t.held client with
      | none =>
          refine .of_eq hheld.symm ?_
          cases statement <;> rfl
      | some tx => exact turn_execIn t l hheld fresh statement
  | queryIn statement =>
      cases hheld : t.held client with
      | none =>
          refine .of_eq hheld.symm ?_
          cases statement <;> rfl
      | some tx => exact turn_queryIn t l hheld fresh statement
  | commit =>
      -- The transaction is over, whether the commit succeeds or not.
      cases hheld : t.held client with
      | none => exact .ended
      | some tx =>
          simp only [Server.answer]
          cases (t.server.commit tx).2 <;> exact .ended
  | rollback e | abandon => exact .ended

/-- Seen from a client, every step is a turn. -/
theorem turn (t : Traffic) (l : Ledger) (client : Nat) (e : Event) :
    Turn client t l e ((follow (t, l) e).1.held client) ((follow (t, l) e).2.pending client) := by
  cases e with
  | connect address | close | inject faults => exact .kept
  | reset =>
      refine .of_eq ?_ ?_
      · simp only [follow, answer]
      · show (l.record .reset (t.answer .reset).2).pending client = l.pending client
        cases (t.answer .reset).2 <;> rfl
  | call caller fresh c =>
      -- What others call leaves what this client holds and has noted down.
      by_cases hcaller : caller = client
      · subst hcaller
        have hown : (follow (t, l) (.call caller fresh c)).1.held caller
            = (t.server.answer (t.held caller) fresh c).2.1 := putFor_self _ _ _
        rw [hown]
        exact turn_own t l caller fresh c
      · refine .of_eq (putFor_of_ne hcaller _ _) ?_
        exact (l.sameFor_recordCall hcaller fresh c _).1

end Turn

end StoreBench.Traffic
