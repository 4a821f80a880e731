import StoreBench.Proofs.Document.Answers
import StoreBench.Scenario.World

/-!
# `StoreBench.Proofs.Scenario.Transact`: the requests of a transaction

`Task.transact` is a program like any other. `transact_run` says which requests
it makes, in which order: one that begins, those of its body, and one that ends
(`closing`), chosen by what the body came to. Between two of them any other
client may have its turn.

A client that nobody interrupts has its requests answered one after the other
(`site_run_eq`), which is how set-ups and checks run.
-/

set_option autoImplicit false

namespace StoreBench.Scenario

namespace Task

/-- The end of a transaction, by what its body came to. -/
def closing : Attempted Unit → Program requests (Attempted Unit)
  | .ok () => .ask (.call .commit) fun reply => .done (reply.mapError Failure.error)
  | .error (.error e) => .ask (.call (.rollback e)) fun _ => .done (.error (.error e))
  | .error (.crash c) => .ask (.call .abandon) fun _ => .done (.error (.crash c))

/-- A transaction after the reply to the request that begins it. -/
def opened (body : Task Unit) : Except BenchError Unit → Program requests (Attempted Unit)
  | .ok () => body.run.bind closing
  | .error e => .done (.error (.error e))

/-- A transaction begins, has its body run and ends by what came of it. -/
theorem transact_run (body : Task Unit) :
    (transact body).run = .ask (.call .begin) (opened body) := by
  refine congrArg (Program.ask _) (funext ?_)
  intro reply
  cases reply with
  | error e => rfl
  | ok connected =>
      -- The body first, then an end that goes by its result.
      show Program.bind (Program.bind body.run _) _ = body.run.bind closing
      rw [Program.bind_assoc]
      refine congrArg (Program.bind body.run) (funext ?_)
      intro result
      match result with
      | .ok () =>
          refine congrArg (Program.ask _) (funext ?_)
          intro reply
          cases reply <;> rfl
      | .error (.error e) => rfl
      | .error (.crash c) => rfl

/-- A batch of statements is a transaction of them, one after the other. -/
theorem execAll_of_ne_nil {statements : List Statement} (h : statements ≠ []) :
    execAll statements = transact (statements.forM fun s => discard (execIn s)) := by
  cases statements with
  | nil => exact absurd rfl h
  | cons s rest => rfl

end Task

/-- A request of a client that nobody interrupts, and what it holds then. -/
def World.exchange (s : World Server × Option Transaction) (r : Request) :
    (World Server × Option Transaction) × r.Reply :=
  (((s.1.answer s.2 r).1, (s.1.answer s.2 r).2.1), (s.1.answer s.2 r).2.2)

/-- A program that asks goes on with the reply, from where the request left the world. -/
theorem run_ask {α : Type} (s : World Server × Option Transaction) (r : requests.Request)
    (next : requests.Reply r → Program requests α) :
    Program.run World.exchange s (.ask r next)
      = Program.run World.exchange (World.exchange s r).1 (next (World.exchange s r).2) := rfl

/-- At a site such a client has its requests answered one after the other. -/
theorem site_run_eq {α : Type} (w : World Server) (p : Program requests α) :
    World.site.run w p
      = ((Program.run World.exchange (w, none) p).1.1,
        (Program.run World.exchange (w, none) p).2) := rfl

/-- No identity is taken twice from the supply: their count only grows. -/
theorem identities_le_run {α : Type} (w : World Server) (p : Program requests α) :
    w.identities ≤ (World.site.run w p).1.identities := by
  have hrun (held : Option Transaction) :
      w.identities ≤ (Program.run World.exchange (w, held) p).1.1.identities := by
    induction p generalizing w held with
    | done a => exact Nat.le_refl _
    | ask r next ih =>
        have hone : w.identities ≤ (World.exchange (w, held) r).1.1.identities := by
          cases r with
          | call c => exact Nat.le_succ _
          | identity => exact Nat.le_succ _
          | draw | now | stored | addStored | clearStored | takeBegun => exact Nat.le_refl _
        exact Nat.le_trans hone (ih _ _ _)
  exact hrun none

/-- No request connects the store of a world or closes it. -/
theorem connected_answer (w : World Server) (held : Option Transaction) (r : Request) :
    (w.answer held r).1.driver.connected = w.driver.connected := by
  cases r with
  | call c => exact Server.connected_answer _ _ _ c
  | identity | draw | now | stored | addStored | clearStored | takeBegun => rfl

end StoreBench.Scenario
