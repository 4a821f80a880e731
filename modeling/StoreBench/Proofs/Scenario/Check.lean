import StoreBench.Proofs.Scenario.Transact

/-!
# `StoreBench.Proofs.Scenario.Check`: what a check finds

The check of a workload only reads, and nobody interrupts it, so nothing but the
count of identities changes from one of its queries to the next.
`World.Finds` says what such a program comes to in a world, and has a rule for
each of the requests that checks make.
-/

set_option autoImplicit false

namespace StoreBench.Scenario

/-- A query by itself has the answer of the store. -/
theorem World.run_query {σ τ : Type} [Driver σ τ] (w : World σ) (statement : Statement) :
    (World.site.run w (Task.query statement).run).2
      = (Driver.answer w.driver none (w.supply.identity w.identities) (.query statement)).2.2 := rfl

/-- What a program comes to that nobody interrupts, however many identities
were taken before. -/
def World.Finds {α : Type} (w : World Server) (p : Program requests α) (a : α) : Prop :=
  ∀ identities, (World.site.run { w with identities := identities } p).2 = a

namespace World.Finds

variable {α β : Type} {w : World Server}

/-- That is what it comes to from the world as it is. -/
theorem result {p : Program requests α} {a : α} (h : w.Finds p a) :
    (World.site.run w p).2 = a := h w.identities

/-- A check that is done has found what it has found, with nothing asked. -/
theorem done (w : World Server) (a : α) : w.Finds (.done a) a := fun _ => rfl

variable {a : Attempted β}

/-- A query finds what is in the collection. -/
theorem query {name : String} {action : Action} {next : List Row → Task β}
    (hconnected : w.driver.connected = true) (hread : action.isRead = true)
    (h : w.Finds (next ((w.driver.store.docs name).rows action)).run a) :
    w.Finds (Task.query (.on name action) >>= next).run a := by
  intro identities
  have hquery : w.driver.query (.on name action)
      = (w.driver, .ok ((w.driver.store.docs name).rows action)) := by
    simp only [Server.query, Server.checkConnected, hconnected, if_true, Server.queryOf,
      Server.commandOf, Statement.on, bind, Except.bind, hread, Server.autocommit]
    rfl
  have hask : (Task.query (.on name action) >>= next).run
      = .ask (.call (.query (.on name action))) (ExceptT.bindCont next) := rfl
  rw [hask]
  simp only [Site.run, Program.run, World.site, World.answer, Driver.answer, Server.answer, hquery]
  exact h (identities + 1)

/-- The count of stored events is what it is. -/
theorem stored {next : Nat → Task β} (h : w.Finds (next w.stored).run a) :
    w.Finds (Task.stored >>= next).run a := fun identities => h identities

/-- A row that could be decoded is there already, so a check goes on with it. -/
theorem lift {b : α} {next : α → Task β} {decoded : Except BenchError α}
    (hdecoded : decoded = .ok b) (h : w.Finds (next b).run a) :
    w.Finds (liftM decoded >>= next).run a := by
  rw [hdecoded]
  exact h

/-- What was computed without breaking off is there already, so a check goes on with it. -/
theorem lift_computed {b : α} {next : α → Task β} {computed : Except Crash α}
    (hcomputed : computed = .ok b) (h : w.Finds (next b).run a) :
    w.Finds (liftM computed >>= next).run a := by
  rw [hcomputed]
  exact h

end World.Finds

end StoreBench.Scenario
