import StoreBench.Proofs.Scenario.Sale

/-!
# `StoreBench.Proofs.Scenario.Inventory`: selling out without overselling

Any number of clients sell pieces of one product, each as `selling` says, with
their requests mixed in any order. `Sold` is what they keep up: the pieces in the
store are the initial ones less the commits that succeeded, and each such commit
is either handed in as a success or that of a client that is about to do so.
`Sold.advance` says that one request of a client keeps this, and `sellers` puts the
stages of a sale, their requests and this invariant together, so `Upkeep` leads
through whole runs.

A client that found nothing left may hand that in much later. It stays true until
then, as a stock never grows, and `Sold.spent` is what remembers it.
-/

set_option autoImplicit false

namespace StoreBench.Scenario.Stock

variable {inventory : Int} {w after : World Server} {stages : List Stage}
  {commits successes : Nat}

/-! ### What sellers keep up -/

/-- So many commits of a sale of `inventory` pieces succeeded. Each took one piece out
of the store, and is handed in as a success or that of a client that has sold its
piece just now. A client that was told that there is none left was told the truth. -/
structure Sold (inventory : Int) (w : World Server) (stages : List Stage)
    (commits successes : Nat) : Prop where
  stocked : Stocked (w.driver.store.docs "products") (inventory - commits)
  nonneg : 0 ≤ inventory - commits
  balance : successes + stages.count .sold = commits
  spent : .spent ∈ stages → inventory - commits = 0

/-- A sale begins with the whole stock, and with clients that have not done
anything. -/
theorem sold_start (workers : Nat) (hstocked : Stocked (w.driver.store.docs "products") inventory)
    (hnonneg : 0 ≤ inventory) :
    Sold inventory w (List.replicate workers .fresh) 0 0 where
  stocked := by rwa [Int.natCast_zero, Int.sub_zero]
  nonneg := by rwa [Int.natCast_zero, Int.sub_zero]
  balance := (Nat.zero_add _).trans (List.count_replicate ..)
  spent hspent := by cases List.eq_of_mem_replicate hspent

variable {i : Nat} {stage stage' : Stage}

/-- A client that neither sold a piece just now nor before goes to another stage, with
the store as it was. -/
theorem Sold.move (h : Sold inventory w stages commits successes)
    (hstage : stages[i]? = some stage) (hsame : after.driver.store = w.driver.store)
    (hcount : (stage == .sold) = (stage' == .sold))
    (hspent : stage' = .spent → inventory - commits = 0) :
    Sold inventory after (stages.set i stage') commits successes where
  stocked := by
    rw [hsame]
    exact h.stocked
  nonneg := h.nonneg
  balance := by
    have hset := count_set_add hstage stage' .sold
    rw [hcount, Nat.add_right_cancel_iff] at hset
    rw [hset]
    exact h.balance
  spent hmem := by
    rcases List.mem_or_eq_of_mem_set hmem with hbefore | hnow
    · exact h.spent hbefore
    · exact hspent hnow.symm

/-- A step of one client keeps this up, with as many commits more as it made. -/
theorem Sold.advance {n : Nat} (h : Sold inventory w stages commits successes)
    (hstage : stages[i]? = some stage)
    (hadvance : Advance (inventory - commits) w after stage stage' n) :
    Sold inventory after (stages.set i stage') (commits + n) successes := by
  cases hadvance with
  | stay _ hsame =>
      obtain ⟨hi, rfl⟩ := List.getElem?_eq_some_iff.mp hstage
      exact h.move hstage hsame rfl fun hspent => h.spent (hspent ▸ List.getElem_mem hi)
  | take hsame => exact h.move hstage hsame rfl nofun
  | refuse hsame hnone =>
      refine h.move hstage hsame rfl fun _ => ?_
      exact Int.le_antisymm hnone h.nonneg
  | sell hpos hstocked =>
      have hcount : (stages.set i .sold).count .sold = stages.count .sold + 1 :=
        count_set_add hstage .sold .sold
      have hbalance := h.balance
      refine ⟨?_, ?_, ?_, ?_⟩
      · rwa [Int.natCast_succ, ← Int.sub_sub]
      · omega
      · omega
      · -- Nobody was told that there is none left, for there was one.
        intro hspent
        have hmem := (List.mem_or_eq_of_mem_set hspent).resolve_right nofun
        exact absurd (h.spent hmem) (Int.ne_of_gt hpos)

/-- Where nothing is left nothing comes back, since no step adds a piece. -/
theorem Sold.sold_out_advance {n : Nat} (h : Sold inventory w stages commits successes)
    (hadvance : Advance (inventory - commits) w after stage stage' n)
    (hnone : Stocked (w.driver.store.docs "products") 0) :
    Stocked (after.driver.store.docs "products") 0 := by
  cases hadvance with
  | stay _ hsame | take hsame | refuse hsame => rwa [hsame]
  | sell hpos => exact absurd (h.stocked.unique hnone) (Int.ne_of_gt hpos)

/-- A client that sold its piece hands in a success. -/
theorem Sold.succeed (h : Sold inventory w stages commits successes)
    (hstage : stages[i]? = some .sold) :
    Sold inventory w (stages.set i .fresh) commits (successes + 1) where
  stocked := h.stocked
  nonneg := h.nonneg
  balance := by
    have hcount : (stages.set i .fresh).count .sold + 1 = stages.count .sold :=
      count_set_add hstage .fresh .sold
    have hbalance := h.balance
    omega
  spent hspent := h.spent ((List.mem_or_eq_of_mem_set hspent).resolve_right nofun)

/-- Sellers keep up what their commits leave of the stock, however many there are. -/
def sellers (inventory : Int) (hword : inventory < 2 ^ 63) :
    Upkeep Stage (inventoryUpdate .document inventory).attempt where
  toConduct := selling
  Shared := Sold inventory
  Spent w := Stocked (w.driver.store.docs "products") 0
  meets_attempt := inventoryUpdate_meets inventory
  shared_exchange := by
    intro w after stages commits successes i stage known held held' r reply hshared hstage hasks
      hholds hanswer
    have hadvance := advance_answer hshared.stocked (by omega) hasks hholds hanswer
    exact ⟨hshared.advance hstage hadvance, hshared.sold_out_advance hadvance⟩
  shared_ok := by
    rintro w stages commits successes i stage hshared hstage rfl
    exact hshared.succeed hstage
  shared_error := by
    rintro w stages commits successes i stage failure hshared hstage ⟨hsold, -⟩
    exact hshared.move hstage rfl (beq_false_of_ne hsold) nofun
  spent_of_terminal := by
    rintro w stages commits successes i stage e hshared hstage ⟨-, hspent⟩ hterminal
    have hnone := hshared.spent
      (hspent (isExhausted_of_terminal hterminal) ▸ List.mem_of_getElem? hstage)
    have hstocked := hshared.stocked
    rwa [hnone] at hstocked

/-! ### The sale as a whole -/

/-- The inventory that is stored under the key of the product. -/
def stored (w : World Server) : Option Json :=
  ((w.driver.store.docs "products")[product]?).bind fun doc => doc.lookup "inventory"

/-- The number that is stored can be read off the product. -/
theorem Stocked.stored {k : Int} (h : Stocked (w.driver.store.docs "products") k) :
    stored w = some (.int k) := by
  rw [Stock.stored, h.here]
  rfl

/-- A run that is stopped by the end of the workload has sold everything, and
its check finds that. -/
theorem sold_out (hnonneg : 0 ≤ inventory) (hword : inventory < 2 ^ 63)
    (hsound : w.driver.store.Sound)
    (hnone : (w.driver.store.docs "products").matching byProduct = []) {engine : EngineConfig}
    {size : RunConfig} {passed : List (Passed Runner.stages (World Server))} {report : Report}
    (hpasses : Program.Passes (Runner.Passes World.site (inventoryUpdate .document inventory)) w
      (Runner.plan engine (inventoryUpdate .document inventory).retryPolicy size).run passed after
      (.ok report))
    (hcause : report.stopCause = some .terminalConditionMet) :
    (report.operations : Int) = inventory ∧ report.dataIntegrity = true ∧
    ∃ prepared config template pool worked checked cleared,
      passed = [⟨.setup, .ok (), prepared⟩, ⟨.attempts config template, pool, worked⟩,
        ⟨.verify, .ok (some true), checked⟩, ⟨.teardown, cleared, after⟩] ∧
      stored worked = some (.int 0) := by
  obtain ⟨prepared, config, template, pool, worked, verdict, checked, cleared, commits, successes,
    rfl, hsetup, hsame, hworked, hoperations, hspent, hverify, hintegrity⟩ :=
    (sellers inventory hword).passes_plan (by
      intro prepared hprepared
      obtain ⟨-, hstore, hstocked⟩ := stocked_of_setup hsound hnone hprepared
      exact ⟨hstore, sold_start size.concurrency hstocked hnonneg⟩) hpasses
  obtain ⟨hconnected, -⟩ := stocked_of_setup hsound hnone hsetup
  -- The commits are the successes, as nobody is about to hand one in.
  have hbalance : successes + (List.replicate size.concurrency Stage.fresh).count .sold = commits :=
    hworked.balance
  rw [List.count_replicate, if_neg nofun, Nat.add_zero] at hbalance
  have hempty : Stocked (worked.driver.store.docs "products") 0 := hspent hcause
  have hsold : inventory - commits = 0 := hworked.stocked.unique hempty
  have hverdict : verdict = .ok (some true) := (congrArg Prod.snd hverify).symm.trans
    (verify_stocked (hsame.trans hconnected) hempty (by omega))
  subst hverdict
  refine ⟨?_, (Except.ok.inj hintegrity).symm, prepared, config, template, pool, worked, checked,
    cleared, rfl, hempty.stored⟩
  rw [hoperations, hbalance, Nat.mod_eq_of_lt (by omega)]
  omega

/-- No piece is sold twice and no sale is lost, whatever the order in which the
requests of the workers are answered, under every retry policy and with every
queue of faults that is left after the set-up.

At every moment the stored inventory is the initial one less the commits that
succeeded, and not below zero. A run that is stopped by the end of the workload
counts as many operations as there were pieces, leaves none, and its check finds
that. Before the set-up nothing may go by the identity of the product. -/
theorem never_oversold {inventory : Int} (hnonneg : 0 ≤ inventory) (hword : inventory < 2 ^ 63)
    {w : World Server} (hsound : w.driver.store.Sound)
    (hnone : (w.driver.store.docs "products").matching (.eq "_id" (.str product)) = []) :
    let sale := inventoryUpdate .document inventory
    (∀ prepared, World.site.run w sale.setup.run = (prepared, .ok ()) →
      ∀ (faults : List Fault) (config : PoolConfig) (template : Recorder)
        (schedule : List Crew.Event),
      let seeded := { prepared with driver := prepared.driver.inject faults }
      let c : Clients := (Crew.start World.site config template {} seeded).run World.site
        sale.attempt schedule
      stored c.state = some (.int (inventory - c.commits)) ∧ 0 ≤ inventory - c.commits) ∧
    ∀ (engine : EngineConfig) (size : RunConfig) (passed : List (Passed Runner.stages _)) after
      report,
      Program.Passes (Runner.Passes World.site sale) w
        (Runner.plan engine sale.retryPolicy size).run passed after (.ok report) →
      report.stopCause = some .terminalConditionMet →
      (report.operations : Int) = inventory ∧ report.dataIntegrity = true ∧
      (∀ config template pool worked,
        ⟨.attempts config template, pool, worked⟩ ∈ passed → stored worked = some (.int 0)) ∧
      ∀ verdict checked, ⟨.verify, verdict, checked⟩ ∈ passed → verdict = .ok (some true) := by
  constructor
  · intro prepared hsetup faults config template schedule
    -- At any moment the sellers have the stock that their commits left.
    obtain ⟨hconnected, hprepared, hstocked⟩ := stocked_of_setup hsound hnone hsetup
    obtain ⟨stages, hnow, -⟩ := (sellers inventory hword).shared_run config template
      (w := { prepared with driver := prepared.driver.inject faults }) hprepared
      (sold_start config.concurrency hstocked hnonneg) schedule
    exact ⟨hnow.stocked.stored, hnow.nonneg⟩
  · intro engine size passed after report hpasses hcause
    -- A report is made of four phases, and of no others.
    obtain ⟨hoperations, hintegrity, prepared, config, template, pool, worked, checked, cleared,
      rfl, hstored⟩ := sold_out hnonneg hword hsound hnone hpasses hcause
    refine ⟨hoperations, hintegrity, ?_, ?_⟩
    · intro config' template' pool' worked' hmem
      simp only [List.mem_cons, List.not_mem_nil, or_false] at hmem
      rcases hmem with hmem | hmem | hmem | hmem <;> cases hmem
      exact hstored
    · intro verdict checked' hmem
      simp only [List.mem_cons, List.not_mem_nil, or_false] at hmem
      rcases hmem with hmem | hmem | hmem | hmem <;> cases hmem
      rfl

/-- Three workers, two pieces, and a fault for the first commit. -/
def rush : World Server where
  driver := { connected := true, faults := [.pass, .conflict], latency := ⟨1000⟩ }
  clock := default

/-- What becomes of them, on one thread, until the stock is sold out. -/
def rushed : Attempted Report :=
  (Runner.run World.site (inventoryUpdate .document 2) 200 {} { concurrency := 3 } rush).2

/-- Two pieces, and more clients than pieces who want one. -/
theorem never_oversold_rush :
    (0 ≤ (2 : Int) ∧ (2 : Int) < 2 ^ 63 ∧ rush.driver.store.Sound ∧
      (rush.driver.store.docs "products").matching (.eq "_id" (.str product)) = []) ∧
    ∃ report, rushed = .ok report ∧ report.stopCause = some .terminalConditionMet ∧
      report.operations = 2 ∧ report.dataIntegrity = true := by
  have hsale := @never_oversold 2 (by decide) (by decide) rush Store.sound_empty rfl
  have hover : ∀ template prepared, Recorder.make {} = .ok template →
      World.site.run rush (inventoryUpdate .document 2).setup.run = (prepared, .ok ()) →
      (Rehearsal.run World.site (inventoryUpdate .document 2).attempt 200 (Rehearsal.make World.site
        (Runner.poolConfig {} none { concurrency := 3 }) template {} prepared)).pool.isOver
          = true := by
    intro template prepared hmake hsetup
    cases hmake
    cases hsetup
    decide +kernel
  have hcause : rushed.toOption.bind Report.stopCause = some .terminalConditionMet := by
    decide +kernel
  obtain ⟨report, hreport, hcause⟩ := Option.bind_eq_some_iff.mp hcause
  obtain ⟨hrushed, passed, _, hpasses⟩ := Runner.passes_of_report World.site
    (inventoryUpdate .document 2) 200 {} { concurrency := 3 } rush hover hreport
  obtain ⟨hoperations, hintegrity, -, -⟩ := hsale.2 {} _ passed _ _ hpasses hcause
  exact ⟨⟨by decide, by decide, Store.sound_empty, rfl⟩, report, hrushed, hcause, by omega,
    hintegrity⟩

end StoreBench.Scenario.Stock
