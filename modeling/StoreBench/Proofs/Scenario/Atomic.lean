import StoreBench.Proofs.Scenario.Clients

/-!
# `StoreBench.Proofs.Scenario.Atomic`: attempts of one transaction

Where each attempt of a workload is one transaction, and only transactions of a
certain kind are committed, it is enough to think of transactions that run one
after the other: what each of these leads on, however many there were, holds at
every moment of every run, with as many transactions as were committed
(`Upkeep.atomic`). A client that commits and has not handed that in is counted
where it is.

A set-up is such an attempt of a client that is alone (`site_run_atomic`); the
batches that set-ups are made of commit their own commands (`site_run_commands`).
`Growth` collects what is to be shown of a workload of this kind, and says what
follows for its clients at every moment (`Growth.run`) and for a run that ends with
a report (`Growth.passes_plan`).
-/

set_option autoImplicit false

namespace StoreBench.Scenario

/-- Setting one place of a list changes how often something is in it by what
was there and what is there now. -/
theorem count_set_add {α : Type} [BEq α] [LawfulBEq α] {items : List α} {i : Nat} {a : α}
    (h : items[i]? = some a) (b x : α) :
    (items.set i b).count x + (a == x).toNat = items.count x + (b == x).toNat := by
  obtain ⟨hi, rfl⟩ := List.getElem?_eq_some_iff.mp h
  rw [List.count_set hi]
  by_cases hx : items[i] = x
  · subst hx
    cases b == items[i] <;> simp
  · cases b == x <;> simp [hx]

/-! ### The conduct -/

/-- A client commits once in an attempt at most, and only deeds that are
allowed; it succeeds just when it commits. It makes no statement by itself that
could write. -/
def Conduct.atomic (Allowed : List Deed → Prop) : Conduct Bool where
  start := false
  next landed r reply := landed || isCommit ⟨r, reply⟩
  asks landed known r := (∀ statement, r ≠ .call (.exec statement)) ∧
    (r = .call .commit → landed = false ∧ ∃ deeds, known = some deeds ∧ Allowed deeds)
  ends landed result := landed = true ↔ result = .ok ()

variable {Allowed : List Deed → Prop}

/-- What the body of a transaction may come to: deeds that are allowed, or a
failure. -/
def Conduct.Delivers (Allowed : List Deed → Prop) (landed : Bool) (known : Standing)
    (result : Attempted Unit) : Prop :=
  landed = false ∧ (result = .ok () → ∃ deeds, known = some deeds ∧ Allowed deeds)

/-- A transaction whose body comes to deeds that are allowed. -/
theorem Conduct.Meets.atomic_transact {known : Standing} {body : Task Unit}
    (h : (Conduct.atomic Allowed).Meets (Conduct.Delivers Allowed) false (some []) body.run) :
    (Conduct.atomic Allowed).Meets (fun landed _ result => landed = true ↔ result = .ok ()) false
      known (Task.transact body).run := by
  refine Meets.transact ⟨nofun, nofun⟩ (fun e => ⟨nofun, nofun⟩) (h.mono ?_)
  rintro landed known result ⟨rfl, hdeeds⟩
  match result with
  | .ok () =>
      refine ⟨⟨nofun, fun _ => ⟨rfl, hdeeds rfl⟩⟩, fun fresh reply => ?_⟩
      cases reply with
      | ok committed => exact ⟨fun _ => rfl, fun _ => rfl⟩
      | error e => exact ⟨nofun, nofun⟩
  | .error (.error e) => exact ⟨⟨nofun, nofun⟩, fun fresh reply => ⟨nofun, nofun⟩⟩
  | .error (.crash x) => exact ⟨⟨nofun, nofun⟩, fun fresh reply => ⟨nofun, nofun⟩⟩

/-- Transactions land one after the other: one request either leaves the store
and the client's landing as they are, or it lands deeds that are allowed. -/
theorem Conduct.atomic_exchange {w after : World Server} {landed : Bool} {known : Standing}
    {held held' : Option Transaction} {r : Request} {reply : r.Reply}
    (hasks : (Conduct.atomic Allowed).asks landed known r)
    (hholds : Holds w.driver.store held known)
    (hanswer : w.answer held r = (after, held', reply)) :
    (after.driver.store.docs = w.driver.store.docs ∧ (landed || isCommit ⟨r, reply⟩) = landed) ∨
    landed = false ∧ isCommit ⟨r, reply⟩ = true ∧ ∃ deeds, Allowed deeds ∧
      Contents.Explains w.driver.store.docs deeds ∧
      Contents.run w.driver.store.docs deeds = after.driver.store.docs := by
  cases hcommit : isCommit ⟨r, reply⟩ with
  | false =>
      rw [store_of_not_commit hanswer hasks.1 hcommit]
      exact .inl ⟨rfl, Bool.or_false landed⟩
  | true =>
      have hr : r = .call .commit := by
        unfold isCommit at hcommit
        split at hcommit
        · rename_i heq
          exact (Sigma.mk.inj heq).1
        · cases hcommit
      obtain ⟨hlanded, deeds, rfl, hallowed⟩ := hasks.2 hr
      exact .inr ⟨hlanded, rfl, deeds, hallowed, hholds.commit hanswer hcommit⟩

/-! ### Many clients -/

/-- What transactions lead on, one after the other, is kept up by any number of
clients at once. -/
def Upkeep.atomic {attempt : Try → Task Unit} (Grown : Nat → Contents → Prop)
    (hattempt : ∀ t, (Conduct.atomic Allowed).Meets
      (fun landed _ result => landed = true ↔ result = .ok ()) false none (attempt t).run)
    (hgrown : ∀ {n : Nat} {docs : Contents} {deeds : List Deed}, Grown n docs → Allowed deeds →
      docs.Explains deeds → Grown (n + 1) (docs.run deeds)) :
    Upkeep Bool attempt where
  toConduct := .atomic Allowed
  Shared w minds _ successes := Grown (successes + minds.count true) w.driver.store.docs
  Spent _ := True
  meets_attempt := hattempt
  shared_exchange := by
    intro w after minds commits successes i landed known held held' r reply hshared hmind hasks
      hholds hanswer
    refine ⟨?_, id⟩
    have hcount := count_set_add hmind (landed || isCommit ⟨r, reply⟩) true
    rcases Conduct.atomic_exchange hasks hholds hanswer with
      ⟨hdocs, hsame⟩ | ⟨rfl, hcommit, deeds, hallowed, hexplains, hrun⟩
    · -- Nobody has landed by this request, and the contents are the same.
      rw [hsame] at hcount
      show Grown (successes + (minds.set i (landed || isCommit ⟨r, reply⟩)).count true) _
      rw [hdocs, hsame, Nat.add_right_cancel hcount]
      exact hshared
    · -- The client has landed now, so there is one more.
      show Grown (successes + (minds.set i (false || isCommit ⟨r, reply⟩)).count true) _
      rw [hcommit] at hcount ⊢
      have hmore : (minds.set i (false || true)).count true = minds.count true + 1 := hcount
      rw [← hrun, hmore, ← Nat.add_assoc]
      exact hgrown hshared hallowed hexplains
  shared_ok := by
    intro w minds commits successes i landed hshared hmind hends
    obtain rfl : landed = true := hends.mpr rfl
    -- The success is counted now, and no longer ahead of the count.
    have hcount := count_set_add hmind false true
    show Grown (successes + 1 + (minds.set i false).count true) _
    have hfewer : (minds.set i false).count true + 1 = minds.count true := hcount
    rw [Nat.add_assoc, Nat.add_comm 1, hfewer]
    exact hshared
  shared_error := by
    intro w minds commits successes i landed failure hshared hmind hends
    -- Who fails has not landed.
    have hlanded : landed = false := by
      refine Bool.eq_false_iff.mpr ?_
      intro hlanded
      cases hends.mp hlanded
    obtain ⟨hi, rfl⟩ := List.getElem?_eq_some_iff.mp hmind
    show Grown (successes + (minds.set i false).count true) _
    rw [← hlanded, List.set_getElem_self]
    exact hshared
  spent_of_terminal _ _ _ _ := trivial

/-! ### One client alone -/

/-- An attempt that succeeds, of a client that nobody interrupts, is one
transaction of deeds that are allowed. -/
theorem site_run_atomic (Allowed : List Deed → Prop) {w after : World Server}
    {p : Program requests (Attempted Unit)}
    (h : (Conduct.atomic Allowed).Meets (fun landed _ result => landed = true ↔ result = .ok ())
      false none p) (hs : w.driver.store.Sound)
    (hrun : World.site.run w p = (after, .ok ())) :
    after.driver.store.Sound ∧ after.driver.connected = w.driver.connected ∧
    ∃ deeds, Allowed deeds ∧ Contents.Explains w.driver.store.docs deeds ∧
      Contents.run w.driver.store.docs deeds = after.driver.store.docs := by
  obtain ⟨landed, known, hends, hsound, hconnected, hdocs⟩ := h.site_run
    (fun now landed => now.driver.store.Sound ∧
      now.driver.connected = w.driver.connected ∧
      if landed then ∃ deeds, Allowed deeds ∧ Contents.Explains w.driver.store.docs deeds ∧
        Contents.run w.driver.store.docs deeds = now.driver.store.docs
      else now.driver.store.docs = w.driver.store.docs)
    (by
      rintro now after landed known held held' r reply ⟨hsound, hconnected, hdocs⟩ hasks hholds
        hanswer
      have hsame := connected_answer now held r
      rw [hanswer] at hsame
      refine ⟨(becomes_answer hanswer).sound hsound, hsame.trans hconnected, ?_⟩
      -- Before the commit the contents are as at the beginning.
      show if (landed || isCommit ⟨r, reply⟩) = true then _ else _
      rcases Conduct.atomic_exchange hasks hholds hanswer with
        ⟨hunchanged, hlanded⟩ | ⟨rfl, hcommit, deeds, hallowed, hexplains, hlands⟩
      · rwa [hlanded, hunchanged]
      · rw [hcommit]
        rw [if_neg Bool.false_ne_true] at hdocs
        rw [hdocs] at hexplains hlands
        exact ⟨deeds, hallowed, hexplains, hlands⟩)
    ⟨hs, rfl, rfl⟩ hs hrun
  rw [if_pos (hends.mpr rfl)] at hdocs
  exact ⟨hsound, hconnected, hdocs⟩

/-- A transaction that succeeds begins at a store that is connected. -/
theorem connected_of_transact {w after : World Server} {body : Task Unit}
    (h : World.site.run w (Task.transact body).run = (after, .ok ())) :
    w.driver.connected = true := by
  rw [Task.transact_run] at h
  cases hconnected : w.driver.connected with
  | true => rfl
  | false =>
      have hchecked : w.driver.checkConnected
          = .error (.connection "memory driver is not connected") := by
        simp only [Server.checkConnected, hconnected, Bool.false_eq_true, if_false]
      simp only [Site.run, Program.run, World.site, World.answer, Driver.answer, Server.answer,
        hchecked, Task.opened] at h
      cases h

/-- A batch that nobody interrupts and that succeeds makes its commands in one
transaction. -/
theorem site_run_commands {w after : World Server} {commands : List Command}
    (hne : commands ≠ [])
    (hown : ∀ command ∈ commands, ∀ fresh, command.identified fresh = command)
    (hs : w.driver.store.Sound)
    (hrun : World.site.run w (Task.execAll (commands.map .document)).run = (after, .ok ())) :
    after.driver.connected = true ∧ after.driver.store.Sound ∧
    ∃ deeds : List Deed, deeds.map Deed.command = commands ∧
      Contents.Explains w.driver.store.docs deeds ∧
      Contents.run w.driver.store.docs deeds = after.driver.store.docs := by
  rw [Task.execAll_of_ne_nil (List.map_eq_nil_iff.not.mpr hne)] at hrun
  obtain ⟨hsound, hconnected, hdeeds⟩ := site_run_atomic
    (fun deeds => deeds.map Deed.command = commands)
    (Conduct.Meets.atomic_transact (Conduct.Meets.execEach (fun _ _ => ⟨nofun, nofun⟩)
      (fun _ _ => rfl) hown (fun new hnew => ⟨rfl, fun _ => ⟨new, rfl, hnew⟩⟩)
      fun _ _ _ => ⟨rfl, nofun⟩)) hs hrun
  exact ⟨hconnected.trans (connected_of_transact hrun), hsound, hdeeds⟩

/-! ### Workloads as a whole -/

/-- What transactions of a workload lead on, one after the other: each attempt is
one of them, and the check finds what any number of them comes to. -/
structure Growth (workload : Workload requests) (Allowed : List Deed → Prop)
    (Grown : Nat → Contents → Prop) : Prop where
  attempt : ∀ t, (Conduct.atomic Allowed).Meets
    (fun landed _ result => landed = true ↔ result = .ok ()) false none (workload.attempt t).run
  grow : ∀ {n : Nat} {docs : Contents} {deeds : List Deed}, Grown n docs → Allowed deeds →
    docs.Explains deeds → Grown (n + 1) (docs.run deeds)
  verify : ∀ {w : World Server} {n : Nat}, w.driver.connected = true →
    Grown n w.driver.store.docs →
    (World.site.run w workload.verify.run).2 = .ok (some true)

namespace Growth

variable {workload : Workload requests} {Grown : Nat → Contents → Prop}

/-- Where nobody is in an attempt no commit is still to be handed in. -/
theorem count_landed (workers : Nat) : (List.replicate workers false).count true = 0 :=
  List.count_replicate ..

/-- At every moment the store holds what some number of transactions comes to, and
the check finds it so. Where nobody is in an attempt, that number is the number of
attempts that succeeded. -/
theorem run (h : Growth workload Allowed Grown) {prepared : World Server}
    (hconnected : prepared.driver.connected = true) (hsound : prepared.driver.store.Sound)
    (hstart : Grown 0 prepared.driver.store.docs) (faults : List Fault) (config : PoolConfig)
    (template : Recorder) (schedule : List Crew.Event) :
    let seeded := { prepared with driver := prepared.driver.inject faults }
    let c : Clients := (Crew.start World.site config template {} seeded).run World.site
      workload.attempt schedule
    ∃ n, Grown n c.state.driver.store.docs ∧
      (World.site.run c.state workload.verify.run).2 = .ok (some true) ∧
      (c.Quiet → n = c.successes) := by
  intro seeded c
  let u := Upkeep.atomic Grown h.attempt h.grow
  have hseeded : seeded.driver.store.Sound := hsound
  have hshared : u.Shared seeded (List.replicate config.concurrency u.start) 0 0 := by
    show Grown (0 + (List.replicate config.concurrency false).count true) _
    rw [count_landed]
    exact hstart
  obtain ⟨minds, hnow, -, hquiet⟩ := u.shared_run config template hseeded hshared schedule
  refine ⟨c.successes + minds.count true, hnow, ?_, ?_⟩
  · exact h.verify ((Clients.connected_run schedule).trans hconnected) hnow
  · intro hq
    rw [hquiet hq]
    exact congrArg (c.successes + ·) (count_landed config.concurrency)

/-- The phases of a run that ends with a report, where the set-up leads to what no
transaction at all comes to: its operations are the transactions, in a word. -/
theorem passes_plan (h : Growth workload Allowed Grown) {w after : World Server}
    {engine : EngineConfig} {size : RunConfig}
    {passed : List (Passed Runner.stages (World Server))} {report : Report}
    (hsetup : ∀ prepared, World.site.run w workload.setup.run = (prepared, .ok ()) →
      prepared.driver.connected = true ∧ prepared.driver.store.Sound ∧
        Grown 0 prepared.driver.store.docs)
    (hpasses : Program.Passes (Runner.Passes World.site workload) w
      (Runner.plan engine workload.retryPolicy size).run passed after (.ok report)) :
    report.dataIntegrity = true ∧
    ∃ prepared config template pool worked checked cleared n,
      passed = [⟨.setup, .ok (), prepared⟩, ⟨.attempts config template, pool, worked⟩,
        ⟨.verify, .ok (some true), checked⟩, ⟨.teardown, cleared, after⟩] ∧
      Grown n worked.driver.store.docs ∧ report.operations = n % 2 ^ 64 := by
  let u := Upkeep.atomic Grown h.attempt h.grow
  -- At the beginning and at the end nobody is ahead of the count.
  have hshared (docs : Contents) (successes : Nat) :
      Grown (successes + (List.replicate size.concurrency false).count true) docs
        ↔ Grown successes docs := by
    rw [count_landed, Nat.add_zero]
  obtain ⟨prepared, config, template, pool, worked, verdict, checked, cleared, _, n, rfl,
    hprepared, hsame, hworked, hoperations, -, hverify, hintegrity⟩ := u.passes_plan (by
      intro prepared hprepared
      obtain ⟨-, hsound, hstart⟩ := hsetup prepared hprepared
      exact ⟨hsound, (hshared _ 0).mpr hstart⟩) hpasses
  replace hworked := (hshared _ n).mp hworked
  obtain ⟨hconnected, -⟩ := hsetup prepared hprepared
  -- The check is made where the attempts left off, so it finds what it is made for.
  have hverdict : verdict = .ok (some true) :=
    (congrArg Prod.snd hverify).symm.trans (h.verify (hsame.trans hconnected) hworked)
  subst hverdict
  exact ⟨(Except.ok.inj hintegrity).symm, prepared, config, template, pool, worked, checked,
    cleared, n, rfl, hworked, hoperations⟩

end Growth

end StoreBench.Scenario
