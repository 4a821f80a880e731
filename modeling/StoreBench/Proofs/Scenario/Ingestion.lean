import Mathlib.Data.Set.List
import StoreBench.Proofs.Document.Records
import StoreBench.Proofs.Document.Refusal
import StoreBench.Proofs.Scenario.Atomic
import StoreBench.Proofs.Scenario.Check
import StoreBench.Scenario.Stream

/-!
# `StoreBench.Proofs.Scenario.Ingestion`: events that are counted beside the store

An attempt to ingest looks at the count of stored events. Below the target it
begins a batch, commits it, and adds it to the count. These are requests of their
own, so any number of clients may look before one of them counts, and the count
may lag behind the events.

`Stage` says how far an attempt is, and `Advance` what one request does at each
stage. `Streamed` relates events and count to the stages of all clients: events are
those of batches that were committed, the count is that of batches that were
counted, and every batch under way was admitted while the count was below the
target. As there are no more of these than clients, the target is passed by less
than a batch for each (`Streamed.enter`), and that bound needs no assumption that
the count, which is a word, does not wrap around.
-/

set_option autoImplicit false

namespace StoreBench.Scenario.Stream

/-! ### How far an attempt is -/

/-- How far an attempt to ingest a batch is. A batch counts for the bound from being
admitted until it is counted. -/
inductive Stage
  /-- It has not looked at the count of stored events. -/
  | fresh
  /-- There were enough of them. -/
  | spent
  /-- There were too few, so its batch is under way. -/
  | admitted
  /-- Its batch is stored and not counted. -/
  | committed
  /-- Its batch is counted. -/
  | counted
deriving DecidableEq

/-- Where the reply to a request leads. Only the replies that the bound depends on lead
further. -/
def Stage.next (target : Nat) (stage : Stage) : (r : Request) → r.Reply → Stage
  | .stored, n => if target ≤ n then .spent else .admitted
  | .addStored _, _ => .counted
  | .call .commit, .ok () => .committed
  | .call c, reply => if c.isEnd reply then .spent else stage
  | .identity, _ | .draw _, _ | .now, _ | .clearStored, _ | .takeBegun _, _ => stage

/-- The deeds of a batch: so many events are inserted. -/
def Batched (batch : Nat) (deeds : List Deed) : Prop :=
  deeds.length = batch ∧ ∀ deed ∈ deeds, ∃ doc, deed.command = ⟨Events.table, .insertOne doc⟩

/-- A client looks at the count before it commits a batch, and counts the batch
afterwards. It succeeds just when it has counted it, and fails before it commits. -/
def streaming (target batch : Nat) : Conduct Stage where
  start := .fresh
  next stage r reply := stage.next target r reply
  asks stage known
    | .stored => stage = .fresh
    | .call .commit => stage = .admitted ∧ ∃ deeds, known = some deeds ∧ Batched batch deeds
    | .addStored n => stage = .committed ∧ n = batch
    | .call (.exec _) | .clearStored => False
    | .call _ | .identity | .draw _ | .now | .takeBegun _ => True
  ends stage
    | .ok () => stage = .counted
    | .error failure => stage ≠ .committed ∧ stage ≠ .counted ∧
        (Attempted.isEnd (.error failure : Attempted Unit) = true → stage = .spent)

/-! ### What one request does -/

/-- The number of events in the store, whoever put them there. -/
def eventCount (w : World Server) : Nat := w.driver.documentCount Events.table

variable {target batch workers successes : Nat} {w after : World Server} {stages : List Stage}
  {stage : Stage}

/-- What one request does to the events, to their count and to the stage of its
client. -/
inductive Advance (target batch : Nat) (w after : World Server) : Stage → Stage → Prop
  | stay (stage : Stage) (hevents : eventCount after = eventCount w)
      (hstored : after.stored = w.stored) : Advance target batch w after stage stage
  | refuse (hsame : after = w) (hcount : target ≤ w.stored) :
      Advance target batch w after .fresh .spent
  | enter (hsame : after = w) (hcount : w.stored < target) :
      Advance target batch w after .fresh .admitted
  | commit (hevents : eventCount after = eventCount w + batch)
      (hstored : after.stored = w.stored) : Advance target batch w after .admitted .committed
  | count (hevents : eventCount after = eventCount w)
      (hstored : after.stored = (w.stored + batch) % 2 ^ 64) :
      Advance target batch w after .committed .counted

/-- A batch adds as many events as it has, since each has an identity of its own. -/
theorem size_run_batched {docs : Contents} {deeds : List Deed} (h : Batched batch deeds)
    (hexplains : docs.Explains deeds) :
    (docs.run deeds Events.table).size = (docs Events.table).size + batch := by
  obtain ⟨rfl, hinserts⟩ := h
  induction deeds generalizing docs with
  | nil => rfl
  | cons deed rest ih =>
      obtain ⟨command, seen⟩ := deed
      obtain ⟨⟨outcome, hok, -⟩, hrest⟩ := hexplains
      obtain ⟨doc, hdoc⟩ := hinserts _ List.mem_cons_self
      obtain rfl : command = ⟨Events.table, .insertOne doc⟩ := hdoc
      -- That the deed is explained means that its document found a free key.
      have hlater := ih hrest fun other hother => hinserts other (List.mem_cons_of_mem _ hother)
      have hone : ((docs.perform ⟨Events.table, .insertOne doc⟩).1 Events.table).size
          = (docs Events.table).size + 1 := by
        rw [docs.perform_self ⟨Events.table, .insertOne doc⟩]
        exact Documents.size_apply_insertOne hok
      rw [hone, Nat.add_assoc, Nat.add_comm 1] at hlater
      exact hlater

/-- What a client may ask takes it on by one of these steps. -/
theorem advance_answer {known : Standing} {held held' : Option Transaction} {r : Request}
    {reply : r.Reply} (hasks : (streaming target batch).asks stage known r)
    (hholds : Holds w.driver.store held known) (hanswer : w.answer held r = (after, held', reply)) :
    Advance target batch w after stage (stage.next target r reply) := by
  match r, reply with
  | .stored, n =>
      cases hanswer
      obtain rfl : stage = .fresh := hasks
      by_cases hcount : target ≤ w.stored
      · rw [Stage.next, if_pos hcount]
        exact .refuse rfl hcount
      · rw [Stage.next, if_neg hcount]
        exact .enter rfl (Nat.lt_of_not_le hcount)
  | .addStored n, reply =>
      cases hanswer
      obtain ⟨rfl, rfl⟩ := hasks
      exact .count rfl rfl
  | .call c, reply =>
      -- A call leaves the count alone, and never answers with the end of a workload.
      have hstored : after.stored = w.stored := by
        cases hanswer
        rfl
      have hend := isEnd_of_answer hanswer
      cases hcommit : isCommit ⟨.call c, reply⟩ with
      | true =>
          match c, reply, hcommit with
          | .commit, .ok (), _ =>
              obtain ⟨rfl, deeds, rfl, hbatched⟩ := hasks
              obtain ⟨hexplains, hrun⟩ := hholds.commit hanswer rfl
              refine .commit ?_ hstored
              rw [eventCount, Server.documentCount, ← hrun]
              exact size_run_batched hbatched hexplains
      | false =>
          have hexec : ∀ statement, Request.call c ≠ .call (.exec statement) := by
            rintro statement ⟨⟩
            exact hasks
          have hsame := store_of_not_commit hanswer hexec hcommit
          have hevents : eventCount after = eventCount w :=
            congrArg (fun store => (store.docs Events.table).size) hsame
          have hnext : stage.next target (.call c) reply = stage := by
            match c, reply, hcommit with
            | .commit, .error e, _ => exact if_neg (Bool.eq_false_iff.mp hend)
            | .exec _, _, _ | .query _, _, _ | .begin, _, _ | .execIn _, _, _ | .queryIn _, _, _ =>
                exact if_neg (Bool.eq_false_iff.mp hend)
            | .rollback _, _, _ | .abandon, _, _ => rfl
          rw [hnext]
          exact .stay stage hevents hstored
  | .identity, reply | .draw _, reply | .now, reply | .takeBegun _, reply =>
      cases hanswer
      exact .stay stage rfl rfl

/-! ### What many clients keep up -/

/-- The count is at the target, if there are not too many events to count. -/
def Enough (target : Nat) (w : World Server) : Prop := eventCount w < 2 ^ 63 → target ≤ w.stored

/-- The events are those of the batches that were committed, and their count, a word,
is that of the batches that were counted. Each client that is on its way with a
batch was admitted below the target, which bounds what they all lead to; where this
bound fits a word, it bounds the events too. -/
structure Streamed (target batch workers : Nat) (w : World Server) (stages : List Stage)
    (successes : Nat) : Prop where
  length_eq : stages.length = workers
  events_eq : eventCount w
    = batch * (successes + stages.count .counted + stages.count .committed)
  stored_eq : w.stored = batch * (successes + stages.count .counted) % 2 ^ 64
  bound : w.stored + batch * (stages.count .admitted + stages.count .committed)
    < target + workers * batch
  fits : target + workers * batch ≤ 2 ^ 64 → eventCount w < target + workers * batch
  spent : .spent ∈ stages → Enough target w

/-- Two different things are not in more places than there are. -/
theorem count_add_count_le {α : Type} [BEq α] [LawfulBEq α] {a b : α} (hne : a ≠ b)
    (items : List α) : items.count a + items.count b ≤ items.length := by
  induction items with
  | nil => exact Nat.le_refl 0
  | cons c rest ih =>
      rw [List.count_cons, List.count_cons, List.length_cons]
      by_cases ha : c = a
      · have hb : c ≠ b := fun hb => hne (ha.symm.trans hb)
        rw [if_pos (beq_iff_eq.mpr ha), if_neg (beq_iff_eq.not.mpr hb)]
        omega
      · rw [if_neg (beq_iff_eq.not.mpr ha)]
        split <;> omega

/-- An item that is not the new one was there before. -/
theorem mem_set_of_ne {α : Type} {items : List α} {i : Nat} {a b : α} (h : a ∈ items.set i b)
    (hne : a ≠ b) : a ∈ items := (List.mem_or_eq_of_mem_set h).resolve_right hne

variable {i : Nat}

/-- Nothing changes where the events and the count of stored ones are as before. -/
theorem Streamed.stay (h : Streamed target batch workers w stages successes)
    (hevents : eventCount after = eventCount w) (hstored : after.stored = w.stored) :
    Streamed target batch workers after stages successes where
  length_eq := h.length_eq
  events_eq := hevents.trans h.events_eq
  stored_eq := hstored.trans h.stored_eq
  bound := hstored.symm ▸ h.bound
  fits := hevents.symm ▸ h.fits
  spent hspent hword := hstored.symm ▸ h.spent hspent (hevents ▸ hword)

/-- A client that is not between its commit and its count leaves the batches as they
are when it goes back to the beginning, or is told that there are enough. -/
theorem Streamed.withdraw {stage' : Stage} (h : Streamed target batch workers w stages successes)
    (hstage : stages[i]? = some stage) (hcommitted : stage ≠ .committed)
    (hcounted : stage ≠ .counted) (hnew : stage' = .fresh ∨ stage' = .spent ∧ Enough target w) :
    Streamed target batch workers w (stages.set i stage') successes := by
  have hother : stage' ≠ .admitted ∧ stage' ≠ .committed ∧ stage' ≠ .counted := by
    rcases hnew with rfl | ⟨rfl, -⟩ <;> exact ⟨nofun, nofun, nofun⟩
  have hsame {other : Stage} (hold : stage ≠ other) (hnew : stage' ≠ other) :
      (stages.set i stage').count other = stages.count other := by
    have hset := count_set_add hstage stage' other
    rwa [beq_false_of_ne hold, beq_false_of_ne hnew] at hset
  have hcounts := hsame hcounted hother.2.2
  have hcommits := hsame hcommitted hother.2.1
  -- If the client had a batch under way, there is one less now.
  have hadmitted : (stages.set i stage').count .admitted ≤ stages.count .admitted := by
    have hset := count_set_add hstage stage' .admitted
    rw [beq_false_of_ne hother.1] at hset
    exact Nat.le_of_add_right_le (Nat.le_of_eq hset)
  refine ⟨(List.length_set ..).trans h.length_eq, ?_, ?_, ?_, h.fits, ?_⟩
  · rw [hcounts, hcommits]
    exact h.events_eq
  · rw [hcounts]
    exact h.stored_eq
  · rw [hcommits]
    have hbatches := Nat.mul_le_mul_left batch
      (Nat.add_le_add_right hadmitted (stages.count .committed))
    exact Nat.lt_of_le_of_lt (Nat.add_le_add_left hbatches w.stored) h.bound
  · intro hspent
    rcases hnew with rfl | ⟨rfl, henough⟩
    · exact h.spent (mem_set_of_ne hspent nofun)
    · exact henough

/-- A client is admitted with a batch below the target. There are no more batches
under way than clients, so they lead to less than the bound. -/
theorem Streamed.enter (h : Streamed target batch workers w stages successes)
    (hstage : stages[i]? = some .fresh) (hcount : w.stored < target) :
    Streamed target batch workers w (stages.set i .admitted) successes := by
  have hlength : (stages.set i .admitted).length = workers :=
    (List.length_set ..).trans h.length_eq
  have hcounted : (stages.set i .admitted).count .counted = stages.count .counted :=
    count_set_add hstage .admitted .counted
  have hcommitted : (stages.set i .admitted).count .committed = stages.count .committed :=
    count_set_add hstage .admitted .committed
  refine ⟨hlength, ?_, ?_, ?_, h.fits, fun hspent => h.spent (mem_set_of_ne hspent nofun)⟩
  · rw [hcounted, hcommitted]
    exact h.events_eq
  · rw [hcounted]
    exact h.stored_eq
  · have hworkers := count_add_count_le (show Stage.admitted ≠ .committed from nofun)
      (stages.set i .admitted)
    rw [hlength] at hworkers
    have hbatches := Nat.mul_le_mul_left batch hworkers
    rw [Nat.mul_comm batch workers] at hbatches
    exact Nat.add_lt_add_of_lt_of_le hcount hbatches

/-- A batch that was under way is stored. It stays under way until it is counted. -/
theorem Streamed.commit (h : Streamed target batch workers w stages successes)
    (hstage : stages[i]? = some .admitted) (hadded : eventCount after = eventCount w + batch)
    (hsame : after.stored = w.stored) :
    Streamed target batch workers after (stages.set i .committed) successes := by
  -- One client goes from admitted to committed, and nobody else moves.
  have hcounted : (stages.set i .committed).count .counted = stages.count .counted :=
    count_set_add hstage .committed .counted
  have hcommitted : (stages.set i .committed).count .committed = stages.count .committed + 1 :=
    count_set_add hstage .committed .committed
  have hadmitted : (stages.set i .committed).count .admitted + 1 = stages.count .admitted :=
    count_set_add hstage .committed .admitted
  have hevents := h.events_eq
  have hstored := h.stored_eq
  have hbound := h.bound
  refine ⟨(List.length_set ..).trans h.length_eq, ?_, ?_, ?_, ?_, ?_⟩
  · rw [hadded, hcounted, hcommitted, hevents]
    rfl
  · rw [hsame, hcounted]
    exact hstored
  · -- A batch that is stored is still to be counted, so as many are under way as before.
    have hunder : (stages.set i .committed).count .admitted
        + (stages.set i .committed).count .committed
          = stages.count .admitted + stages.count .committed := by omega
    rw [hsame, hunder]
    exact hbound
  · -- The new batch was under way already, and what was counted did not wrap around.
    intro hword
    have hbefore := h.fits hword
    rw [← hadmitted] at hbound
    simp only [Nat.mul_add, Nat.mul_one] at hevents hstored hbound
    rw [hadded]
    omega
  · intro hspent hword
    rw [hsame]
    exact h.spent (mem_set_of_ne hspent nofun) (by omega)

/-- The count does not wrap around when a batch is added that is among the events. -/
theorem Streamed.stored_add (h : Streamed target batch workers w stages successes)
    (hstage : stages[i]? = some .committed) (hword : eventCount w < 2 ^ 63) :
    (w.stored + batch) % 2 ^ 64 = w.stored + batch := by
  have hevents := h.events_eq
  have hstored := h.stored_eq
  have hone : 0 < stages.count .committed := List.count_pos_iff.mpr (List.mem_of_getElem? hstage)
  have hbatch := Nat.le_mul_of_pos_right batch hone
  rw [Nat.mul_add] at hevents
  omega

/-- A batch that is stored is counted. From then on other clients can see it. -/
theorem Streamed.count (h : Streamed target batch workers w stages successes)
    (hstage : stages[i]? = some .committed) (hsame : eventCount after = eventCount w)
    (hadded : after.stored = (w.stored + batch) % 2 ^ 64) :
    Streamed target batch workers after (stages.set i .counted) successes := by
  have hcounted : (stages.set i .counted).count .counted = stages.count .counted + 1 :=
    count_set_add hstage .counted .counted
  have hcommitted : (stages.set i .counted).count .committed + 1 = stages.count .committed :=
    count_set_add hstage .counted .committed
  have hadmitted : (stages.set i .counted).count .admitted = stages.count .admitted :=
    count_set_add hstage .counted .admitted
  have hbound := h.bound
  rw [← hcommitted] at hbound
  refine ⟨(List.length_set ..).trans h.length_eq, ?_, ?_, ?_, hsame.symm ▸ h.fits, ?_⟩
  · have hmoved : successes + (stages.set i .counted).count .counted
        + (stages.set i .counted).count .committed
          = successes + stages.count .counted + stages.count .committed := by omega
    rw [hsame, hmoved]
    exact h.events_eq
  · rw [hadded, hcounted, h.stored_eq, Nat.mod_add_mod, ← Nat.add_assoc, Nat.mul_add_one]
  · -- What the count gains, the batches under way lose.
    simp only [Nat.mul_add, Nat.mul_one] at hbound
    rw [hadded, hadmitted, Nat.mul_add]
    omega
  · intro hspent hword
    have hbefore := h.spent (mem_set_of_ne hspent nofun) (hsame ▸ hword)
    rw [hadded, h.stored_add hstage (hsame ▸ hword)]
    exact Nat.le_add_right_of_le hbefore

/-- A step of one client keeps this up, whichever of the steps it is. -/
theorem Streamed.advance {stage' : Stage} (h : Streamed target batch workers w stages successes)
    (hstage : stages[i]? = some stage) (hadvance : Advance target batch w after stage stage') :
    Streamed target batch workers after (stages.set i stage') successes := by
  cases hadvance with
  | stay _ hevents hstored =>
      obtain ⟨hi, rfl⟩ := List.getElem?_eq_some_iff.mp hstage
      rw [List.set_getElem_self]
      exact h.stay hevents hstored
  | refuse hsame hcount =>
      subst hsame
      exact h.withdraw hstage nofun nofun (.inr ⟨rfl, fun _ => hcount⟩)
  | enter hsame hcount =>
      subst hsame
      exact h.enter hstage hcount
  | commit hadded hsame => exact h.commit hstage hadded hsame
  | count hsame hadded => exact h.count hstage hsame hadded

/-- Where the count is at the target it stays there. -/
theorem Streamed.enough_advance {stage' : Stage}
    (h : Streamed target batch workers w stages successes) (hstage : stages[i]? = some stage)
    (hadvance : Advance target batch w after stage stage') (henough : Enough target w) :
    Enough target after := by
  intro hword
  cases hadvance with
  | stay _ hevents hstored =>
      rw [hstored]
      exact henough (hevents ▸ hword)
  | refuse hsame => exact hsame ▸ henough (hsame ▸ hword)
  | enter hsame => exact hsame ▸ henough (hsame ▸ hword)
  | commit hadded hsame =>
      rw [hsame]
      exact henough (by omega)
  | count hsame hadded =>
      rw [hsame] at hword
      rw [hadded, h.stored_add hstage hword]
      exact Nat.le_add_right_of_le (henough hword)

/-- A client that counted its batch hands in a success. -/
theorem Streamed.succeed (h : Streamed target batch workers w stages successes)
    (hstage : stages[i]? = some .counted) :
    Streamed target batch workers w (stages.set i .fresh) (successes + 1) := by
  have hcounted : (stages.set i .fresh).count .counted + 1 = stages.count .counted :=
    count_set_add hstage .fresh .counted
  have hcommitted : (stages.set i .fresh).count .committed = stages.count .committed :=
    count_set_add hstage .fresh .committed
  have hadmitted : (stages.set i .fresh).count .admitted = stages.count .admitted :=
    count_set_add hstage .fresh .admitted
  have hmoved : successes + 1 + (stages.set i .fresh).count .counted
      = successes + stages.count .counted := by omega
  refine ⟨(List.length_set ..).trans h.length_eq, ?_, ?_, ?_, h.fits,
    fun hspent => h.spent (mem_set_of_ne hspent nofun)⟩
  · rw [hmoved, hcommitted]
    exact h.events_eq
  · rw [hmoved]
    exact h.stored_eq
  · rw [hadmitted, hcommitted]
    exact h.bound

/-! ### The attempts -/

/-- What inserts an event: one document, with its identity in it. -/
def insertCommand (event : Event) : Command :=
  ⟨Events.table, .insertOne (.obj [("_id", .str event.id),
    ("event_timestamp", .ofInstant event.instant), ("metric_value", .ofDouble event.metric),
    ("product_id", .str event.product), ("region", .str event.region),
    ("user_id", .str event.user)])⟩

/-- An event is inserted by one command, which is sent with the rest of its batch. -/
theorem insert_document (event : Event) :
    Events.document.insert event = .document (insertCommand event) := by
  simp only [Events.document, Statement.insert, Statement.on, Json.object, Fields.ofList,
    List.foldl_cons, List.foldl_nil, Fields.insert, String.reduceLT, String.reduceEq, if_true,
    if_false, insertCommand]

/-- Deeds that insert events are a batch of as many events. -/
theorem batched_insertCommand {events : List Event} {deeds : List Deed}
    (h : deeds.map Deed.command = events.map insertCommand) : Batched events.length deeds := by
  refine ⟨?_, ?_⟩
  · have hlength := congrArg List.length h
    rwa [List.length_map, List.length_map] at hlength
  · intro deed hdeed
    have hcommand : deed.command ∈ events.map insertCommand := h ▸ List.mem_map_of_mem hdeed
    obtain ⟨event, -, hevent⟩ := List.mem_map.mp hcommand
    exact ⟨_, hevent.symm⟩

/-- The statements of a batch are those of so many events. -/
theorem batchStatements_meets {post : Stage → Standing → Attempted (List Statement) → Prop}
    {known : Standing} (first : Nat) (time : Instant)
    (h : ∀ events : List Event, events.length = batch →
      post stage known (.ok (events.map Events.document.insert))) :
    (streaming target batch).Meets post stage known
      (batchStatements .document first batch time).run := by
  refine Conduct.Meets.mapM (fun statement => statement ∈ Set.range Events.document.insert) ?_ ?_
  · intro i post hpost
    exact ⟨trivial, fun _ id => hpost _ (Set.mem_range_self _)⟩
  · intro statements hlength hgood
    have hrange : statements ∈ Set.range (List.map Events.document.insert) := by
      rw [Set.range_list_map]
      exact hgood
    obtain ⟨events, rfl⟩ := hrange
    rw [List.length_map, List.length_range] at hlength
    exact h events hlength

/-- A failure that a client was told of in a batch is one that it may end with. -/
theorem ends_error (failure : Failure) :
    (streaming target batch).ends
      (if Attempted.isEnd (.error failure : Attempted Unit) then .spent else .admitted)
      (.error failure) := by
  by_cases hend : Attempted.isEnd (.error failure : Attempted Unit) = true
  · rw [if_pos hend]
    exact ⟨nofun, nofun, fun _ => rfl⟩
  · rw [if_neg hend]
    exact ⟨nofun, nofun, fun h => absurd h hend⟩

/-- A batch is committed and then counted, or the attempt fails before. -/
theorem batch_meets {events : List Event} {known : Standing} (hne : events ≠ []) :
    (streaming target events.length).Meets
      (fun stage _ result => (streaming target events.length).ends stage result) .admitted known
      (Task.execAll (events.map Events.document.insert) >>= fun _ =>
        Task.addStored events.length).run := by
  have hstatements : events.map Events.document.insert
      = (events.map insertCommand).map Statement.document := by
    rw [List.map_map]
    exact List.map_congr_left fun event _ => insert_document event
  rw [Task.execAll_of_ne_nil (List.map_eq_nil_iff.not.mpr hne), hstatements]
  refine Conduct.Meets.task_bind (Conduct.Meets.transact trivial
    (fun e => ends_error (.error e)) (Conduct.Meets.execEach (fun _ _ => trivial) (fun _ _ => rfl)
      ?_ ?_ ?_))
  · intro command hcommand fresh
    obtain ⟨event, -, rfl⟩ := List.mem_map.mp hcommand
    rfl
  · intro deeds hdeeds
    have hlength := batched_insertCommand hdeeds
    refine ⟨⟨rfl, deeds, rfl, hlength⟩, fun fresh reply => ?_⟩
    cases reply with
    | ok committed =>
        -- The batch is stored and has only to be counted, which cannot fail.
        show (streaming target events.length).Meets _ .committed none
          (Task.addStored events.length).run
        exact ⟨⟨rfl, rfl⟩, fun _ _ => rfl⟩
    | error e => exact ends_error (.error e)
  · -- After a statement that failed the transaction is given up, which has no reply to heed.
    intro command known failure
    cases failure with
    | error e => exact ⟨trivial, fun _ _ => ends_error (.error e)⟩
    | crash x => exact ⟨trivial, fun _ _ => ends_error (.crash x)⟩

/-- An attempt looks at the count, and below the target a batch is committed and
counted. -/
theorem ingestion_meets (target batch : Nat) (t : Try) :
    (streaming target (max batch 1)).Meets
      (fun stage _ result => (streaming target (max batch 1)).ends stage result) .fresh none
      ((ingestion .document target batch).attempt t).run := by
  refine Conduct.Meets.ask_bind rfl ?_
  intro _ n
  -- The stage and the attempt go on by the same comparison.
  show Conduct.Meets _ _ (if target ≤ n then Stage.spent else Stage.admitted) _ _
  split
  · exact ⟨nofun, nofun, fun _ => rfl⟩
  · rename_i hcount
    -- A batch is begun, whose events are made up without asking the store.
    refine Conduct.Meets.ask_bind trivial ?_
    intro _ first
    refine Conduct.Meets.ask_bind trivial ?_
    intro _ time
    refine Conduct.Meets.task_bind (batchStatements_meets first time ?_)
    intro events hlength
    have hne : events ≠ [] := List.ne_nil_of_length_pos (by omega)
    show Conduct.Meets _ _ _ _ (Task.execAll (events.map Events.document.insert) >>= fun _ =>
      Task.addStored (max batch 1)).run
    rw [← hlength]
    exact batch_meets hne

/-- Batches lead on the events and their count, however many clients there are. -/
def batches (target batch workers : Nat) :
    Upkeep Stage (ingestion .document target batch).attempt where
  toConduct := streaming target (max batch 1)
  Shared w stages _ successes := Streamed target (max batch 1) workers w stages successes
  Spent := Enough target
  meets_attempt := ingestion_meets target batch
  shared_exchange hshared hstage hasks hholds hanswer :=
    have hadvance := advance_answer hasks hholds hanswer
    ⟨hshared.advance hstage hadvance, hshared.enough_advance hstage hadvance⟩
  shared_ok := by
    rintro w stages commits successes i stage hshared hstage rfl
    exact hshared.succeed hstage
  shared_error := by
    rintro w stages commits successes i stage failure hshared hstage ⟨hcommitted, hcounted, -⟩
    exact hshared.withdraw hstage hcommitted hcounted (.inl rfl)
  spent_of_terminal := by
    rintro w stages commits successes i stage e hshared hstage ⟨-, -, hspent⟩ hterminal
    exact hshared.spent
      (hspent (isExhausted_of_terminal hterminal) ▸ List.mem_of_getElem? hstage)

/-! ### Before and after the attempts -/

/-- The set-up clears the count of stored events and needs nothing of the store for
that. -/
theorem setup_run (target batch : Nat) (w : World Server) :
    World.site.run w (ingestion .document target batch).setup.run
      = ({ w with stored := 0 }, .ok ()) := rfl

/-- Where everybody is at the beginning nobody is further, so that nothing is under way. -/
theorem count_fresh (workers : Nat) (stage : Stage) (hne : stage ≠ .fresh) :
    (List.replicate workers Stage.fresh).count stage = 0 :=
  List.count_eq_zero.mpr fun hmem => hne (List.eq_of_mem_replicate hmem)

/-- Without events there is nothing under way and nothing to count. -/
theorem streamed_start (hbatch : 0 < batch) (hworkers : 0 < workers) (hempty : eventCount w = 0)
    (hstored : w.stored = 0) :
    Streamed target batch workers w (List.replicate workers .fresh) 0 where
  length_eq := List.length_replicate
  events_eq := by
    rw [hempty, count_fresh workers .counted nofun, count_fresh workers .committed nofun]
    rfl
  stored_eq := by
    rw [hstored, count_fresh workers .counted nofun]
    rfl
  bound := by
    rw [hstored, count_fresh workers .admitted nofun, count_fresh workers .committed nofun]
    have hpos := Nat.mul_pos hworkers hbatch
    omega
  fits _ := by
    rw [hempty]
    exact Nat.lt_of_lt_of_le (Nat.mul_pos hworkers hbatch) (Nat.le_add_left ..)
  spent hspent := by cases List.eq_of_mem_replicate hspent

/-- Where nobody is in an attempt the events are those of the successes, and they
are counted. -/
theorem Streamed.idle
    (h : Streamed target batch workers w (List.replicate workers .fresh) successes) :
    eventCount w = batch * successes ∧ (eventCount w < 2 ^ 63 → w.stored = eventCount w) := by
  have hevents := h.events_eq
  have hstored := h.stored_eq
  rw [count_fresh workers .counted nofun, Nat.add_zero] at hevents hstored
  rw [count_fresh workers .committed nofun, Nat.add_zero] at hevents
  rw [← hevents] at hstored
  refine ⟨hevents, fun hword => ?_⟩
  rw [hstored, Nat.mod_eq_of_lt (by omega)]

/-- The check finds as many events in the store as were counted. -/
theorem verify_counted (target batch : Nat) (hconnected : w.driver.connected = true)
    (hcounted : w.stored = eventCount w) :
    (World.site.run w (ingestion .document target batch).verify.run).2 = .ok (some true) := by
  refine World.Finds.result ?_
  simp only [ingestion, countEvents, Task.queryRow, bind_assoc, pure_bind]
  refine .query hconnected rfl ?_
  have hrows : (w.driver.store.docs Events.table).rows (.count .all)
      = [.ofPairs [("count", .int (eventCount w))]] := by
    rw [Documents.rows, Documents.matching_all, Std.ExtTreeMap.length_toList]
    rfl
  rw [hrows]
  refine .lift rfl (.stored ?_)
  rw [hcounted, beq_self_eq_true]
  exact .done w _

/-! ### The attempts as a whole -/

/-- The count of events is theirs where nobody is in an attempt, and it passes the
target by less than a batch for each worker, whatever the order in which the
requests of the workers are answered, under every retry policy and with every queue
of faults that is left after the set-up.

Each attempt that succeeds stores one batch, and no other stores anything. A run
that is stopped by the end of the workload has reached the target. The bound holds
without more ado; the rest is said of events that fit the count, which is a word.
There are no events before the set-up. -/
theorem counts_match_events (target batch : Nat) {w : World Server}
    (hconnected : w.driver.connected = true) (hsound : w.driver.store.Sound)
    (hempty : eventCount w = 0) :
    let work := ingestion .document target batch
    let bound (workers : Nat) := target + workers * max batch 1
    (∀ prepared, World.site.run w work.setup.run = (prepared, .ok ()) →
      ∀ (faults : List Fault) (config : PoolConfig) (template : Recorder)
        (schedule : List Crew.Event), 0 < config.concurrency →
      let seeded := { prepared with driver := prepared.driver.inject faults }
      let c : Clients := (Crew.start World.site config template {} seeded).run World.site
        work.attempt schedule
      c.state.stored < bound config.concurrency ∧
      (bound config.concurrency ≤ 2 ^ 64 → eventCount c.state < bound config.concurrency) ∧
      (c.Quiet → eventCount c.state = max batch 1 * c.successes ∧
        (eventCount c.state < 2 ^ 63 → c.state.stored = eventCount c.state ∧
          (World.site.run c.state work.verify.run).2 = .ok (some true)))) ∧
    ∀ (engine : EngineConfig) (size : RunConfig) (passed : List (Passed Runner.stages _)) after
      report, 0 < size.concurrency →
      Program.Passes (Runner.Passes World.site work) w
        (Runner.plan engine work.retryPolicy size).run passed after (.ok report) →
      ∃ prepared config template pool worked verdict checked cleared,
        passed = [⟨.setup, .ok (), prepared⟩, ⟨.attempts config template, pool, worked⟩,
          ⟨.verify, verdict, checked⟩, ⟨.teardown, cleared, after⟩] ∧
        worked.stored < bound size.concurrency ∧
        (bound size.concurrency ≤ 2 ^ 64 → eventCount worked < bound size.concurrency) ∧
        (eventCount worked < 2 ^ 63 → worked.stored = eventCount worked ∧
          eventCount worked = max batch 1 * report.operations ∧
          verdict = .ok (some true) ∧ report.dataIntegrity = true ∧
          (report.stopCause = some .terminalConditionMet → target ≤ worked.stored)) := by
  intro work bound
  have hbatch : 0 < max batch 1 := by omega
  constructor
  · intro prepared hsetup faults config template schedule hworkers seeded c
    obtain ⟨rfl, -⟩ := Prod.mk.inj ((setup_run target batch w).symm.trans hsetup)
    have hseeded : seeded.driver.store.Sound := hsound
    obtain ⟨stages, hnow, -, hquiet⟩ :=
      (batches target batch config.concurrency).shared_run config template hseeded
        (streamed_start hbatch hworkers hempty rfl) schedule
    refine ⟨Nat.lt_of_le_of_lt (Nat.le_add_right ..) hnow.bound, hnow.fits, ?_⟩
    intro hq
    rw [hquiet hq] at hnow
    obtain ⟨hevents, hcounted⟩ := hnow.idle
    refine ⟨hevents, fun hword => ⟨hcounted hword, ?_⟩⟩
    exact verify_counted target batch ((Clients.connected_run schedule).trans hconnected)
      (hcounted hword)
  · intro engine size passed after report hworkers hpasses
    obtain ⟨prepared, config, template, pool, worked, verdict, checked, cleared, _, successes, rfl,
      hsetup, hsame, hworked, hoperations, hspent, hverify, hintegrity⟩ :=
      (batches target batch size.concurrency).passes_plan (by
        rintro prepared hsetup
        obtain ⟨rfl, -⟩ := Prod.mk.inj ((setup_run target batch w).symm.trans hsetup)
        exact ⟨hsound, streamed_start hbatch hworkers hempty rfl⟩) hpasses
    obtain ⟨rfl, -⟩ := Prod.mk.inj ((setup_run target batch w).symm.trans hsetup)
    refine ⟨_, config, template, pool, worked, verdict, checked, cleared, rfl,
      Nat.lt_of_le_of_lt (Nat.le_add_right ..) hworked.bound, hworked.fits, fun hword => ?_⟩
    obtain ⟨hevents, hcounted⟩ := hworked.idle
    have hverdict : verdict = .ok (some true) := (congrArg Prod.snd hverify).symm.trans
      (verify_counted target batch (hsame.trans hconnected) (hcounted hword))
    subst hverdict
    refine ⟨hcounted hword, ?_, rfl, (Except.ok.inj hintegrity).symm,
      fun hstop => hspent hstop hword⟩
    -- Each batch has an event at least, so the successes fit a word as well.
    have hfewer := Nat.le_mul_of_pos_left successes hbatch
    rw [hoperations, Nat.mod_eq_of_lt (by omega)]
    exact hevents

/-- A stream with numbers for identities, and a fault for the first commit. -/
def brook : World Server where
  driver := { connected := true, faults := [.conflict], latency := ⟨1000⟩ }
  supply := { identity := toString, number := id }
  clock := default

/-- What becomes there of two workers who want three events, in batches of two. -/
def ingested : Attempted Report :=
  (Runner.run World.site (ingestion .document 3 2) 150 {} { concurrency := 2 } brook).2

/-- The commit that meets the fault is made again, so that no batch is lost and none is
counted twice. -/
theorem counts_match_events_brook :
    (brook.driver.connected = true ∧ brook.driver.store.Sound ∧ eventCount brook = 0) ∧
    ∃ report worked, ingested = .ok report ∧
      report.stopCause = some .terminalConditionMet ∧ report.dataIntegrity = true ∧
      3 ≤ worked.stored ∧ worked.stored < 7 ∧ worked.stored = eventCount worked ∧
      eventCount worked = 2 * report.operations := by
  have hempty : eventCount brook = 0 := by decide +kernel
  have hcounts := counts_match_events 3 2 (w := brook) rfl Store.sound_empty hempty
  have hover : ∀ template prepared, Recorder.make {} = .ok template →
      World.site.run brook (ingestion .document 3 2).setup.run = (prepared, .ok ()) →
      (Rehearsal.run World.site (ingestion .document 3 2).attempt 150 (Rehearsal.make World.site
        (Runner.poolConfig {} none { concurrency := 2 }) template {} prepared)).pool.isOver
          = true := by
    intro template prepared hmake hsetup
    cases hmake
    cases hsetup
    decide +kernel
  have hcause : ingested.toOption.bind Report.stopCause = some .terminalConditionMet := by
    decide +kernel
  obtain ⟨report, hreport, hcause⟩ := Option.bind_eq_some_iff.mp hcause
  obtain ⟨hingested, passed, _, hpasses⟩ := Runner.passes_of_report World.site
    (ingestion .document 3 2) 150 {} { concurrency := 2 } brook hover hreport
  refine ⟨⟨rfl, Store.sound_empty, hempty⟩, ?_⟩
  obtain ⟨-, -, -, -, worked, _, -, -, -, hbound, hfits, hcounted⟩ :=
    hcounts.2 {} _ passed _ _ (by decide) hpasses
  have hfew : eventCount worked < 7 := hfits (by decide)
  obtain ⟨hsame, hevents, -, hintegrity, hreached⟩ := hcounted (by omega)
  exact ⟨report, worked, hingested, hcause, hintegrity, hreached hcause, hbound, hsame, hevents⟩

end StoreBench.Scenario.Stream
