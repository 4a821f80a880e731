import StoreBench.Proofs.Document.FirstReads
import StoreBench.Proofs.Document.Records
import StoreBench.Proofs.Scenario.Transact

/-!
# `StoreBench.Proofs.Scenario.Batch`: batches that succeed

Set-ups and teardowns are batches of a client that is alone: its commands are made
in one transaction, which nobody can get in the way of. So a batch succeeds when
each command does (`Transaction.Makes`) and what they lead to can be committed
(`site_run_batch`).

Dropping collections always succeeds and leaves them empty (`site_run_drops`).
Inserting documents succeeds when their places, collection and key, are all
different and free (`site_run_inserted`). Both follow the transaction through the
commands: what it holds of each collection is known at every point (`Dropped`,
`Seeded`).
-/

set_option autoImplicit false

namespace StoreBench

/-- The collection and the key under which a command inserts a document, if it does
and the document has a key. -/
def Command.place? : Command → Option (String × String)
  | ⟨name, .insertOne doc⟩ => doc.key?.map fun key => (name, key)
  | _ => none

/-- What inserts a document under a place is an insertion of an object with that key. -/
theorem Command.place?_eq_some {command : Command} {place : String × String}
    (h : command.place? = some place) :
    ∃ fields, command = ⟨place.1, .insertOne (.obj fields)⟩ ∧
      Json.key? (.obj fields) = some place.2 := by
  unfold place? at h
  split at h
  · rename_i name doc
    obtain ⟨key, hkey, rfl⟩ := Option.map_eq_some_iff.mp h
    cases doc with
    | obj fields => exact ⟨fields, rfl, hkey⟩
    | null | bool | int | float | str | arr => cases hkey
  · cases h

/-- Such a document has its identity already, so that none is made up for it. -/
theorem Command.identified_of_place? {command : Command} {place : String × String}
    (h : command.place? = some place) (fresh : String) : command.identified fresh = command := by
  obtain ⟨fields, rfl, hkey⟩ := place?_eq_some h
  obtain ⟨id, hid, -⟩ := Option.map_eq_some_iff.mp hkey
  simp only [identified, Json.identified, hid]

/-- Where the places of commands are known, each command has one of them. -/
theorem Command.exists_place {commands : List Command} {places : List (String × String)}
    (hplaces : commands.map Command.place? = places.map some) {command : Command}
    (hcommand : command ∈ commands) : ∃ place ∈ places, command.place? = some place := by
  have hmem : command.place? ∈ places.map some := by
    rw [← hplaces]
    exact List.mem_map_of_mem hcommand
  obtain ⟨place, hplace, hat⟩ := List.mem_map.mp hmem
  exact ⟨place, hplace, hat.symm⟩

/-- The document that a command inserts into a collection, if it does. -/
def Command.inserted? (name : String) : Command → Option Json
  | ⟨collection, .insertOne doc⟩ => if collection = name then some doc else none
  | _ => none

/-- Nothing is inserted into a collection that no place is in. -/
theorem Command.inserted_eq_nil {commands : List Command} {places : List (String × String)}
    (hplaces : commands.map Command.place? = places.map some) {name : String}
    (hname : ∀ place ∈ places, place.1 ≠ name) :
    commands.filterMap (Command.inserted? name) = [] := by
  refine List.filterMap_eq_nil_iff.mpr fun command hcommand => ?_
  obtain ⟨place, hplace, hat⟩ := Command.exists_place hplaces hcommand
  obtain ⟨fields, rfl, -⟩ := Command.place?_eq_some hat
  exact if_neg (hname place hplace)

/-- Deeds that only insert documents leave in each collection what inserting its
documents there leaves. -/
theorem Contents.Explains.insertAll {c : Contents} {deeds : List Deed} (h : c.Explains deeds)
    (hinserts : ∀ deed ∈ deeds, ∃ place, deed.command.place? = some place) (name : String) :
    (c name).insertAll name ((deeds.map Deed.command).filterMap (Command.inserted? name))
      = .ok (c.run deeds name) := by
  induction deeds generalizing c with
  | nil => rfl
  | cons deed rest ih =>
      obtain ⟨command, seen⟩ := deed
      obtain ⟨⟨outcome, hok, -⟩, hexplains⟩ := h
      obtain ⟨place, hplace⟩ := hinserts _ List.mem_cons_self
      obtain ⟨fields, rfl, hkey⟩ := Command.place?_eq_some hplace
      have hrest := ih hexplains fun other hother => hinserts other (List.mem_cons_of_mem _ hother)
      by_cases hname : place.1 = name
      · -- The deed was explained, so its key was free.
        subst hname
        obtain ⟨key, hkey', hfree, hafter⟩ := Documents.apply_insertOne_ok hok
        obtain rfl := Option.some.inj (hkey.symm.trans hkey')
        have hnew : (c place.1).contains place.2 = false := by
          rw [Std.ExtTreeMap.contains_eq_isSome_getElem?, hfree]
          rfl
        have hfound : Command.inserted? place.1 ⟨place.1, .insertOne (.obj fields)⟩
            = some (.obj fields) := if_pos rfl
        rw [c.perform_self ⟨place.1, .insertOne (.obj fields)⟩, hafter] at hrest
        rw [List.map_cons, List.filterMap_cons_some hfound]
        simp only [Documents.insertAll, hkey, hnew]
        exact hrest
      · -- The insertion goes elsewhere.
        have hnone : Command.inserted? name ⟨place.1, .insertOne (.obj fields)⟩ = none :=
          if_neg hname
        rw [Contents.perform_other (Ne.symm hname)] at hrest
        rw [List.map_cons, List.filterMap_cons_none hnone]
        exact hrest

/-- One more document fits when its key is free, in the collection and among those
that are held back. -/
theorem Touched.Fits.concat {s : Store} {name key : String} {inserts : List Json} {fields : Fields}
    (h : Touched.Fits s name (.blind inserts)) (hkey : Json.key? (.obj fields) = some key)
    (hfree : (s.docs name).contains key = false) (hnew : key ∉ inserts.filterMap Json.key?) :
    Touched.Fits s name (.blind (inserts ++ [.obj fields])) := by
  obtain ⟨hobjects, hnodup, hall⟩ := h
  have hkeys : (inserts ++ [Json.obj fields]).filterMap Json.key?
      = inserts.filterMap Json.key? ++ [key] := by
    rw [List.filterMap_append]
    simp [hkey]
  refine ⟨?_, ?_, ?_⟩
  · intro doc hdoc
    rcases List.mem_append.mp hdoc with hold | hlast
    · exact hobjects doc hold
    · exact ⟨fields, List.mem_singleton.mp hlast⟩
  · rw [hkeys]
    exact (List.perm_append_singleton key _).nodup_iff.mpr (List.nodup_cons.mpr ⟨hnew, hnodup⟩)
  · rw [hkeys]
    intro other hother
    rcases List.mem_append.mp hother with hold | hlast
    · exact hall other hold
    · rwa [List.mem_singleton.mp hlast]

namespace Transaction

variable {s t : Store} {tx : Transaction}

/-- Commands that are made one after the other, all of them with success. -/
inductive Makes (s : Store) : Transaction → List Command → Transaction → Prop
  | nil {tx : Transaction} : Makes s tx [] tx
  | cons {tx next after : Transaction} {command : Command} {outcome : Outcome}
      {rest : List Command} (happly : tx.apply s command = (next, .ok outcome))
      (hrest : Makes s next rest after) : Makes s tx (command :: rest) after

/-! ### Dropping -/

/-- These collections are dropped, and no others touched. -/
structure Dropped (s : Store) (names : List String) (tx : Transaction) : Prop where
  nodup : (tx.map Prod.fst).Nodup
  lookup_eq : ∀ name, tx.lookup name
    = if name ∈ names then some (.copied ⟨∅, s.version name⟩ true) else none

/-- A transaction that has done nothing has dropped nothing. -/
theorem dropped_nil (s : Store) : Dropped s [] [] where
  nodup := List.nodup_nil
  lookup_eq _ := rfl

variable {names : List String}

/-- Dropping one more, which may have been dropped before. -/
theorem Dropped.drop (h : Dropped s names tx) (name : String) :
    ∃ next outcome, tx.apply s ⟨name, .dropCollection⟩ = (next, .ok outcome) ∧
      Dropped s (name :: names) next := by
  have hlook : ∃ working dirty, look s name (tx.lookup name) = .ok (working, dirty) ∧
      working.version = s.version name := by
    rw [h.lookup_eq]
    split
    · exact ⟨_, _, rfl, rfl⟩
    · exact ⟨_, _, rfl, rfl⟩
  obtain ⟨working, dirty, hlook, hversion⟩ := hlook
  refine ⟨tx.put name (.copied ⟨∅, s.version name⟩ true),
    { affected := working.docs.size, wrote := true }, ?_, nodup_put h.nodup _ _, fun other => ?_⟩
  · simp only [apply, applyToCopy, hlook, Documents.apply, Bool.or_true, hversion]
  · rw [lookup_put, h.lookup_eq]
    by_cases hname : name = other
    · subst hname
      simp
    · simp [hname, Ne.symm hname]

/-- More collections can be dropped, also such as were dropped before. -/
theorem Dropped.makes (h : Dropped s names tx) (more : List String) :
    ∃ after, Makes s tx (more.map fun name => ⟨name, .dropCollection⟩) after ∧
      Dropped s (more.reverse ++ names) after := by
  induction more generalizing tx names with
  | nil => exact ⟨tx, .nil, h⟩
  | cons name rest ih =>
      obtain ⟨next, outcome, happly, hnext⟩ := h.drop name
      obtain ⟨after, hmakes, hafter⟩ := ih hnext
      refine ⟨after, .cons happly hmakes, ?_⟩
      rwa [List.reverse_cons, List.append_assoc]

/-- Where nobody else commits, dropped collections can be committed, and are empty
then. -/
theorem Dropped.commit (h : Dropped s names tx) :
    ∃ t, tx.commit s = .ok t ∧
      ∀ name, t.docs name = if name ∈ names then ∅ else s.docs name := by
  -- Whatever is held is the empty copy of a collection that is dropped.
  have hheld (name : String) (touched : Touched) (hmem : (name, touched) ∈ tx) :
      name ∈ names ∧ touched = .copied ⟨∅, s.version name⟩ true := by
    have hlookup := (lookup_eq_some_iff_mem h.nodup).mpr hmem
    rw [h.lookup_eq] at hlookup
    split at hlookup
    · rename_i hname
      exact ⟨hname, (Option.some.inj hlookup).symm⟩
    · cases hlookup
  have hformed : tx.WellFormed := by
    refine ⟨h.nodup, fun name inserts hmem => ?_⟩
    cases (hheld name _ hmem).2
  -- Copies of the present version are never in conflict.
  obtain ⟨t, hcommit⟩ := (commit_isOk_iff hformed).mpr fun entry hentry => by
    obtain ⟨-, htouched⟩ := hheld entry.1 entry.2 hentry
    rw [htouched]
    rfl
  refine ⟨t, hcommit, fun name => ?_⟩
  have hname := h.lookup_eq name
  rcases docs_commit h.nodup hcommit name with ⟨hnone, hdocs⟩ |
    ⟨touched, staged, hsome, hstage, hdocs⟩
  · rw [hnone] at hname
    split at hname
    · cases hname
    · rename_i hother
      rw [if_neg hother, hdocs]
  · rw [hsome] at hname
    split at hname
    · rename_i hmem
      obtain rfl := Option.some.inj hname
      have hstaged : stage s name (.copied ⟨∅, s.version name⟩ true) = .ok (some ∅) :=
        if_neg fun hne => hne rfl
      cases hstage.symm.trans hstaged
      rw [if_pos hmem, hdocs]
      rfl
    · cases hname

/-! ### Inserting -/

/-- Documents are held back for these places, all of them free, and nothing else is
held. -/
structure Seeded (s : Store) (places : List (String × String)) (tx : Transaction) : Prop where
  wellFormed : tx.WellFormed
  held : ∀ name touched, tx.lookup name = some touched → ∃ inserts, touched = .blind inserts ∧
    touched.Fits s name ∧ ∀ key ∈ inserts.filterMap Json.key?, (name, key) ∈ places

/-- A transaction that has done nothing holds back nothing. -/
theorem seeded_nil (s : Store) : Seeded s [] [] where
  wellFormed := wellFormed_nil
  held := nofun

variable {places : List (String × String)} {place : String × String} {command : Command}

/-- One more document, for a place that is free. -/
theorem Seeded.insert (h : Seeded s places tx) (hplace : command.place? = some place)
    (hfree : (s.docs place.1).contains place.2 = false) (hnew : place ∉ places) :
    ∃ next outcome, tx.apply s command = (next, .ok outcome) ∧
      Seeded s (place :: places) next := by
  obtain ⟨name, key⟩ := place
  obtain ⟨fields, rfl, hkey⟩ := Command.place?_eq_some hplace
  -- What is held back so far, nothing at first, takes the document at its end.
  have hblind : ∃ inserts, Touched.Fits s name (.blind inserts) ∧
      (∀ key ∈ inserts.filterMap Json.key?, (name, key) ∈ places) ∧
      tx.apply s ⟨name, .insertOne (.obj fields)⟩
        = (tx.put name (.blind (inserts ++ [.obj fields])),
          .ok { affected := 1, wrote := true }) := by
    cases hheld : tx.lookup name with
    | none =>
        refine ⟨[], ⟨nofun, List.nodup_nil, nofun⟩, nofun, ?_⟩
        simp only [apply, hheld, List.nil_append]
    | some touched =>
        obtain ⟨inserts, rfl, hfits, hplaces⟩ := h.held name touched hheld
        exact ⟨inserts, hfits, hplaces, by simp only [apply, hheld]⟩
  obtain ⟨inserts, hfits, hplaces, happly⟩ := hblind
  refine ⟨_, _, happly, ?_, ?_⟩
  · have hkeyed : Command.Keyed ⟨name, .insertOne (.obj fields)⟩ := by
      rintro _ ⟨⟩
      rw [hkey]
      rfl
    have hformed := h.wellFormed.apply s hkeyed
    rwa [happly] at hformed
  · intro other touched hother
    rw [lookup_put] at hother
    split at hother
    · rename_i hname
      subst hname
      obtain rfl := Option.some.inj hother
      refine ⟨_, rfl, hfits.concat hkey hfree fun hmem => hnew (hplaces _ hmem), ?_⟩
      intro other hother
      rw [List.filterMap_append] at hother
      rcases List.mem_append.mp hother with hold | hlast
      · exact List.mem_cons_of_mem _ (hplaces other hold)
      · obtain rfl : other = key := by simpa [hkey] using hlast
        exact List.mem_cons_self
    · obtain ⟨inserts, rfl, hfits, hplaces⟩ := h.held other touched hother
      exact ⟨inserts, rfl, hfits, fun key hkey => List.mem_cons_of_mem _ (hplaces key hkey)⟩

/-- More documents can be inserted, if their places are free and none is given twice. -/
theorem Seeded.makes {commands : List Command} {new : List (String × String)}
    (h : Seeded s places tx) (hplaces : commands.map Command.place? = new.map some)
    (hfree : ∀ place ∈ new, (s.docs place.1).contains place.2 = false)
    (hnodup : (new ++ places).Nodup) :
    ∃ after places', Makes s tx commands after ∧ Seeded s places' after := by
  induction commands generalizing tx places new with
  | nil => exact ⟨tx, places, .nil, h⟩
  | cons command rest ih =>
      cases new with
      | nil => cases hplaces
      | cons place new =>
          obtain ⟨hplace, hrest⟩ := List.cons.inj hplaces
          obtain ⟨hplaceFree, hnewFree⟩ := List.forall_mem_cons.mp hfree
          obtain ⟨hnew, hothers⟩ := List.nodup_cons.mp hnodup
          obtain ⟨next, outcome, happly, hnext⟩ := h.insert hplace hplaceFree fun hmem =>
            hnew (List.mem_append_right new hmem)
          obtain ⟨after, places', hmakes, hafter⟩ := ih hnext hrest hnewFree
            (List.perm_middle.nodup_iff.mpr hnodup)
          exact ⟨after, places', .cons happly hmakes, hafter⟩

/-- They can be committed, as each place is still free. -/
theorem Seeded.commit (h : Seeded s places tx) : ∃ t, tx.commit s = .ok t := by
  refine (commit_isOk_iff h.wellFormed).mpr fun entry hentry => ?_
  obtain ⟨inserts, -, hfits, -⟩ :=
    h.held entry.1 entry.2 ((lookup_eq_some_iff_mem h.wellFormed.nodup).mpr hentry)
  exact hfits

/-- The documents that a transaction holds back for a collection. -/
def heldBack (tx : Transaction) (name : String) : List Json :=
  match tx.lookup name with
  | some (.blind inserts) => inserts
  | some (.copied _ _) | none => []

/-- Whatever a transaction holds is held back, so that it has read nothing. -/
def IsBlind (tx : Transaction) : Prop :=
  ∀ name touched, tx.lookup name = some touched → ∃ inserts, touched = .blind inserts

/-- A transaction that has done nothing has read nothing. -/
theorem isBlind_nil : IsBlind [] := fun _ _ hheld => nomatch hheld

/-- Seeding reads nothing. -/
theorem Seeded.isBlind (h : Seeded s places tx) : tx.IsBlind := fun name touched hheld => by
  obtain ⟨inserts, hblind, -⟩ := h.held name touched hheld
  exact ⟨inserts, hblind⟩

/-- Inserting holds one more document back, behind those of its collection. -/
theorem IsBlind.insert (h : tx.IsBlind) {name : String} {doc : Json} {next : Transaction}
    {outcome : Outcome} (happly : tx.apply s ⟨name, .insertOne doc⟩ = (next, .ok outcome)) :
    next.IsBlind ∧ ∀ other, next.heldBack other
      = tx.heldBack other ++ (Command.inserted? other ⟨name, .insertOne doc⟩).toList := by
  -- Whether something was held back for the collection or not, the document comes behind
  -- it.
  have hnext : next = tx.put name (.blind (tx.heldBack name ++ [doc])) := by
    unfold heldBack
    cases hheld : tx.lookup name with
    | none =>
        simp only [apply, hheld, Prod.mk.injEq] at happly
        exact happly.1.symm
    | some touched =>
        obtain ⟨inserts, rfl⟩ := h name touched hheld
        simp only [apply, hheld, Prod.mk.injEq] at happly
        exact happly.1.symm
  subst hnext
  constructor
  · intro other touched hother
    rw [lookup_put] at hother
    split at hother
    · exact ⟨_, (Option.some.inj hother).symm⟩
    · exact h other touched hother
  · intro other
    by_cases hname : name = other
    · subst hname
      simp [heldBack, lookup_put, Command.inserted?]
    · simp [heldBack, lookup_put, Command.inserted?, hname]

/-- Commands that insert hold their documents back, one after the other, each behind
those of its collection. -/
theorem Makes.heldBack {after : Transaction} {commands : List Command}
    (h : Makes s tx commands after) (hblind : tx.IsBlind)
    (hplaces : ∀ command ∈ commands, ∃ place, command.place? = some place) :
    after.IsBlind ∧ ∀ name,
      after.heldBack name = tx.heldBack name ++ commands.filterMap (Command.inserted? name) := by
  induction h with
  | nil => exact ⟨hblind, fun name => (List.append_nil _).symm⟩
  | @cons tx next after command outcome rest happly hrest ih =>
      obtain ⟨⟨place, hplace⟩, hothers⟩ := List.forall_mem_cons.mp hplaces
      obtain ⟨fields, rfl, -⟩ := Command.place?_eq_some hplace
      obtain ⟨hnext, hheld⟩ := hblind.insert happly
      obtain ⟨hafter, hlater⟩ := ih hnext hothers
      refine ⟨hafter, fun name => ?_⟩
      rw [hlater, hheld, List.append_assoc]
      congr 1
      cases hinserted : Command.inserted? name ⟨place.1, .insertOne (.obj fields)⟩ with
      | none => rw [List.filterMap_cons_none hinserted, Option.toList_none, List.nil_append]
      | some doc => rw [List.filterMap_cons_some hinserted, Option.toList_some]; rfl

/-- A commit inserts what was held back into the collections. -/
theorem IsBlind.commit (h : tx.IsBlind) (hnodup : (tx.map Prod.fst).Nodup)
    (hcommit : tx.commit s = .ok t) (name : String) :
    (s.docs name).insertAll name (tx.heldBack name) = .ok (t.docs name) := by
  unfold heldBack
  rcases docs_commit hnodup hcommit name with ⟨hnone, hdocs⟩ |
    ⟨touched, staged, hsome, hstage, hdocs⟩
  · rw [hnone, hdocs]
    rfl
  · obtain ⟨inserts, rfl⟩ := h name touched hsome
    rw [hsome, hdocs]
    cases inserts with
    | nil =>
        obtain rfl : none = staged := Except.ok.inj hstage
        rfl
    | cons doc rest =>
        simp only [stage, bind, Except.bind] at hstage ⊢
        split at hstage
        · cases hstage
        · rename_i docs hinsert
          rw [hinsert, ← Except.ok.inj hstage]
          rfl

end Transaction

namespace Scenario

open Transaction (Makes)

variable {w : World Server} {tx after : Transaction} {commands : List Command}

/-- Commands that are made one after the other, by a client that nobody
interrupts. -/
theorem run_makes {s : Store} (hstore : w.driver.store = s) (h : Makes s tx commands after)
    (hown : ∀ command ∈ commands, ∀ fresh, command.identified fresh = command) :
    Program.run World.exchange (w, some tx)
        ((commands.map Statement.document).forM fun s => discard (Task.execIn s)).run
      = (({ w with identities := w.identities + commands.length }, some after), .ok ⟨⟩) := by
  induction h generalizing w with
  | nil => rfl
  | @cons tx next after command outcome rest happly hrest ih =>
      obtain ⟨hcommand, hothers⟩ := List.forall_mem_cons.mp hown
      have hexchange : World.exchange (w, some tx) (.call (.execIn (.document command)))
          = (({ w with identities := w.identities + 1 }, some next), .ok outcome.affected) := by
        have hexec : w.driver.execIn tx (w.supply.identity w.identities) (.document command)
            = (next, .ok outcome.affected) := by
          simp only [Server.execIn, Server.commandOf, hcommand, hstore, happly]
          rfl
        simp only [World.exchange, World.answer, Driver.answer, Server.answer, hexec]
      have hlater := ih (w := { w with identities := w.identities + 1 }) hstore hothers
      rw [Nat.add_right_comm] at hlater
      rw [List.length_cons, ← Nat.add_assoc, ← hlater]
      refine (run_ask (w, some tx) (.call (.execIn (.document command))) _).trans ?_
      rw [hexchange]
      rfl

/-- A batch of commands of a client that is alone, where nothing can fail but the
commands themselves and what they lead to. -/
theorem site_run_batch {t : Store} (hconnected : w.driver.connected = true)
    (hfaults : w.driver.faults = []) (h : Makes w.driver.store [] commands tx)
    (hown : ∀ command ∈ commands, ∀ fresh, command.identified fresh = command)
    (hcommit : tx.commit w.driver.store = .ok t) :
    ∃ after, World.site.run w (Task.execAll (commands.map .document)).run = (after, .ok ()) ∧
      after.driver.store = t := by
  cases hcommands : commands with
  | nil =>
      -- There is not even a transaction.
      subst hcommands
      cases h
      cases hcommit
      exact ⟨w, rfl, rfl⟩
  | cons command rest =>
      rw [← hcommands, Task.execAll_of_ne_nil (by simp [hcommands]), site_run_eq,
        Task.transact_run]
      have hbegin : World.exchange (w, none) (.call .begin)
          = (({ w with identities := w.identities + 1 }, some []), .ok ()) := by
        simp only [World.exchange, World.answer, Driver.answer, Server.answer,
          Server.checkConnected, hconnected, if_true]
      have hbody := run_makes (w := { w with identities := w.identities + 1 }) rfl h hown
      have hend (identities : Nat) :
          World.exchange ({ w with identities := identities }, some tx) (.call .commit)
            = (({ w with
                driver := { w.driver with store := t, counters := w.driver.counters.committed }
                identities := identities + 1 }, none), .ok ()) := by
        simp only [World.exchange, World.answer, Driver.answer, Server.answer, Server.commit,
          Server.takeFault, hfaults, hcommit]
      rw [run_ask, hbegin, Task.opened, Program.run_bind, hbody, Task.closing, run_ask, hend]
      exact ⟨_, rfl, rfl⟩

/-- Dropping collections leaves them empty and all others as they were. -/
theorem site_run_drops (hconnected : w.driver.connected = true) (hfaults : w.driver.faults = [])
    (names : List String) :
    ∃ after, World.site.run w
        (Task.execAll (names.map fun name => .on name .dropCollection)).run = (after, .ok ()) ∧
      ∀ name, after.driver.store.docs name
        = if name ∈ names then ∅ else w.driver.store.docs name := by
  obtain ⟨tx, hmakes, hdropped⟩ := (Transaction.dropped_nil w.driver.store).makes names
  rw [List.append_nil] at hdropped
  obtain ⟨t, hcommit, hdocs⟩ := hdropped.commit
  obtain ⟨after, hrun, rfl⟩ := site_run_batch hconnected hfaults hmakes (by
    intro command hcommand fresh
    obtain ⟨name, -, rfl⟩ := List.mem_map.mp hcommand
    rfl) hcommit
  rw [List.map_map] at hrun
  exact ⟨after, hrun, fun name => by simpa only [List.mem_reverse] using hdocs name⟩

/-- Documents can be inserted into places that are all different and free, and each
collection has them then. -/
theorem site_run_inserted (hconnected : w.driver.connected = true) (hfaults : w.driver.faults = [])
    {places : List (String × String)} (hplaces : commands.map Command.place? = places.map some)
    (hnodup : places.Nodup)
    (hfree : ∀ place ∈ places, (w.driver.store.docs place.1).contains place.2 = false) :
    ∃ after, World.site.run w (Task.execAll (commands.map .document)).run = (after, .ok ()) ∧
      ∀ name, (w.driver.store.docs name).insertAll name
        (commands.filterMap (Command.inserted? name)) = .ok (after.driver.store.docs name) := by
  have hplaced : ∀ command ∈ commands, ∃ place, command.place? = some place := by
    intro command hcommand
    obtain ⟨place, -, hplace⟩ := Command.exists_place hplaces hcommand
    exact ⟨place, hplace⟩
  obtain ⟨tx, places', hmakes, hseeded⟩ := (Transaction.seeded_nil w.driver.store).makes hplaces
    hfree (by rwa [List.append_nil])
  obtain ⟨t, hcommit⟩ := hseeded.commit
  obtain ⟨after, hrun, rfl⟩ := site_run_batch hconnected hfaults hmakes (fun command hcommand => by
    obtain ⟨place, hplace⟩ := hplaced command hcommand
    exact Command.identified_of_place? hplace) hcommit
  obtain ⟨-, hheld⟩ := hmakes.heldBack Transaction.isBlind_nil hplaced
  refine ⟨after, hrun, fun name => ?_⟩
  have hdocs := hseeded.isBlind.commit hseeded.wellFormed.nodup hcommit name
  rwa [hheld] at hdocs

end Scenario

end StoreBench
