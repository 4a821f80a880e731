import Mathlib.Data.List.Nodup
import Mathlib.Data.List.Perm.Subperm
import StoreBench.Proofs.Scenario.Batch
import StoreBench.Proofs.Scenario.Confined
import StoreBench.Scenario.Schema

/-!
# `StoreBench.Proofs.Scenario.Seeding`: set-ups that succeed

A set-up draws what it needs, identities and numbers, and then inserts in one batch
what it came to (`Draws`). The documents go to places that are fixed, or that are
made of the identities. So all places are different where all the identities are
(`Seeds`), and the batch succeeds where the collections are empty
(`Draws.run_setup`).

`Inserts` is the part of this that is put together piece by piece: each identity is
used for one key at most.
-/

set_option autoImplicit false

namespace StoreBench.Scenario

/-- The identities that are taken from a supply between two counts of them. Where these
are all different, nothing that is made of them collides. -/
def Supply.taken (s : Supply) (first last : Nat) : List String :=
  (List.range' first (last - first)).map s.identity

/-- The next identity is the first of those that are taken from here on. -/
theorem Supply.taken_succ (s : Supply) {first last : Nat} (h : first < last) :
    s.taken first last = s.identity first :: s.taken (first + 1) last := by
  have hcount : last - first = (last - (first + 1)) + 1 := by omega
  rw [taken, hcount, List.range'_succ, List.map_cons]
  rfl

/-- What is taken up to some moment is part of what is taken in all. -/
theorem Supply.taken_sublist (s : Supply) {first last later : Nat} (h : last ≤ later) :
    (s.taken first last).Sublist (s.taken first later) := by
  refine List.Sublist.map s.identity ?_
  exact List.range'_sublist_right.mpr (by omega)

/-- A supply whose identities are all different never hands out one twice, however long
it is used. -/
theorem Supply.nodup_taken {s : Supply} (h : Function.Injective s.identity) (first last : Nat) :
    (s.taken first last).Nodup := List.Nodup.map h List.nodup_range'

/-! ### Drawing -/

/-- A client makes no call. It is at the identities that it has drawn so far. -/
def Conduct.drawing : Conduct (List String) where
  start := []
  next drawn r reply := match r, reply with
    | .identity, id => drawn ++ [id]
    | _, _ => drawn
  asks _ _ r := ∀ c, r ≠ .call c
  ends _ _ := True

section Drawing

variable {γ : Type} {post : List String → Standing → γ → Prop} {p : Program requests γ}
  {before : List String} {known : Standing}

/-- Whoever makes no call writes nothing at all, so it keeps to any collections. -/
theorem Conduct.Meets.within_of_drawing (h : Conduct.drawing.Meets post before known p)
    (names : List String) :
    (Conduct.within names).Meets (fun _ _ a => ∃ drawn known, post drawn known a) () known p := by
  induction p generalizing before known with
  | done a => exact ⟨before, known, h⟩
  | ask r next ih =>
      refine ⟨?_, fun fresh reply => ih reply (h.2 fresh reply)⟩
      match r with
      | .call c => exact absurd rfl (h.1 c)
      | .identity | .draw _ | .now | .stored | .addStored _ | .clearStored | .takeBegun _ =>
          trivial

/-- Where nobody interrupts, the identities that are drawn are among those that are
taken from the supply, in their order. -/
theorem Conduct.Meets.run_drawing (h : Conduct.drawing.Meets post before known p)
    (w : World Server) :
    ∃ later drawn known a, Program.run World.exchange (w, none) p = ((later, none), a) ∧
      post (before ++ drawn) known a ∧ later.driver = w.driver ∧ later.supply = w.supply ∧
      w.identities ≤ later.identities ∧
      drawn.Sublist (w.supply.taken w.identities later.identities) := by
  induction p generalizing before known w with
  | done a =>
      refine ⟨w, [], known, a, rfl, ?_, rfl, rfl, Nat.le_refl _, List.nil_sublist _⟩
      rw [List.append_nil]
      exact h
  | ask r next ih =>
      match r with
      | .call c => exact absurd rfl (h.1 c)
      | .identity =>
          -- The next one of the supply, and then what the rest draws.
          obtain ⟨later, drawn, known, a, hlater, hpost, hdriver, hsupply, hle, hdrawn⟩ :=
            ih _ (h.2 default (w.supply.identity w.identities))
              { w with identities := w.identities + 1 }
          refine ⟨later, w.supply.identity w.identities :: drawn, known, a, hlater, ?_, hdriver,
            hsupply, Nat.le_of_succ_le hle, ?_⟩
          · rwa [List.append_cons]
          · rw [Supply.taken_succ _ hle]
            exact hdrawn.cons_cons _
      | .draw bound => exact ih _ (h.2 default _) { w with numbers := w.numbers + 1 }
      | .now => exact ih _ (h.2 default _) w
      | .stored => exact ih _ (h.2 default _) w
      | .addStored n => exact ih _ (h.2 default _) { w with stored := (w.stored + n) % 2 ^ 64 }
      | .clearStored => exact ih _ (h.2 default _) { w with stored := 0 }
      | .takeBegun n => exact ih _ (h.2 default _) { w with begun := (w.begun + n) % 2 ^ 64 }

end Drawing

/-- A task makes no call and does not fail, and what it comes to is good for the
identities that it has drawn. -/
def Draws {α : Type} (good : List String → α → Prop) (t : Task α) : Prop :=
  ∀ before known, Conduct.drawing.Meets
    (fun after _ result => ∃ drawn a, after = before ++ drawn ∧ result = .ok a ∧ good drawn a)
    before known t.run

namespace Draws

variable {α β : Type} {good : List String → α → Prop} {better : List String → β → Prop}
  {t : Task α}

/-- What is there already takes no identities. -/
theorem pure {a : α} (h : good [] a) : Draws good (pure a) := fun before _ =>
  ⟨[], a, (List.append_nil before).symm, rfl, h⟩

/-- A task whose result is good in one sense is good in every weaker one. -/
theorem mono {weaker : List String → α → Prop} (h : Draws good t)
    (himp : ∀ drawn a, good drawn a → weaker drawn a) : Draws weaker t := fun before known =>
  (h before known).mono fun _ _ _ ⟨drawn, a, hafter, hresult, ha⟩ =>
    ⟨drawn, a, hafter, hresult, himp drawn a ha⟩

/-- Of two tasks after each other the second draws after the first, so the identities
are put one after the other. -/
theorem bind {f : α → Task β} (h : Draws good t)
    (hnext : ∀ drawn a, good drawn a → Draws (fun more => better (drawn ++ more)) (f a)) :
    Draws better (t >>= f) := by
  refine fun before known => Conduct.Meets.task_bind ((h before known).mono ?_)
  rintro _ known _ ⟨drawn, a, rfl, rfl, ha⟩
  refine (hnext drawn a ha (before ++ drawn) known).mono ?_
  rintro _ known _ ⟨more, b, rfl, rfl, hb⟩
  exact ⟨drawn ++ more, b, List.append_assoc .., rfl, hb⟩

/-- Drawing an identity takes the next one of the supply, and comes to it. -/
theorem identity : Draws (fun drawn id => drawn = [id]) Task.identity := fun _ _ =>
  ⟨nofun, fun _ id => ⟨[id], id, rfl, rfl, rfl⟩⟩

/-- A request that is no call and draws no identity takes nothing from the supply. -/
theorem ask {r : Request} (hcall : ∀ c, r ≠ .call c) (hidentity : r ≠ .identity) :
    Draws (fun drawn _ => drawn = []) (Task.ask r) := by
  refine fun before known => ⟨hcall, fun fresh reply => ⟨[], reply, ?_, rfl, rfl⟩⟩
  rw [List.append_nil]
  cases r with
  | call c => exact absurd rfl (hcall c)
  | identity => exact absurd rfl hidentity
  | draw | now | stored | addStored | clearStored | takeBegun => rfl

/-- A task for each of some items draws for each in turn. `all` is what holds of the
items with all that was drawn for them, and grows by one item at a time. -/
theorem mapM {ι : Type} {f : ι → Task α} {one : ι → List String → α → Prop}
    (all : List ι → List String → List α → Prop) (hone : ∀ i, Draws (one i) (f i))
    (hnone : all [] [] [])
    (hmore : ∀ i drawn a rest others results, one i drawn a → all rest others results →
      all (i :: rest) (drawn ++ others) (a :: results)) (items : List ι) :
    Draws (all items) (items.mapM f) := by
  induction items with
  | nil => exact .pure hnone
  | cons i rest ih =>
      rw [List.mapM_cons]
      refine (hone i).bind fun drawn a ha => ih.bind fun others results hresults => .pure ?_
      rw [List.append_nil]
      exact hmore i drawn a rest others results ha hresults

/-- Such a task writes nothing at all, so a set-up may gather what it inserts without
touching the store. -/
theorem confined (h : Draws good t) (names : List String) :
    Confined names (fun a => ∃ drawn, good drawn a) t := by
  intro known
  refine ((h [] known).within_of_drawing names).mono ?_
  rintro _ _ result ⟨_, _, drawn, a, -, rfl, ha⟩ _ ⟨⟩
  exact ⟨drawn, ha⟩

/-- What a client that nobody interrupts draws is taken from the supply, in its order,
and the store is as before. -/
theorem run_exchange (h : Draws good t) (w : World Server) :
    ∃ later drawn a, Program.run World.exchange (w, none) t.run = ((later, none), .ok a) ∧
      good drawn a ∧ later.driver = w.driver ∧ later.supply = w.supply ∧
      w.identities ≤ later.identities ∧
      drawn.Sublist (w.supply.taken w.identities later.identities) := by
  obtain ⟨later, drawn, -, result, hlater, ⟨_, a, hsame, rfl, ha⟩, hrest⟩ :=
    (h [] none).run_drawing w
  obtain rfl := hsame
  exact ⟨later, drawn, a, hlater, ha, hrest⟩

end Draws

/-! ### What is inserted -/

/-- Statements that insert documents into these places, in this order. A place is a
collection with a key in it. -/
def InsertsAt (places : List (String × String)) (statements : List Statement) : Prop :=
  ∃ commands : List Command, statements = commands.map .document ∧
    commands.map Command.place? = places.map some

namespace InsertsAt

variable {places others : List (String × String)} {statements more : List Statement}

/-- Without statements nothing is inserted, in no place. -/
theorem nil : InsertsAt [] [] := ⟨[], rfl, rfl⟩

/-- Places of statements that are put together are put together as well. -/
theorem append (h : InsertsAt places statements) (hmore : InsertsAt others more) :
    InsertsAt (places ++ others) (statements ++ more) := by
  obtain ⟨commands, rfl, hplaces⟩ := h
  obtain ⟨commands', rfl, hothers⟩ := hmore
  refine ⟨commands ++ commands', (List.map_append ..).symm, ?_⟩
  rw [List.map_append, List.map_append, hplaces, hothers]

/-- The places of statements that are made for each of some items. -/
theorem flatMap {ι : Type} (items : List ι) {at_ : ι → List (String × String)}
    {write : ι → List Statement} (h : ∀ i, InsertsAt (at_ i) (write i)) :
    InsertsAt (items.flatMap at_) (items.flatMap write) := by
  induction items with
  | nil => exact nil
  | cons i rest ih => exact (h i).append ih

/-- An object whose first field is its identity has that for its key, wherever the other
fields go, as none of them is an identity. -/
theorem insert (name id : String) {fields : List (String × Json)}
    (hfields : ∀ field ∈ fields, field.1 ≠ "_id") :
    InsertsAt [(name, id)] [.insert name (("_id", .str id) :: fields)] := by
  refine ⟨[⟨name, .insertOne (Json.object (("_id", .str id) :: fields))⟩], rfl, ?_⟩
  have hkey : (Json.object (("_id", .str id) :: fields)).key? = some id := by
    simp only [Json.object, Json.key?, Fields.ofList, List.foldl_cons, Fields.insert,
      Fields.get?_foldl_insert hfields]
    rfl
  simp only [List.map_cons, List.map_nil, Command.place?, hkey, Option.map_some]

end InsertsAt

/-- Statements that insert documents into these collections, into places that are
all different where these identities are. -/
def Seeds (names drawn : List String) (statements : List Statement) : Prop :=
  ∃ places, InsertsAt places statements ∧ (∀ place ∈ places, place.1 ∈ names) ∧
    (drawn.Nodup → places.Nodup)

/-- They are about these collections, since their places are in them. -/
theorem Seeds.within {names drawn : List String} {statements : List Statement}
    (h : Seeds names drawn statements) : ∀ s ∈ statements, s.Within names := by
  obtain ⟨places, ⟨commands, rfl, hplaces⟩, hnames, -⟩ := h
  intro s hs
  obtain ⟨command, hcommand, rfl⟩ := List.mem_map.mp hs
  have hplace : command.place? ∈ places.map some := by
    rw [← hplaces]
    exact List.mem_map_of_mem hcommand
  obtain ⟨place, hmem, hsome⟩ := List.mem_map.mp hplace
  obtain ⟨fields, rfl, -⟩ := Command.place?_eq_some hsome.symm
  exact hnames place hmem

/-- Statements that insert documents into these collections, under keys each of which
is one of these identities. -/
def Inserts (names drawn : List String) (statements : List Statement) : Prop :=
  ∃ places, InsertsAt places statements ∧ (∀ place ∈ places, place.1 ∈ names) ∧
    (places.map Prod.snd).Subperm drawn

namespace Inserts

variable {names drawn others : List String} {statements more : List Statement}

/-- Without statements nothing is inserted, and no identity is used up. -/
theorem nil (names : List String) : Inserts names [] [] := ⟨[], .nil, nofun, .refl _⟩

/-- Statements that are put together use the identities of both. If these are all
different, so are all places. -/
theorem append (h : Inserts names drawn statements) (hmore : Inserts names others more) :
    Inserts names (drawn ++ others) (statements ++ more) := by
  obtain ⟨places, hplaces, hnames, hdrawn⟩ := h
  obtain ⟨places', hplaces', hnames', hothers⟩ := hmore
  refine ⟨places ++ places', hplaces.append hplaces', ?_, ?_⟩
  · exact fun place hplace => (List.mem_append.mp hplace).elim (hnames place) (hnames' place)
  · rw [List.map_append]
    exact hdrawn.append hothers

/-- Statements for each of some items use the identities that each item has drawn. -/
theorem flatMap {ι : Type} (items : List ι) {own : ι → List String} {write : ι → List Statement}
    (h : ∀ i, Inserts names (own i) (write i)) :
    Inserts names (items.flatMap own) (items.flatMap write) := by
  induction items with
  | nil => exact nil names
  | cons i rest ih => exact (h i).append ih

/-- More identities may be drawn than are used, and in any order: places are still
different where identities are. -/
theorem mono (h : Inserts names drawn statements) (hsub : drawn.Subperm others) :
    Inserts names others statements := by
  obtain ⟨places, hplaces, hnames, hdrawn⟩ := h
  exact ⟨places, hplaces, hnames, hdrawn.trans hsub⟩

/-- One command that inserts under an identity which was drawn. -/
theorem document {command : Command} {name id : String}
    (hplace : command.place? = some (name, id)) (hname : name ∈ names) :
    Inserts names [id] [.document command] :=
  ⟨[(name, id)], ⟨[command], rfl, congrArg (fun place => [place]) hplace⟩,
    List.forall_mem_singleton.mpr hname, .refl _⟩

/-- One statement that inserts an object under an identity which was drawn. -/
theorem insert {name : String} (hname : name ∈ names) (id : String)
    {fields : List (String × Json)} (hfields : ∀ field ∈ fields, field.1 ≠ "_id") :
    Inserts names [id] [.insert name (("_id", .str id) :: fields)] :=
  ⟨[(name, id)], .insert name id hfields, by simpa using hname, .refl _⟩

/-- Inserting under drawn identities only is a case of seeding, where some places may be
fixed. -/
theorem seeds (h : Inserts names drawn statements) : Seeds names drawn statements := by
  obtain ⟨places, hplaces, hnames, hdrawn⟩ := h
  refine ⟨places, hplaces, hnames, fun hnodup => ?_⟩
  obtain ⟨perm, hperm, hsub⟩ := hdrawn
  exact List.Nodup.of_map Prod.snd (hperm.nodup_iff.mp (hsub.nodup hnodup))

end Inserts

/-! ### Set-ups -/

namespace Draws

variable {names : List String} {gather : Task (List Statement)} {w : World Server}

/-- A set-up keeps to the collections that it inserts into, since gathering writes
nothing and its batch is about them. -/
theorem confined_setup (h : Draws (Seeds names) gather) :
    Confined names anything (gather >>= Task.execAll) := by
  refine (h.confined names).bind ?_
  rintro _ ⟨drawn, hseeds⟩
  exact .execAll hseeds.within

/-- A set-up of a client that is alone succeeds where its collections are empty, if no
identity is taken twice. Each collection has then what is inserted into it. -/
theorem run_setup {good : List String → List Statement → Prop} (h : Draws good gather)
    (hseeds : ∀ drawn statements, good drawn statements → Seeds names drawn statements)
    (hconnected : w.driver.connected = true) (hfaults : w.driver.faults = [])
    (hempty : ∀ name ∈ names, w.driver.store.docs name = ∅)
    (hfresh : (w.supply.taken w.identities
      (World.site.run w (gather >>= Task.execAll).run).1.identities).Nodup) :
    ∃ (drawn : List String) (commands : List Command) (after : World Server),
      World.site.run w (gather >>= Task.execAll).run = (after, .ok ()) ∧ drawn.Nodup ∧
      good drawn (commands.map .document) ∧
      ∀ name, (w.driver.store.docs name).insertAll name
        (commands.filterMap (Command.inserted? name)) = .ok (after.driver.store.docs name) := by
  obtain ⟨later, drawn, statements, hgather, hgood, hdriver, -, hle, hdrawn⟩ := h.run_exchange w
  obtain ⟨places, ⟨commands, rfl, hplaces⟩, hnames, hnodup⟩ := hseeds drawn statements hgood
  have hsetup : World.site.run w (gather >>= Task.execAll).run
      = World.site.run later (Task.execAll (commands.map .document)).run := by
    have hbind : Program.run World.exchange (w, none) (gather >>= Task.execAll).run
        = Program.run World.exchange (later, none)
          (Task.execAll (commands.map .document)).run := by
      refine (Program.run_bind World.exchange (w, none) gather.run _).trans ?_
      rw [hgather]
      rfl
    rw [site_run_eq, site_run_eq, hbind]
  -- All that was drawn was taken before the set-up was over.
  have hdrawnNodup : drawn.Nodup := by
    rw [hsetup] at hfresh
    have hover := identities_le_run later (Task.execAll (commands.map .document)).run
    exact (hdrawn.trans (w.supply.taken_sublist hover)).nodup hfresh
  obtain ⟨after, hrun, hinserted⟩ := site_run_inserted (hdriver ▸ hconnected) (hdriver ▸ hfaults)
    hplaces (hnodup hdrawnNodup) fun place hplace => by
      rw [hdriver, hempty _ (hnames place hplace)]
      exact Std.ExtTreeMap.contains_empty
  rw [hdriver] at hinserted
  exact ⟨drawn, commands, after, hsetup.trans hrun, hdrawnNodup, hgood, hinserted⟩

/-- A set-up succeeds on a connected server without faults, where the collections are
empty and no identity is taken twice. -/
theorem site_run_setup (h : Draws (Seeds names) gather) (hconnected : w.driver.connected = true)
    (hfaults : w.driver.faults = []) (hempty : ∀ name ∈ names, w.driver.store.docs name = ∅)
    (hfresh : (w.supply.taken w.identities
      (World.site.run w (gather >>= Task.execAll).run).1.identities).Nodup) :
    (World.site.run w (gather >>= Task.execAll).run).2 = .ok () := by
  obtain ⟨_, _, after, hrun, -⟩ :=
    h.run_setup (fun _ _ h => h) hconnected hfaults hempty hfresh
  rw [hrun]

end Draws

end StoreBench.Scenario
