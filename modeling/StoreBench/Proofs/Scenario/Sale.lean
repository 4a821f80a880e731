import StoreBench.Proofs.Document.Records
import StoreBench.Proofs.Scenario.Atomic
import StoreBench.Proofs.Scenario.Check
import StoreBench.Proofs.Scenario.Product

/-!
# `StoreBench.Proofs.Scenario.Sale`: one client that sells a piece

An attempt to sell a piece begins a transaction, takes a piece in it and ends
it. `Stage` says how far such an attempt is, `selling` which requests it may make
at each stage, and `Advance` what one request does to the stock
(`advance_answer`): a commit that succeeds leaves one piece less, and nothing else
changes their number. This needs no assumption on what other clients do between
two requests, as a client that takes a piece does so in a transaction that is new,
and one that commits has its transaction validated.

Beside it are the stock that a set-up leads to, and what the check reads of it.
-/

set_option autoImplicit false

namespace StoreBench.Scenario.Stock

/-! ### How far an attempt is -/

/-- How far an attempt to sell a piece is. What matters is whether its transaction holds
a piece. -/
inductive Stage
  /-- It has not tried to take a piece. -/
  | fresh
  /-- There was none left. -/
  | spent
  /-- It took a piece in its transaction, and the store still has that piece. -/
  | taken
  /-- Its transaction is committed, so the piece is sold. -/
  | sold
deriving DecidableEq

/-- Where the reply to a request leads. The store never answers that something is
exhausted, but an attempt that was told so would end the workload all the same, so
such a reply leads to `spent` as well. -/
def Stage.next (stage : Stage) : (r : Request) → r.Reply → Stage
  | .call (.execIn _), .ok n => if n = 0 then .spent else .taken
  | .call .commit, .ok () => .sold
  | .call c, reply => if c.isEnd reply then .spent else stage
  | .identity, _ | .draw _, _ | .now, _ | .stored, _ | .addStored _, _ | .clearStored, _
  | .takeBegun _, _ => stage

/-- A client takes a piece in a new transaction, and commits only a transaction that
took one. It succeeds just when it has sold its piece, and meets the end of the
workload only where it was told that there is none left. -/
def selling : Conduct Stage where
  start := .fresh
  next := Stage.next
  asks stage known
    | .call (.execIn statement) =>
      statement = .document decrement ∧ stage = .fresh ∧ known = some []
    | .call .commit => stage = .taken ∧ ∃ n, n ≠ 0 ∧ known = some [⟨decrement, .affected n⟩]
    | .call (.exec _) => False
    | .call _ | .identity | .draw _ | .now | .stored | .addStored _ | .clearStored
    | .takeBegun _ => True
  ends stage
    | .ok () => stage = .sold
    | .error failure => stage ≠ .sold ∧
        (Attempted.isEnd (.error failure : Attempted Unit) = true → stage = .spent)

/-! ### What one request does -/

variable {k : Int} {docs : Contents}

/-- A collection has one stock: the inventory is read off the document of the
product. -/
theorem Stocked.unique {products : Documents} {j : Int} (h : Stocked products k)
    (hj : Stocked products j) : k = j := by
  have hdoc : productDoc k = productDoc j := Option.some.inj (h.here.symm.trans hj.here)
  simp only [productDoc, productFields, Json.obj.injEq, List.cons.injEq, Prod.mk.injEq,
    Json.int.injEq] at hdoc
  exact hdoc.2.1.2

/-- A deed that took a piece found one, and left one less. -/
theorem Stocked.take_of_shows (h : Stocked (docs "products") k) (hword : k < 2 ^ 63)
    {taken : Nat} (htaken : taken ≠ 0) (hshows : docs.Shows ⟨decrement, .affected taken⟩) :
    0 < k ∧ Stocked ((docs.perform decrement).1 "products") (k - 1) := by
  obtain ⟨outcome, hok, haffected⟩ := hshows
  replace hok : ((docs "products").apply "products" decrement.action).2 = .ok outcome := hok
  replace haffected : outcome.affected = taken := haffected
  have hafter : (docs.perform decrement).1 "products"
      = ((docs "products").apply "products" decrement.action).1 := docs.perform_self decrement
  rw [hafter]
  by_cases hpos : 0 < k
  · rw [h.take hpos hword]
    exact ⟨hpos, h.insert_product (k - 1)⟩
  · -- There was nothing to take.
    rw [h.take_none (Int.not_lt.mp hpos)] at hok
    rw [← Except.ok.inj hok] at haffected
    exact absurd haffected.symm htaken

/-- A new transaction looks at the store as it is, so it takes a piece if there is
any. -/
theorem Stocked.apply_nil {s : Store} (h : Stocked (s.docs "products") k) (hword : k < 2 ^ 63) :
    ∃ after outcome, Transaction.apply [] s decrement = (after, .ok outcome) ∧
      outcome.affected = if 0 < k then 1 else 0 := by
  have hresult : (Transaction.apply [] s decrement).2
      = ((s.docs "products").apply "products" decrement.action).2 := rfl
  rcases hafter : Transaction.apply [] s decrement with ⟨after, result⟩
  rw [hafter] at hresult
  by_cases hpos : 0 < k
  · rw [h.take hpos hword] at hresult
    subst hresult
    exact ⟨_, _, rfl, (if_pos hpos).symm⟩
  · rw [h.take_none (Int.not_lt.mp hpos)] at hresult
    subst hresult
    exact ⟨_, _, rfl, (if_neg hpos).symm⟩

variable {w after : World Server} {stage : Stage}

/-- What one request does to a stock of `k` pieces and to the stage of its client,
with so many commits that succeed. -/
inductive Advance (k : Int) (w after : World Server) : Stage → Stage → Nat → Prop
  | stay (stage : Stage) (hsame : after.driver.store = w.driver.store) :
      Advance k w after stage stage 0
  | take (hsame : after.driver.store = w.driver.store) : Advance k w after .fresh .taken 0
  | refuse (hsame : after.driver.store = w.driver.store) (hnone : k ≤ 0) :
      Advance k w after .fresh .spent 0
  | sell (hpos : 0 < k) (hstocked : Stocked (after.driver.store.docs "products") (k - 1)) :
      Advance k w after .taken .sold 1

/-- A call that leaves the store alone leaves the client where it is, as its answer is
not the end of a workload. -/
theorem Advance.quiet {held held' : Option Transaction} {c : Call} {reply : c.Reply}
    (hanswer : w.answer held (.call c) = (after, held', reply))
    (hsame : after.driver.store = w.driver.store) :
    Advance k w after stage (if c.isEnd reply then .spent else stage) 0 := by
  rw [isEnd_of_answer hanswer]
  exact .stay stage hsame

/-- What a client may ask takes it on by one of these steps. -/
theorem advance_answer {known : Standing} {held held' : Option Transaction} {r : Request}
    {reply : r.Reply} (hstocked : Stocked (w.driver.store.docs "products") k)
    (hword : k < 2 ^ 63) (hasks : selling.asks stage known r)
    (hholds : Holds w.driver.store held known) (hanswer : w.answer held r = (after, held', reply)) :
    Advance k w after stage (stage.next r reply) (isCommit ⟨r, reply⟩).toNat := by
  cases r with
  | call c =>
      cases c with
      | execIn statement =>
          obtain ⟨rfl, rfl, rfl⟩ := hasks
          obtain ⟨tx, rfl, -, hnew⟩ := hholds [] rfl
          obtain rfl := hnew rfl
          obtain ⟨tx, outcome, happly, haffected⟩ := hstocked.apply_nil hword
          simp only [World.answer, Driver.answer, Server.answer, Server.execIn, Server.commandOf,
            show decrement.identified (w.supply.identity w.identities) = decrement from rfl,
            happly, Except.map] at hanswer
          cases hanswer
          by_cases hpos : 0 < k
          · rw [if_pos hpos] at haffected
            rw [haffected]
            exact .take rfl
          · rw [if_neg hpos] at haffected
            rw [haffected]
            exact .refuse rfl (Int.not_lt.mp hpos)
      | commit =>
          cases reply with
          | ok committed =>
              obtain ⟨rfl, n, hn, rfl⟩ := hasks
              obtain ⟨⟨htake, -⟩, hrun⟩ := hholds.commit hanswer rfl
              -- The deed is that of a serial run, which finds the stock as it is.
              obtain ⟨hpos, hafter⟩ := hstocked.take_of_shows hword hn htake
              refine .sell hpos ?_
              rw [← hrun]
              exact hafter
          | error e => exact .quiet hanswer (store_of_not_commit hanswer (by rintro _ ⟨⟩) rfl)
      | begin | query statement | queryIn statement =>
          exact .quiet hanswer (store_of_not_commit hanswer (by rintro _ ⟨⟩) rfl)
      | rollback e | abandon => exact .stay stage (store_of_not_commit hanswer (by rintro _ ⟨⟩) rfl)
      | exec statement => exact hasks.elim
  | identity | draw | now | stored | addStored | clearStored | takeBegun =>
      cases hanswer
      exact .stay stage rfl

/-! ### The attempt -/

/-- Taking a piece is one request, and fails for exhaustion where no document was
changed. -/
theorem takePiece_run : (takePiece .document).run
    = .ask (.call (.execIn (.document decrement))) fun reply => .done (match reply with
      | .ok n => if n = 0 then .error (.error (.exhausted "inventory")) else .ok ()
      | .error failure => .error failure) := by
  refine congrArg (Program.ask _) (funext ?_)
  intro reply
  match reply with
  | .ok 0 => rfl
  | .ok (n + 1) => rfl
  | .error failure => rfl

/-- A failure that a client was told of before it sold anything is one that it may
end with. -/
theorem ends_error (stage : Stage) (hstage : stage ≠ .sold) (failure : Failure) :
    selling.ends (if Attempted.isEnd (.error failure : Attempted Unit) then .spent else stage)
      (.error failure) := by
  by_cases hend : Attempted.isEnd (.error failure : Attempted Unit) = true
  · rw [if_pos hend]
    exact ⟨nofun, fun _ => rfl⟩
  · rw [if_neg hend]
    exact ⟨hstage, fun h => absurd h hend⟩

/-- An attempt takes a piece in a transaction of its own, and commits that if there
was one. -/
theorem inventoryUpdate_meets (inventory : Int) (t : Try) :
    selling.Meets (fun stage _ result => selling.ends stage result) .fresh none
      ((inventoryUpdate .document inventory).attempt t).run := by
  refine Conduct.Meets.transact trivial (fun e => ends_error .fresh nofun (.error e)) ?_
  show selling.Meets _ .fresh (some []) (takePiece .document).run
  rw [takePiece_run]
  refine ⟨⟨rfl, rfl, rfl⟩, fun fresh reply => ?_⟩
  match reply with
  | .ok 0 => exact ⟨trivial, fun _ _ => ⟨nofun, fun _ => rfl⟩⟩
  | .ok (n + 1) =>
      refine ⟨⟨rfl, n + 1, Nat.succ_ne_zero n, rfl⟩, fun fresh reply => ?_⟩
      cases reply with
      | ok committed => exact rfl
      | error e => exact ends_error .taken nofun (.error e)
  -- After a statement that failed the transaction is given up, which has no reply to heed.
  | .error (.error e) => exact ⟨trivial, fun _ _ => ends_error .fresh nofun (.error e)⟩
  | .error (.crash x) => exact ⟨trivial, fun _ _ => ends_error .fresh nofun (.crash x)⟩

/-! ### Before and after the sale -/

variable {inventory : Int}

/-- A set-up that succeeds inserts the product and nothing else. -/
theorem setup_inserts {w after : World Server} (hsound : w.driver.store.Sound)
    (h : World.site.run w (setup .document inventory).run = (after, .ok ())) :
    after.driver.connected = true ∧ after.driver.store.Sound ∧
      after.driver.store.docs "products"
        = (w.driver.store.docs "products").insert product (productDoc inventory) ∧
      ∀ table, table ≠ "products" → after.driver.store.docs table = w.driver.store.docs table := by
  have hsetup : setup .document inventory
      = Task.execAll ([⟨"products", .insertOne (productDoc inventory)⟩].map .document) := by
    show Task.execAll [Shop.document.insertProduct product "test product" inventory []] = _
    rw [insertProduct_document]
    rfl
  rw [hsetup] at h
  -- The set-up is a transaction of one command, which takes effect as a whole.
  obtain ⟨hconnected, hstore, deeds, hdeeds, hexplains, hrun⟩ := site_run_commands
    (List.cons_ne_nil _ _) (by
      intro command hcommand fresh
      obtain rfl := List.mem_singleton.mp hcommand
      rfl) hsound h
  match deeds, hdeeds with
  | [⟨_, seen⟩], hdeeds =>
      cases hdeeds
      obtain ⟨⟨outcome, hok, -⟩, -⟩ := hexplains
      obtain ⟨key, hkey, -, hafter⟩ := Documents.apply_insertOne_ok hok
      obtain rfl := Option.some.inj ((key?_productDoc inventory).symm.trans hkey)
      refine ⟨hconnected, hstore, ?_, ?_⟩
      · rw [← hrun]
        exact (Contents.perform_self _ _).trans hafter
      · intro table htable
        rw [← hrun]
        exact Contents.perform_other htable

/-- A set-up that succeeds leads to its stock, provided that nothing goes by
the identity of the product before. -/
theorem stocked_of_setup {w after : World Server} (hsound : w.driver.store.Sound)
    (hnone : (w.driver.store.docs "products").matching byProduct = [])
    (h : World.site.run w (setup .document inventory).run = (after, .ok ())) :
    after.driver.connected = true ∧ after.driver.store.Sound ∧
      Stocked (after.driver.store.docs "products") inventory := by
  obtain ⟨hconnected, hstore, hproducts, -⟩ := setup_inserts hsound h
  refine ⟨hconnected, hstore, ?_⟩
  rw [hproducts]
  exact stocked_of_matching hnone

/-- The check of a sale finds whether anything is left. -/
theorem verify_stocked {w : World Server} (hconnected : w.driver.connected = true)
    (hstocked : Stocked (w.driver.store.docs "products") k) (hword : k < 2 ^ 63) :
    (World.site.run w (inventoryUpdate .document inventory).verify.run).2
      = .ok (some (k == 0)) := by
  have hproduct : (w.driver.store.docs "products").rows (.findOne byProduct)
      = [(productDoc k).toRow] := hstocked.findOne
  refine World.Finds.result ?_
  simp only [inventoryUpdate, remaining, Task.queryRow, bind_assoc, pure_bind]
  refine .query hconnected rfl ?_
  rw [show Filter.eq "_id" (.str product) = byProduct from rfl, hproduct]
  exact .lift (scan_productDoc hword) (.done w _)

end StoreBench.Scenario.Stock
