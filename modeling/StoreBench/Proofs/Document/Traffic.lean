import StoreBench.Proofs.Document.Answers

/-!
# `StoreBench.Proofs.Document.Traffic`: many clients at one store

`Traffic` is the built-in server with all its clients, each of which holds at
most one open transaction. An `Event` is one step of one of them: a statement
by itself, a statement inside the open transaction, its begin, commit,
rollback or loss, or something that happens to the server as a whole.
`Traffic.answer` is what the server does; any list of events is an
interleaving.

The `Ledger` is kept beside it, from the replies alone. It lists what took
effect, in the order in which it did (`Block`): a transaction at its commit,
with all its deeds, a successful statement by itself, and a reset. Whatever
failed, was rolled back or is still open is in no block.
-/

set_option autoImplicit false

namespace StoreBench

/-- What took effect at one moment, in the order in which it did. -/
inductive Block
  /-- A transaction that committed. -/
  | transaction (deeds : List Deed)
  /-- A statement by itself. -/
  | single (deed : Deed)
  /-- Everything that was stored is removed. -/
  | reset

namespace Contents

/-- The contents after one block: the commands of a transaction are made one
after the other, with nothing in between. -/
def play (c : Contents) : Block → Contents
  | .transaction deeds => c.run deeds
  | .single deed => c.run [deed]
  | .reset => empty

/-- The clients of a block saw what these contents show. -/
def Fits (c : Contents) : Block → Prop
  | .transaction deeds => c.Explains deeds
  | .single deed => c.Shows deed
  | .reset => True

/-- The contents after blocks that are played one after the other. -/
def serial (c : Contents) (blocks : List Block) : Contents := blocks.foldl play c

/-- All clients saw what they see when the blocks are played one after the
other. -/
def Serves : Contents → List Block → Prop
  | _, [] => True
  | c, block :: rest => c.Fits block ∧ Serves (c.play block) rest

/-- Another block comes last, and acts on what those before it left. -/
theorem serial_concat (c : Contents) (blocks : List Block) (block : Block) :
    c.serial (blocks ++ [block]) = (c.serial blocks).play block := by
  rw [serial, List.foldl_append]
  rfl

/-- Another block serves its clients when the contents before it fit. -/
theorem serves_concat (c : Contents) (blocks : List Block) (block : Block) :
    c.Serves (blocks ++ [block]) ↔ c.Serves blocks ∧ (c.serial blocks).Fits block := by
  induction blocks generalizing c with
  | nil => simp [Serves, serial]
  | cons first rest ih =>
      rw [List.cons_append, Serves, ih, Serves, and_assoc]
      rfl

end Contents

/-- The server and what each of its clients holds of transactions that are open. -/
structure Traffic where
  server : Server
  held : Nat → Option Transaction

namespace Traffic

/-- One step of a client, with an identity at hand for a document that has
none, or of the server. -/
inductive Event
  | call (client : Nat) (fresh : String) (c : Call)
  | connect (address : String)
  | close
  | reset
  /-- More faults are queued. -/
  | inject (faults : List Fault)

/-- What a step is answered with. Only calls of clients are answered with more than that
they were made. -/
abbrev Event.Reply : Event → Type
  | .call _ _ c => c.Reply
  | .connect _ | .reset => Except BenchError Unit
  | .close | .inject _ => Unit

/-- A new server, which nobody has called yet, with the faults that it is to meet. -/
def new (faults : List Fault) (latency : Span) : Traffic where
  server := { faults := faults, latency := latency }
  held _ := none

/-- Changes what belongs to one client, and leaves the others theirs. -/
def putFor {α : Type} (of : Nat → α) (client : Nat) (a : α) : Nat → α :=
  fun other => if client = other then a else of other

/-- What the server does at one step, and what it replies. -/
def answer (t : Traffic) : (e : Event) → Traffic × e.Reply
  | .call client fresh c =>
    let (server, held, reply) := t.server.answer (t.held client) fresh c
    ({ server := server, held := putFor t.held client held }, reply)
  | .connect address =>
    let (server, reply) := t.server.connect address
    ({ t with server := server }, reply)
  | .close => ({ t with server := t.server.close }, ())
  | .reset =>
    let (server, reply) := t.server.reset
    ({ t with server := server }, reply)
  | .inject faults => ({ t with server := t.server.inject faults }, ())

/-! ### The ledger -/

/-- What took effect so far, and for each client the deeds of its open
transaction and whether one of its statements failed. -/
structure Ledger where
  blocks : List Block := []
  pending : Nat → List Deed := fun _ => []
  failed : Nat → Bool := fun _ => false

/-- The deed that a statement was, if it succeeded. One that failed shows its client
nothing. -/
def deed? (fresh : String) : Statement → Attempted Seen → Option Deed
  | .document command, .ok seen => some ⟨command.identified fresh, seen⟩
  | .document _, .error _ | .sql _ _, _ => none

namespace Ledger

/-- One block more, which takes effect after those that are there. -/
def add (l : Ledger) (block : Block) : Ledger := { l with blocks := l.blocks ++ [block] }

/-- A statement by itself takes effect at once if it succeeds, as a block of its own. -/
def single (l : Ledger) : Option Deed → Ledger
  | some deed => l.add (.single deed)
  | none => l

/-- A statement in a transaction is noted down, also that it failed. -/
def note (l : Ledger) (client : Nat) : Option Deed → Ledger
  | some deed => { l with pending := putFor l.pending client (l.pending client ++ [deed]) }
  | none => { l with failed := putFor l.failed client true }

/-- A client has begun a transaction, of which nothing is done and nothing has failed. -/
def begin (l : Ledger) (client : Nat) : Ledger :=
  { l with
    pending := putFor l.pending client []
    failed := putFor l.failed client false }

/-- Enters the reply to a call. What happens in a transaction is pending until it
commits. -/
def recordCall (l : Ledger) (client : Nat) (fresh : String) : (c : Call) → c.Reply → Ledger
  | .exec statement, reply => l.single (deed? fresh statement (reply.map .affected))
  | .query statement, reply => l.single (deed? fresh statement (reply.map .rows))
  | .begin, .ok () => l.begin client
  | .execIn statement, reply => l.note client (deed? fresh statement (reply.map .affected))
  | .queryIn statement, reply => l.note client (deed? fresh statement (reply.map .rows))
  | .commit, .ok () => l.add (.transaction (l.pending client))
  | .begin, .error _ | .commit, .error _ | .rollback _, _ | .abandon, _ => l

/-- Enters the reply to a step. A reset is a block of its own. -/
def record (l : Ledger) : (e : Event) → e.Reply → Ledger
  | .call client fresh c, reply => l.recordCall client fresh c reply
  | .reset, .ok () => l.add .reset
  | .reset, .error _ | .connect _, _ | .close, _ | .inject _, _ => l

/-- A client whose statement failed gives its transaction up, so it does not
ask for a commit. -/
def Allows (l : Ledger) : Event → Prop
  | .call client _ .commit => l.failed client = false
  | _ => True

end Ledger

/-- One step, entered in the ledger with what was answered. -/
def follow (s : Traffic × Ledger) (e : Event) : Traffic × Ledger :=
  ((s.1.answer e).1, s.2.record e (s.1.answer e).2)

/-- The steps of a run, one after the other, each entered. -/
def run (s : Traffic × Ledger) (events : List Event) : Traffic × Ledger := events.foldl follow s

/-- No client of the run asks to commit a transaction in which a statement
failed. -/
def Orderly : Traffic × Ledger → List Event → Prop
  | _, [] => True
  | s, e :: rest => s.2.Allows e ∧ Orderly (follow s e) rest

end Traffic

end StoreBench
