import StoreBench.Error

/-!
# `StoreBench.Program`: what a client does, one request at a time

A program ends with a value or asks its surroundings for something and
goes on with the reply. It is plain data, so the same program can be run
to its end against one store (`Program.run`), or held after each request
while other clients take their turns.

A `Task` is a program that may fail. The first failure ends it, unless it
is caught with `Task.attempt`.
-/

set_option autoImplicit false

namespace StoreBench

/-- What can be asked for, and what the reply to each request is. -/
structure Signature where
  Request : Type
  Reply : Request → Type

/-- What makes requests one by one, each in the light of the replies before it, and then
is done. -/
inductive Program (S : Signature) (α : Type)
  | done (a : α)
  | ask (r : S.Request) (next : S.Reply r → Program S α)

namespace Program

variable {S : Signature} {α β γ σ : Type}

/-- One program after another, which goes on with what the first one came to. -/
def bind : Program S α → (α → Program S β) → Program S β
  | done a, f => f a
  | ask r next, f => ask r fun reply => (next reply).bind f

instance : Monad (Program S) where
  pure := done
  bind := bind

/-- Nothing after a program leaves the program. -/
theorem bind_done (p : Program S α) : p.bind done = p := by
  induction p with
  | done a => rfl
  | ask r next ih => exact congrArg (ask r) (funext ih)

/-- It does not matter which of three programs are put together first. -/
theorem bind_assoc (p : Program S α) (f : α → Program S β) (g : β → Program S γ) :
    (p.bind f).bind g = p.bind fun a => (f a).bind g := by
  induction p with
  | done a => rfl
  | ask r next ih => exact congrArg (ask r) (funext ih)

instance : LawfulMonad (Program S) :=
  LawfulMonad.mk' (Program S) bind_done (fun _ _ => rfl) bind_assoc

/-- Runs a program to its end, every request answered at once. -/
def run (answer : σ → (r : S.Request) → σ × S.Reply r) : σ → Program S α → σ × α
  | s, done a => (s, a)
  | s, ask r next =>
    let (s, reply) := answer s r
    run answer s (next reply)

/-- A program and what follows it run one after the other. -/
theorem run_bind (answer : σ → (r : S.Request) → σ × S.Reply r) (s : σ) (p : Program S α)
    (f : α → Program S β) :
    run answer s (p.bind f) = run answer (run answer s p).1 (f (run answer s p).2) := by
  induction p generalizing s with
  | done a => rfl
  | ask r next ih => exact ih _ _

end Program

/-- A program that may fail. -/
abbrev Task (S : Signature) := ExceptT Failure (Program S)

namespace Task

variable {S : Signature} {α : Type}

/-- Asks for something and goes on with the reply. -/
def ask (r : S.Request) : Task S (S.Reply r) := ExceptT.mk (.ask r fun reply => .done (.ok reply))

/-- Goes on with a result, or fails as it did. -/
def ofResult (result : Attempted α) : Task S α := ExceptT.mk (.done result)

/-- A task that fails with an error. -/
def fail (e : BenchError) : Task S α := ofResult (.error (.error e))

/-- Runs a task and gives its result, failed or not. -/
def attempt (t : Task S α) : Task S (Attempted α) :=
  ExceptT.mk (t.run.bind fun result => .done (.ok result))

instance : MonadLift (Except BenchError) (Task S) where
  monadLift result := ofResult (monadLift result)

instance : MonadLift (Except Crash) (Task S) where
  monadLift result := ofResult (monadLift result)

end Task

end StoreBench
