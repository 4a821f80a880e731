import StoreBench.Load.Runner

/-!
# `StoreBench.Load.Script`: attempts with prescribed outcomes

A script prescribes, attempt by attempt, how long each try takes, how often
the attempt meets contention and how it ends. Whichever worker begins an
attempt takes the next item. Past its end a script either starts over or
has all attempts end the run.
-/

set_option autoImplicit false

namespace StoreBench

namespace Script

/-- How an attempt ends. -/
inductive Ending
  | success
  | contention
  | failure (e : BenchError)
  | exhausted
  | crash
deriving DecidableEq, Repr, Inhabited

/-- What is prescribed for an attempt: how long it takes and how it ends. -/
structure Item where
  ending : Ending
  /-- How often the attempt meets contention before it ends. -/
  retries : Nat := 0
  /-- How long each try takes. -/
  pause : Span := .zero
  /-- The retry that fires the stop signal, and with what cause. -/
  fire : Option (Nat × StopCause) := none
deriving DecidableEq, Repr, Inhabited

/-- What becomes of a try of an item. -/
def Item.result (item : Item) (retry : Nat) : Attempted Unit :=
  let contention := .error (.error (.conflict "40001" "scripted conflict"))
  if retry < item.retries then contention
  else match item.ending with
    | .success => .ok ()
    | .contention => contention
    | .failure e => .error (.error e)
    | .exhausted => .error (.error (.exhausted "script"))
    | .crash => .error (.crash .scripted)

/-- What scripted attempts ask for. -/
inductive Request
  /-- The item of a try, which is the next one for the first try. -/
  | item (t : Try)
  | pause (time : Span)
  | fire (cause : StopCause)
deriving Repr, Inhabited

abbrev Request.Reply : Request → Type
  | .item _ => Item
  | .pause _ | .fire _ => Unit

abbrev requests : Signature := ⟨Request, Request.Reply⟩

def ask (r : Request) : Task requests r.Reply := Task.ask (S := requests) r

/-- A scripted try. -/
def attempt (t : Try) : Task requests Unit := do
  let item ← ask (.item t)
  ask (.pause item.pause)
  match item.fire with
  | some (retry, cause) => if retry = t.retry then ask (.fire cause)
  | none => pure ()
  Task.ofResult (item.result t.retry)

end Script

/-- A script that is being played, with the tries so far, the latest one
first. -/
structure Script where
  items : List Script.Item
  cycles : Bool := false
  taken : Nat := 0
  tries : List Try := []

namespace Script

/-- The item of a number. -/
def itemAt (s : Script) (i : Nat) : Item :=
  let place := if s.cycles && !s.items.isEmpty then i % s.items.length else i
  s.items[place]?.getD { ending := .exhausted }

/-- Workers hold the item of their attempt. -/
def site : Site requests Script Item where
  idle := { ending := .exhausted }
  delay _ _
    | .pause time => time
    | .item _ | .fire _ => .zero
  answer s held
    | .item t =>
      let s := { s with tries := t :: s.tries }
      if t.retry = 0 then
        let item := s.itemAt s.taken
        ({ s with taken := s.taken + 1 }, item, none, item)
      else (s, held, none, held)
    | .pause _ => (s, held, none, ())
    | .fire cause => (s, held, some cause, ())

/-- A workload of scripted attempts, with phases of prescribed results. -/
def workload (setup : Attempted Unit) (verify : Attempted (Option Bool))
    (teardown : Attempted Unit) (retryPolicy : Option RetryPolicy) : Workload requests where
  name := "script"
  setup := Task.ofResult setup
  attempt := attempt
  verify := Task.ofResult verify
  teardown := Task.ofResult teardown
  retryPolicy

end Script

end StoreBench
