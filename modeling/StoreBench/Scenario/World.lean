import StoreBench.Load.Site
import StoreBench.Scenario.Request

/-!
# `StoreBench.Scenario.World`: where a scenario runs

A world holds a store and everything else that a scenario can ask for.
Identities and random numbers come from a supply, which is a function of
how many were taken before, so that a run is determined by its world.
-/

set_option autoImplicit false

namespace StoreBench.Scenario

/-- Where identities and random numbers come from. -/
structure Supply where
  identity : Nat → String
  number : Nat → Nat

namespace Supply

/-- The digits of a number in base sixteen, filled up with zeros to a
width. -/
def hex (width n : Nat) : List Char :=
  let digits := Nat.toDigits 16 n
  List.replicate (width - digits.length) '0' ++ digits

/-- An identity in the form of a random one, which holds a number in its
last groups. -/
def numbered (n : Nat) : String :=
  let group (width place : Nat) := String.ofList (hex width (n / 2 ^ place % 16 ^ width))
  s!"{group 8 60}-0000-4000-8{group 3 48}-{group 12 0}"

/-- A supply that counts its identities and scrambles its numbers. -/
def counting : Supply where
  identity := numbered
  number n := (n * 6364136223846793005 + 1442695040888963407) % 2 ^ 64 / 2 ^ 33

end Supply

/-- A store with what a workload needs beside it: identities, random numbers, counters
and a clock. -/
structure World (σ : Type) where
  driver : σ
  supply : Supply := .counting
  /-- How many identities were taken. -/
  identities : Nat := 0
  /-- How many random numbers were taken. -/
  numbers : Nat := 0
  clock : Instant
  stored : Nat := 0
  begun : Nat := 0

namespace World

variable {σ τ : Type} [Driver σ τ]

/-- Answers a request of a client that has this transaction open. -/
def answer (w : World σ) (held : Option τ) :
    (r : Request) → World σ × Option τ × r.Reply
  | .call c =>
    let (driver, held, reply) := Driver.answer w.driver held (w.supply.identity w.identities) c
    ({ w with driver := driver, identities := w.identities + 1 }, held, reply)
  | .identity =>
    ({ w with identities := w.identities + 1 }, held, w.supply.identity w.identities)
  | .draw bound => ({ w with numbers := w.numbers + 1 }, held, w.supply.number w.numbers % bound)
  | .now => (w, held, w.clock)
  | .stored => (w, held, w.stored)
  | .addStored n => ({ w with stored := (w.stored + n) % 2 ^ 64 }, held, ())
  | .clearStored => ({ w with stored := 0 }, held, ())
  | .takeBegun n => ({ w with begun := (w.begun + n) % 2 ^ 64 }, held, w.begun)

/-- How long the answer to a request takes. -/
def delay (w : World σ) : Request → Span
  | .call c => Driver.delay w.driver c
  | _ => .zero

/-- A world as a site, whose clients hold their open transactions. -/
def site : Site requests (World σ) (Option τ) where
  idle := none
  delay w _ r := w.delay r
  answer w held r :=
    let (w, held, reply) := w.answer held r
    (w, held, none, reply)

end World

end StoreBench.Scenario
