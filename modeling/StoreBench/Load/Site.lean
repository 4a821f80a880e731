import StoreBench.Load.Stop
import StoreBench.Program
import StoreBench.Time.Span

/-!
# `StoreBench.Load.Site`: where programs run

A site is a state that all clients share. It answers their requests one at
a time, each answer after a delay. Between two requests a client holds
something of its own, such as an open transaction. An answer may also fire
the stop signal of the pool that the client works in.
-/

set_option autoImplicit false

namespace StoreBench

/-- Sites with shared states of type `σ`, whose clients hold a `γ`. -/
structure Site (S : Signature) (σ γ : Type) where
  /-- What a new client holds. -/
  idle : γ
  delay : σ → γ → S.Request → Span
  answer : σ → γ → (r : S.Request) → σ × γ × Option StopCause × S.Reply r

namespace Site

variable {S : Signature} {σ γ α : Type}

/-- Runs a program to its end for a client of its own, while nobody else
does anything. -/
def run (site : Site S σ γ) (state : σ) (p : Program S α) : σ × α :=
  let answerOne (s : σ × γ) (r : S.Request) : (σ × γ) × S.Reply r :=
    let (state, held, _, reply) := site.answer s.1 s.2 r
    ((state, held), reply)
  let (s, a) := Program.run answerOne (state, site.idle) p
  (s.1, a)

end Site

end StoreBench
