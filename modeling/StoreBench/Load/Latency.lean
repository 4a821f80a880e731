import StoreBench.Error
import StoreBench.Load.Histogram
import StoreBench.Time.Span

/-!
# `StoreBench.Load.Latency`: how long attempts take

A recorder keeps latencies as whole microseconds in a histogram. Each
worker records into an empty recorder of the same range, which is merged
into the common one when the worker ends.
-/

set_option autoImplicit false

namespace StoreBench

/-- The range of a recorder and the significant digits it keeps. -/
structure LatencyConfig where
  maxMicros : Nat := 60000000
  significantFigures : Nat := 3
deriving DecidableEq, Repr, Inhabited

/-- Latencies in microseconds, counted by size. -/
structure Recorder where
  histogram : Histogram

namespace Recorder

/-- A recorder of the range and the precision that are asked for. -/
def make (c : LatencyConfig) : Except BenchError Recorder :=
  match Layout.make c.maxMicros c.significantFigures with
  | .ok layout => .ok ⟨.empty layout⟩
  | .error flaw => .error (.invalidConfig s!"latency histogram: {flaw.message}")

/-- An empty recorder of the same range. -/
def fresh (r : Recorder) : Recorder := ⟨.empty r.histogram.layout⟩

/-- Counts one latency, also one beyond the range. -/
def recordMicros (r : Recorder) (micros : Nat) : Recorder := ⟨r.histogram.record micros⟩

def repeatMicros (r : Recorder) (micros times : Nat) : Recorder :=
  ⟨r.histogram.recordMany micros times⟩

/-- Records a time, its microseconds bounded by the size of a word. -/
def record (r : Recorder) (s : Span) : Recorder := r.recordMicros s.micros

/-- Adds every latency of another recorder. -/
def merge (r other : Recorder) : Except BenchError Recorder :=
  match r.histogram.merge? other.histogram with
  | some h => .ok ⟨h⟩
  | none => .error (.internal "latency merge: OtherAddendValueExceedsRange")

/-- How many latencies were counted. -/
def size (r : Recorder) : Nat := r.histogram.total

def isEmpty (r : Recorder) : Bool := r.size == 0

/-- The mean latency, zero if there is none. -/
def mean (r : Recorder) : Span :=
  if r.isEmpty then .zero
  else Span.ofDouble (r.histogram.mean.div (.ofNat 1000000))

/-- A share between nothing and everything. What is no number counts as
nothing. -/
def share (q : Double) : Double :=
  if q.isNaN || q.lt .zero then .zero
  else if (Double.ofNat 1).lt q then .ofNat 1
  else q

/-- The latency that a share of all does not exceed, zero if there is
none. -/
def quantile (r : Recorder) (q : Double) : Span :=
  if r.isEmpty then .zero else .ofMicros (r.histogram.quantile (share q))

/-- The greatest latency that was counted, as its cell reports it. -/
def greatest (r : Recorder) : Span :=
  if r.isEmpty then .zero else .ofMicros r.histogram.greatest

end Recorder

end StoreBench
