import StoreBench.Number.Double
import Std.Data.ExtTreeMap

/-!
# `StoreBench.Load.Histogram`: counting values by size

A histogram counts natural numbers in cells that grow with the numbers, so
that every number keeps a given count of significant digits. `2 ^ bits`
cells of width one are followed by groups of half as many cells, each twice
as wide as those of the group before. There are as many groups as it takes
to reach a given maximum; the last of them may reach beyond it. A number
beyond the last cell counts as the maximum.
-/

set_option autoImplicit false

namespace StoreBench

/-- The largest number counted exactly as itself. -/
def wordMax : Nat := 2 ^ 64 - 1

/-- The arrangement of the cells. -/
structure Layout where
  /-- The logarithm of the number of cells of width one. -/
  bits : Nat
  /-- How many widths there are. -/
  groups : Nat
  /-- The number that larger ones count as. -/
  greatest : Nat
deriving DecidableEq, Repr, Inhabited

/-- Why there is no layout. -/
inductive LayoutFlaw
  | tooNarrow
  | tooPrecise
deriving DecidableEq, Repr, Inhabited

/-- The text of what is wrong with a layout. -/
def LayoutFlaw.message : LayoutFlaw → String
  | tooNarrow => "HighLessThanTwiceLow"
  | tooPrecise => "SigFigExceedsMax"

namespace Layout

/-- The least number of groups of cells that reaches beyond `greatest`,
found by doubling `reach` at most `fuel` times. -/
def groupsFor (greatest : Nat) : Nat → Nat → Nat
  | 0, _ => 1
  | fuel + 1, reach => if greatest < reach then 1 else groupsFor greatest fuel (reach * 2) + 1

/-- The layout for numbers up to `greatest` with `digits` significant
digits. -/
def make (greatest digits : Nat) : Except LayoutFlaw Layout :=
  if greatest < 2 then .error .tooNarrow
  else if 5 < digits then .error .tooPrecise
  else
    let bits := Nat.log2 (2 * 10 ^ digits - 1) + 1
    .ok ⟨bits, groupsFor greatest 64 (2 ^ bits), greatest⟩

/-- Half the number of cells of width one. -/
def half (l : Layout) : Nat := 2 ^ (l.bits - 1)

/-- How many cells there are. -/
def size (l : Layout) : Nat := (l.groups + 1) * l.half

/-- The logarithm of the width of the cell of a number. -/
def widthBits (l : Layout) (value : Nat) : Nat :=
  if value = 0 then 0 else Nat.log2 value + 1 - l.bits

/-- The cell of a number, which may lie beyond the last. -/
def cellOf (l : Layout) (value : Nat) : Nat :=
  let b := l.widthBits value
  b * l.half + value / 2 ^ b

/-- The logarithm of the width of a cell. -/
def cellBits (l : Layout) (cell : Nat) : Nat := cell / l.half - 1

/-- The least number of a cell. -/
def lowest (l : Layout) (cell : Nat) : Nat :=
  let b := l.cellBits cell
  (cell - b * l.half) * 2 ^ b

/-- How many numbers a cell is for. -/
def width (l : Layout) (cell : Nat) : Nat := 2 ^ l.cellBits cell

/-- The greatest number of a cell. Where the next cell would begin beyond
the words, one less than the greatest word. -/
def highest (l : Layout) (cell : Nat) : Nat := min (l.lowest cell + l.width cell) wordMax - 1

/-- The number in the middle of a cell. -/
def median (l : Layout) (cell : Nat) : Nat := min (l.lowest cell + l.width cell / 2) wordMax

/-- The greatest number that counts like `value`. -/
def highestLike (l : Layout) (value : Nat) : Nat :=
  if value = wordMax then wordMax else l.highest (l.cellOf value)

end Layout

/-- How many numbers each cell has, how many there are, and the largest. -/
structure Histogram where
  layout : Layout
  counts : Std.ExtTreeMap Nat Nat := ∅
  total : Nat := 0
  largest : Nat := 0

namespace Histogram

/-- A histogram with nothing in it. -/
def empty (l : Layout) : Histogram := { layout := l }

/-- The number that `value` counts as. -/
def clamped (h : Histogram) (value : Nat) : Nat :=
  if h.layout.cellOf value < h.layout.size then value else h.layout.greatest

/-- Counts a number several times. -/
def recordMany (h : Histogram) (value times : Nat) : Histogram :=
  let value := h.clamped value
  let cell := h.layout.cellOf value
  if times = 0 then { h with largest := max h.largest value } else
    { h with
      counts := h.counts.insert cell ((h.counts[cell]?).getD 0 + times)
      total := h.total + times
      largest := max h.largest value }

/-- Counts one number. -/
def record (h : Histogram) (value : Nat) : Histogram := h.recordMany value 1

/-- The largest number, as the greatest of its cell. -/
def greatest (h : Histogram) : Nat :=
  if h.largest = 0 then 0 else h.layout.highestLike h.largest

/-- Adds the counts of another histogram cell by cell. A histogram of
another layout is added through the least number of each cell. Fails when
the other one has a number beyond the cells of this one. -/
def merge? (h other : Histogram) : Option Histogram :=
  if h.layout.highest (h.layout.size - 1) < other.greatest then none
  else if h.layout.bits = other.layout.bits ∧ h.layout.groups = other.layout.groups then
    some { h with
      counts := other.counts.foldl
        (fun counts cell n => counts.insert cell ((counts[cell]?).getD 0 + n)) h.counts
      total := h.total + other.total
      largest := max h.largest (if h.greatest < other.greatest then other.greatest else 0) }
  else
    some (other.counts.foldl (fun h cell n => h.recordMany (other.layout.lowest cell) n) h)

/-- The first cell at which the counts so far reach `target`. -/
def cellAt (target : Nat) : Nat → List (Nat × Nat) → Option Nat
  | _, [] => none
  | passed, (cell, n) :: rest =>
    if target ≤ passed + n then some cell else cellAt target (passed + n) rest

/-- The rank that a share of `total` numbers ends at: the share rounded
up, and at least the first. -/
def rank (q : Double) (total : Nat) : Nat :=
  let share := q.mul (.ofNat total)
  let (num, den) := share.fraction
  max 1 ((num + den - 1) / den)

/-- The number that a share of all numbers does not exceed: the greatest of
the cell in which the share ends, or the least of the first cell for no
share at all. -/
def quantile (h : Histogram) (q : Double) : Nat :=
  match cellAt (rank q h.total) 0 h.counts.toList with
  | some cell => if q.isZero then h.layout.lowest cell else h.layout.highest cell
  | none => 0

/-- The mean, each number taken as the middle of its cell. The terms are
added in the order of the cells. -/
def mean (h : Histogram) : Double :=
  h.counts.toList.foldl
    (fun sum entry =>
      sum.add
        (((Double.ofNat (h.layout.median entry.1)).mul (.ofNat entry.2)).div (.ofNat h.total)))
    .zero

end Histogram

end StoreBench
