import StoreBench.Sql.Cell

/-!
# `StoreBench.Sql.Total`: sums of numbers

The sum of whole numbers is whole. From the first fractional number on the
sum is rounded after every item, and what the rounding took from it is
collected beside it, to be given back at the end. A sum of whole numbers
that outgrows a word is rounded in the same way, and is of use only if a
fractional number still follows.
-/

set_option autoImplicit false

namespace StoreBench.Sql

/-- The sum of the items so far. -/
inductive Total
  | whole (n : Int)
  /-- A rounded sum with what rounding took from it. -/
  | rounded (sum lost : Double) (outgrown : Bool)
deriving DecidableEq, Repr, Inhabited

namespace Total

def zero : Total := .whole 0

/-- A whole number in two parts, both of them exact. -/
def parts (n : Int) : Double × Double :=
  if n.natAbs < 2 ^ 52 then (.ofInt n, .zero)
  else (.ofInt (n - n.tmod (2 ^ 14)), .ofInt (n.tmod (2 ^ 14)))

/-- Adds to a rounded sum. What is lost is what the smaller of the two
numbers misses in the result. -/
def addRounded (acc : Double × Double) (x : Double) : Double × Double :=
  let (sum, lost) := acc
  let next := sum.add x
  let missed := if x.abs.lt sum.abs then (sum.sub next).add x else (x.sub next).add sum
  (next, lost.add missed)

/-- Adds both parts of a whole number to a rounded sum. -/
def addParts (acc : Double × Double) (n : Int) : Double × Double :=
  addRounded (addRounded acc (parts n).1) (parts n).2

def ofRounded (acc : Double × Double) (outgrown : Bool) : Total := .rounded acc.1 acc.2 outgrown

/-- Adds a number; other cells add nothing. -/
def add : Total → Cell → Total
  | .whole n, .int i =>
    if -2 ^ 63 ≤ n + i ∧ n + i < 2 ^ 63 then .whole (n + i)
    else ofRounded (addParts (parts n) i) true
  | .whole n, .real x => ofRounded (addRounded (parts n) x) false
  | .rounded sum lost outgrown, .int i => ofRounded (addParts (sum, lost) i) outgrown
  | .rounded sum lost _, .real x => ofRounded (addRounded (sum, lost) x) false
  | t, _ => t

/-- The sum as a cell, none if it has outgrown its word. -/
def cell? : Total → Option Cell
  | .whole n => some (.int n)
  | .rounded _ _ true => none
  | .rounded sum lost false => some (.ofReal (if lost.isFinite then sum.add lost else sum))

end Total

end StoreBench.Sql
