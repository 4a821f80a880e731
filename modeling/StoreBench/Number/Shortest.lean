import StoreBench.Number.Double

/-!
# `StoreBench.Number.Shortest`: the fewest digits that read back

A decimal is an integer `digits` scaled by a power of ten. `shortest x`
is the decimal with the fewest digits that `Double.ofDecimal` reads as
`x`, and among those the one nearest to `x`. The search looks at the two
neighbours of `|x|` on the grid of one-digit decimals, then on the grid
of two digits, and so on; the exact expansion, which reads back always,
stands behind the search.
-/

set_option autoImplicit false

namespace StoreBench

/-- The decimal `digits * 10 ^ exponent`. -/
structure Decimal where
  digits : Nat
  exponent : Int
deriving DecidableEq, Repr, Inhabited

namespace Decimal

/-- Trailing zeros move into the exponent, at most `fuel` of them. -/
def trim : Nat → Decimal → Decimal
  | 0, d => d
  | fuel + 1, d =>
    if d.digits ≠ 0 ∧ d.digits % 10 = 0 then trim fuel ⟨d.digits / 10, d.exponent + 1⟩ else d

/-- The power of ten of the leading digit. -/
def leading (d : Decimal) : Int := d.exponent + (Nat.repr d.digits).length - 1

end Decimal

namespace Double

/-- The power of ten of the leading digit of `num / den`, both
positive. -/
def leadingPower (num den : Nat) : Int :=
  if den ≤ num then (Nat.repr (num / den)).length - 1
  else
    let k := (Nat.repr (den / num)).length - 1
    if den ≤ num * 10 ^ k then -(k : Int) else -(k + 1 : Int)

/-- `num / den` divided by `10 ^ e`. -/
def scaleDecimal (num den : Nat) : Int → Nat × Nat
  | .ofNat e => (num, den * 10 ^ e)
  | .negSucc e => (num * 10 ^ (e + 1), den)

/-- The magnitude of `x` on the grid of `10 ^ e`: the neighbour that
reads back as `x`, the nearer of the two if both do. -/
def onGrid? (x : Double) (e : Int) : Option Decimal :=
  let (num, den) := x.fraction
  let (n, d) := scaleDecimal num den e
  let below := n / d
  let reads := fun c => decide (ofDecimal x.isNegative c e = x)
  let nearer := if 2 * (n % d) < d ∨ (2 * (n % d) = d ∧ below % 2 = 0) then below else below + 1
  let further := if nearer = below then below + 1 else below
  if reads nearer then some ⟨nearer, e⟩
  else if reads further then some ⟨further, e⟩
  else none

/-- All digits of a finite number. -/
def expansion (x : Double) : Decimal :=
  match x.exponent with
  | .ofNat e => ⟨x.significand * 2 ^ e, 0⟩
  | .negSucc e => ⟨x.significand * 5 ^ (e + 1), -(e + 1 : Int)⟩

/-- The shortest decimal that reads as the finite number `x`, without
its sign. -/
def shortest (x : Double) : Decimal :=
  if x.isZero then ⟨0, 0⟩ else
    let (num, den) := x.fraction
    let top := leadingPower num den
    let hit := (List.range 17).findSome? fun (n : Nat) => onGrid? x (top - n)
    (hit.getD x.expansion).trim 400

end Double

end StoreBench
