import StoreBench.Number.Power

/-!
# `StoreBench.Number.Double`: binary64 numbers by their bits

Documents, statement parameters and reports carry binary64 numbers, and
their exact bits can be observed. A `Double` therefore *is* its 64 bits.
Sums and quotients go through Lean's `Float`; products, and everything that
decides how a number is read, written or compared, are exact arithmetic on
whole numbers:

* `significand` and `exponent` give the magnitude as
  `significand * 2 ^ exponent`;
* `nearest` is the binary64 closest to a given fraction, a tie going to
  the even neighbour, with infinity beyond the largest finite number;
* `mul` rounds the product of two fractions;
* `ofDecimal` reads `digits * 10 ^ exponent` through it;
* `place` numbers the numbers in their order, both zeros as zero.
-/

set_option autoImplicit false

namespace StoreBench

/-- A binary64 number, held as its bits: sign, eleven bits of exponent,
fifty-two bits of fraction. -/
structure Double where
  bits : UInt64
deriving DecidableEq, Repr, Inhabited

namespace Double

/-! ### The parts of a number -/

/-- The number as Lean's floating type, for arithmetic. -/
def toFloat (x : Double) : Float := Float.ofBits x.bits

/-- The bits of a floating result. -/
def ofFloat (x : Float) : Double := ⟨x.toBits⟩

/-- The sign bit, set also on negative zero. -/
def isNegative (x : Double) : Bool := x.bits.toNat / 2 ^ 63 == 1

/-- The exponent field, as stored. -/
def exponentField (x : Double) : Nat := x.bits.toNat / 2 ^ 52 % 2 ^ 11

/-- The fraction field, as stored. -/
def fractionField (x : Double) : Nat := x.bits.toNat % 2 ^ 52

/-- Neither an infinity nor a NaN. -/
def isFinite (x : Double) : Bool := x.exponentField < 2047

def isNaN (x : Double) : Bool := x.exponentField == 2047 && x.fractionField != 0

def isZero (x : Double) : Bool := x.exponentField == 0 && x.fractionField == 0

/-- The integer `m` with `|x| = m * 2 ^ x.exponent`, for finite `x`. -/
def significand (x : Double) : Nat :=
  if x.exponentField = 0 then x.fractionField else 2 ^ 52 + x.fractionField

/-- The power of two that scales `significand`. -/
def exponent (x : Double) : Int :=
  if x.exponentField = 0 then -1074 else (x.exponentField : Int) - 1075

/-- The magnitude of a finite number as a fraction in lowest effort
form: numerator and power-of-two denominator. -/
def fraction (x : Double) : Nat × Nat :=
  match x.exponent with
  | .ofNat e => (x.significand * 2 ^ e, 1)
  | .negSucc e => (x.significand, 2 ^ (e + 1))

/-! ### Rounding to the nearest number -/

/-- The bits of a magnitude `q * 2 ^ e`, where `q` fills fifty-three
bits unless `e` is the smallest exponent. A `q` rounded up to `2 ^ 53`
carries into the exponent by plain addition. -/
def packMagnitude (q : Nat) (e : Int) : Nat :=
  let raw := if q < 2 ^ 52 then q else (e + 1074).toNat * 2 ^ 52 + q
  min raw (2047 * 2 ^ 52)

/-- Quotient rounded to the nearest integer, a tie to the even one. -/
def roundHalfEven (num den : Nat) : Nat :=
  let q := num / den
  let r := num % den
  if 2 * r < den then q
  else if den < 2 * r then q + 1
  else q + q % 2

/-- `num / den` scaled by `2 ^ -e`. -/
def scaleFraction (num den : Nat) : Int → Nat × Nat
  | .ofNat e => (num, den * 2 ^ e)
  | .negSucc e => (num * 2 ^ (e + 1), den)

/-- The exponent that leaves a fifty-three bit integer part of
`num / den`, or the smallest exponent there is. -/
def scaleExponent (num den : Nat) : Int :=
  let e := (num.log2 : Int) - den.log2 - 52
  let (n, d) := scaleFraction num den e
  max (if n / d < 2 ^ 52 then e - 1 else e) (-1074)

/-- The magnitude nearest to `num / den`, as bits without a sign. -/
def nearestMagnitude (num den : Nat) : Nat :=
  if num = 0 then 0 else
    let e := scaleExponent num den
    let (n, d) := scaleFraction num den e
    packMagnitude (roundHalfEven n d) e

/-- The number nearest to `±num / den`. -/
def nearest (negative : Bool) (num den : Nat) : Double :=
  ⟨UInt64.ofNat ((if negative then 2 ^ 63 else 0) + nearestMagnitude num den)⟩

/-- The number that is nearest to a whole number. -/
def ofNat (n : Nat) : Double := nearest false n 1

/-- The number nearest to an integer. -/
def ofInt (i : Int) : Double := nearest (i < 0) i.natAbs 1

/-- The number nearest to `±digits * 10 ^ exponent`. Exponents so far
out that the answer is zero or infinity are cut off first, so that the
powers of ten stay small. -/
def ofDecimal (negative : Bool) (digits : Nat) (exponent : Int) : Double :=
  let places : Int := (Nat.repr digits).length
  if digits = 0 ∨ places + exponent < -400 then nearest negative 0 1
  else if 400 < places + exponent then nearest negative (2 ^ 1024) 1
  else match exponent with
    | .ofNat e => nearest negative (digits * 10 ^ e) 1
    | .negSucc e => nearest negative digits (10 ^ (e + 1))

/-! ### Arithmetic -/

def zero : Double := ⟨0⟩

/-- The sum, rounded. -/
def add (x y : Double) : Double := ofFloat (x.toFloat + y.toFloat)

/-- The difference, rounded. -/
def sub (x y : Double) : Double := ofFloat (x.toFloat - y.toFloat)

/-- The quotient, rounded. -/
def div (x y : Double) : Double := ofFloat (x.toFloat / y.toFloat)

/-- The number with the other sign. -/
def neg (x : Double) : Double := ⟨x.bits ^^^ 0x8000000000000000⟩

/-- The number without its sign. -/
def abs (x : Double) : Double := ⟨x.bits &&& 0x7fffffffffffffff⟩

/-- What is no number, in its usual form. -/
def nan : Double := ⟨0x7ff8000000000000⟩

/-- The number that is greater, or less, than all finite ones. -/
def infinity (negative : Bool) : Double :=
  ⟨if negative then 0xfff0000000000000 else 0x7ff0000000000000⟩

/-- The product of the fractions, rounded. An infinity times zero is no
number. -/
def mul (x y : Double) : Double :=
  let negative := x.isNegative != y.isNegative
  if x.isFinite && y.isFinite then
    let (m, c) := x.fraction
    let (n, d) := y.fraction
    nearest negative (m * n) (c * d)
  else if x.isNaN || y.isNaN || x.isZero || y.isZero then nan
  else infinity negative

/-! ### Order -/

/-- The place of a number in the order of numbers: its bits without the
sign, counted downwards when the sign is set. -/
def place (x : Double) : Int :=
  let magnitude : Nat := x.bits.toNat % 2 ^ 63
  if x.isNegative then -(magnitude : Int) else magnitude

/-- Numeric equality: the zeros are equal, a NaN equals nothing. -/
def same (x y : Double) : Bool := !x.isNaN && !y.isNaN && x.place == y.place

/-- Less, which nothing is that is not a number. -/
def lt (x y : Double) : Bool := !x.isNaN && !y.isNaN && x.place < y.place

/-- The order of two numbers, none when one of them is a NaN. -/
def compare? (x y : Double) : Option Ordering :=
  if x.lt y then some .lt
  else if y.lt x then some .gt
  else if x.same y then some .eq
  else none

/-! ### Whole numbers -/

/-- The integer a finite number is, if it is one. -/
def toInt? (x : Double) : Option Int :=
  if x.isFinite then
    let (n, d) := x.fraction
    if n % d = 0 then
      some (if x.isNegative then -((n / d : Nat) : Int) else ((n / d : Nat) : Int))
    else none
  else none

/-- A finite magnitude rounded to the nearest integer, a half away from
zero. -/
def roundMagnitude (x : Double) : Nat :=
  let (n, d) := x.fraction
  (2 * n + d) / (2 * d)

end Double

end StoreBench
