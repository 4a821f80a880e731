import StoreBench.Number.Double
import StoreBench.Text.Digits

/-!
# `StoreBench.Number.Scan`: numbers that fill a whole text

A whole number is a sign, which may be left out, and digits. A fractional
number may also have a point, with digits on at least one side of it, an
exponent, or be one of the words for infinity and for no number, in
letters of either case.
-/

set_option autoImplicit false

namespace StoreBench

/-- Splits off a sign: whether it is a minus. -/
def splitSign : List Char → Bool × List Char
  | '-' :: cs => (true, cs)
  | '+' :: cs => (false, cs)
  | cs => (false, cs)

/-- The value of a text that is digits only, and not empty. -/
def scanDigits? (cs : List Char) : Option Nat :=
  if cs.isEmpty || !cs.all Text.isDigit then none else some (Text.digitsValue cs)

/-- A number that is not negative, up to a limit. -/
def scanNat? (limit : Nat) (s : String) : Option Nat :=
  let digits := match s.toList with
    | '+' :: cs => cs
    | cs => cs
  (scanDigits? digits).filter fun n => n ≤ limit

/-- A signed word of 64 bits. -/
def scanInt? (s : String) : Option Int :=
  let (negative, digits) := splitSign s.toList
  (scanDigits? digits).bind fun n =>
    let i : Int := if negative then -n else n
    if -2 ^ 63 ≤ i ∧ i < 2 ^ 63 then some i else none

namespace Double

/-- The exponent behind the digits, if what stands there is one. -/
def scanExponent? : List Char → Option Int
  | [] => some 0
  | c :: cs =>
    if c = 'e' ∨ c = 'E' then
      let (negative, digits) := splitSign cs
      (scanDigits? digits).map fun n => if negative then -(n : Int) else n
    else none

/-- A number without its sign. -/
def scanMagnitude? (negative : Bool) (cs : List Char) : Option Double :=
  let whole := cs.takeWhile Text.isDigit
  let rest := cs.drop whole.length
  let places := match rest with
    | '.' :: rest => rest.takeWhile Text.isDigit
    | _ => []
  let rest := match rest with
    | '.' :: rest => rest.drop places.length
    | rest => rest
  if whole.isEmpty && places.isEmpty then none
  else (scanExponent? rest).map fun exponent =>
    ofDecimal negative (Text.digitsValue (whole ++ places)) (exponent - places.length)

/-- The number that a text writes. -/
def scan? (s : String) : Option Double :=
  let (negative, cs) := splitSign s.toList
  let word := String.ofList (cs.map Char.toLower)
  if word = "inf" ∨ word = "infinity" then some (nearest negative (2 ^ 1024) 1)
  else if word = "nan" then some ⟨0x7ff8000000000000⟩
  else scanMagnitude? negative cs

/-- The nearest word of 64 bits without sign: a half away from zero, what
is too large the largest one, and zero for what is negative or no number. -/
def saturated (x : Double) : Nat :=
  if x.isNaN || x.isNegative then 0
  else if x.isFinite then min x.roundMagnitude (2 ^ 64 - 1)
  else 2 ^ 64 - 1

end Double

end StoreBench
