import StoreBench.Number.Shortest

/-!
# `StoreBench.Number.Text`: the written forms of numbers

Three forms of a binary64 number occur in output:

* `json`: the shortest decimal, always marked as a number with a
  fraction or an exponent. Leading digits from `10 ^ -5` up to `10 ^ 15`
  are written positionally, the rest with an exponent;
* `plain`: the shortest decimal, always positional and without a
  fraction when it has none;
* `fixed`: a given number of places, a tie going to the even digit.
-/

set_option autoImplicit false

namespace StoreBench

/-- The decimal digits of a natural number, leading digit first. -/
def digitsOf (n : Nat) : List Char := Nat.toDigits 10 n

/-- An integer with its sign. -/
def intText (i : Int) : List Char :=
  if i < 0 then '-' :: digitsOf i.natAbs else digitsOf i.natAbs

/-- A natural number in at least `width` digits. -/
def padded (width n : Nat) : List Char :=
  let ds := digitsOf n
  List.replicate (width - ds.length) '0' ++ ds

namespace Decimal

/-- The integer part and the fraction digits of a decimal, the latter
possibly empty. -/
def parts (d : Decimal) : List Char × List Char :=
  let ds := digitsOf d.digits
  match d.exponent with
  | .ofNat e => (ds ++ List.replicate e '0', [])
  | .negSucc e =>
    let places := e + 1
    if places < ds.length then (ds.take (ds.length - places), ds.drop (ds.length - places))
    else (['0'], List.replicate (places - ds.length) '0' ++ ds)

/-- Positional digits, with a point only when there is a fraction. -/
def positional (d : Decimal) : List Char :=
  match d.parts with
  | (whole, []) => whole
  | (whole, frac) => whole ++ '.' :: frac

/-- Positional digits that always show a fraction. -/
def pointed (d : Decimal) : List Char :=
  match d.parts with
  | (whole, []) => whole ++ ['.', '0']
  | (whole, frac) => whole ++ '.' :: frac

/-- One digit, the rest as a fraction, and a signed exponent. -/
def scientific (d : Decimal) : List Char :=
  let mantissa := match digitsOf d.digits with
    | [] => []
    | [c] => [c]
    | c :: rest => c :: '.' :: rest
  let sign := if d.leading < 0 then '-' else '+'
  mantissa ++ 'e' :: sign :: digitsOf d.leading.natAbs

end Decimal

namespace Double

/-- Puts the minus sign of `x` in front. -/
def signed (x : Double) (text : List Char) : List Char :=
  if x.isNegative then '-' :: text else text

/-- The form of a number inside a document. -/
def json (x : Double) : List Char :=
  let d := x.shortest
  let positional := x.isZero || (decide (-5 ≤ d.leading) && decide (d.leading < 16))
  x.signed (if positional then d.pointed else d.scientific)

/-- The names of the numbers that have no digits. -/
def special (x : Double) : List Char :=
  if x.isNaN then "NaN".toList else x.signed "inf".toList

/-- The positional form, with no point when the number is whole. -/
def plain (x : Double) : String :=
  String.ofList (if x.isFinite then x.signed x.shortest.positional else x.special)

/-- The positional form with a point in every case. -/
def plainPointed (x : Double) : String :=
  String.ofList (if x.isFinite then x.signed x.shortest.pointed else x.special)

/-- The form with exactly `places` digits after the point. -/
def fixed (places : Nat) (x : Double) : String :=
  String.ofList <|
    if x.isFinite then
      let (num, den) := x.fraction
      let scaled := roundHalfEven (num * 10 ^ places) den
      let whole := digitsOf (scaled / 10 ^ places)
      x.signed (if places = 0 then whole else whole ++ '.' :: padded places (scaled % 10 ^ places))
    else x.special

end Double

end StoreBench
