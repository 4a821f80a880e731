import StoreBench.Number.Text
import StoreBench.Text.Blank
import StoreBench.Text.Digits
import StoreBench.Text.Quoted

/-!
# `StoreBench.Time.Span`: lengths of time and their texts

A span is a whole number of nanoseconds, of less than `2 ^ 64` seconds.
Its text is a list of counts with units, `1h 30m`, largest unit first,
where a year has 365.25 days and a month 30.44. `Span.text` writes it.

`Span.ofText` reads any sequence of numbers with units. It runs over the
characters once; `Phase` is what it is in the middle of. A number may
have places (`1.5h`), provided that they make up a whole count of the
precision its unit allows; blanks may stand almost anywhere.
-/

set_option autoImplicit false

namespace StoreBench

/-- A length of time in nanoseconds. -/
structure Span where
  nanos : Nat
deriving DecidableEq, Repr, Inhabited

namespace Span

def zero : Span := ⟨0⟩

def ofSeconds (n : Nat) : Span := ⟨n * 1000000000⟩

def ofMillis (n : Nat) : Span := ⟨n * 1000000⟩

def ofMicros (n : Nat) : Span := ⟨n * 1000⟩

def isZero (s : Span) : Bool := s.nanos == 0

/-- Whole seconds. -/
def seconds (s : Span) : Nat := s.nanos / 1000000000

/-- Whole microseconds, at most the largest 64-bit word. -/
def micros (s : Span) : Nat := min (s.nanos / 1000) (2 ^ 64 - 1)

/-- The span in seconds: the whole seconds and the rest, each rounded on
its own, then added. -/
def toDouble (s : Span) : Double :=
  (Double.ofNat s.seconds).add
    ((Double.ofNat (s.nanos % 1000000000)).div (Double.ofNat 1000000000))

/-- The span of a finite, non-negative number of seconds, rounded to the
nanosecond, a tie to the even one. -/
def ofDouble (x : Double) : Span :=
  let (num, den) := x.fraction
  ⟨Double.roundHalfEven (num * 1000000000) den⟩

/-! ### Units -/

/-- A unit of time: its length in nanoseconds, and the length of the
steps in which its fractions are counted. -/
structure TimeUnit where
  nanos : Nat
  step : Nat
deriving DecidableEq, Repr, Inhabited

namespace TimeUnit

def nanosecond : TimeUnit := ⟨1, 1⟩
def microsecond : TimeUnit := ⟨1000, 1⟩
def millisecond : TimeUnit := ⟨1000000, 1⟩
def second : TimeUnit := ⟨1000000000, 1⟩
def minute : TimeUnit := ⟨60 * 1000000000, 1⟩
def hour : TimeUnit := ⟨3600 * 1000000000, 1000000000⟩
def day : TimeUnit := ⟨86400 * 1000000000, 1000000000⟩
def week : TimeUnit := ⟨7 * 86400 * 1000000000, 1000000000⟩
def month : TimeUnit := ⟨2630016 * 1000000000, 1000000000⟩
def year : TimeUnit := ⟨31557600 * 1000000000, 1000000000⟩

/-- The names of the units. -/
def names : List (String × TimeUnit) :=
  [("nanos", nanosecond), ("nsec", nanosecond), ("ns", nanosecond),
   ("usec", microsecond), ("us", microsecond), ("µs", microsecond),
   ("millis", millisecond), ("msec", millisecond), ("ms", millisecond),
   ("seconds", second), ("second", second), ("secs", second), ("sec", second), ("s", second),
   ("minutes", minute), ("minute", minute), ("min", minute), ("mins", minute), ("m", minute),
   ("hours", hour), ("hour", hour), ("hr", hour), ("hrs", hour), ("h", hour),
   ("days", day), ("day", day), ("d", day),
   ("weeks", week), ("week", week), ("wk", week), ("wks", week), ("w", week),
   ("months", month), ("month", month), ("M", month),
   ("years", year), ("year", year), ("yr", year), ("yrs", year), ("y", year)]

def ofName? (name : String) : Option TimeUnit := names.lookup name

/-- How many seconds or nanoseconds one unit is counted as: units of a
second and above count in seconds, those below in nanoseconds. -/
def factor (u : TimeUnit) : Nat :=
  if u.nanos < 1000000000 then u.nanos else u.nanos / 1000000000

end TimeUnit

/-! ### Writing -/

/-- One count with its unit, left out when it is zero. -/
def item (n : Nat) (unit : String) : List String :=
  if n = 0 then [] else [String.ofList (digitsOf n) ++ unit]

/-- A count whose unit takes an `s` in the plural. -/
def pluralItem (n : Nat) (unit : String) : List String :=
  item n (if n = 1 then unit else unit ++ "s")

/-- The counts of a span, largest unit first. -/
def items (s : Span) : List String :=
  let ofYear := s.seconds % 31557600
  let ofMonth := ofYear % 2630016
  let ofDay := ofMonth % 86400
  let rest := s.nanos % 1000000000
  pluralItem (s.seconds / 31557600) "year" ++ pluralItem (ofYear / 2630016) "month"
    ++ pluralItem (ofMonth / 86400) "day" ++ item (ofDay / 3600) "h"
    ++ item (ofDay % 3600 / 60) "m" ++ item (ofDay % 60) "s" ++ item (rest / 1000000) "ms"
    ++ item (rest / 1000 % 1000) "us" ++ item (rest % 1000) "ns"

/-- A span as it is written: its units with their numbers, from the longest on, or a
zero by itself. -/
def text (s : Span) : String :=
  if s.isZero then "0s" else " ".intercalate s.items

/-! ### Reading -/

/-- Why a text denotes no span. Offsets count bytes. -/
inductive Flaw
  | invalidCharacter (offset : Nat)
  | numberExpected (offset : Nat)
  | unknownUnit (name : String) (number : Nat)
  | overflow
  | empty
deriving DecidableEq, Repr, Inhabited

def Flaw.message : Flaw → String
  | .invalidCharacter offset => s!"invalid character at {offset}"
  | .numberExpected offset => s!"expected number at {offset}"
  | .unknownUnit name number =>
    if name.isEmpty then s!"time unit needed, for example {number}sec or {number}ms"
    else s!"unknown time unit {Text.quoted name}, supported units: ns, us/µs, ms, sec, min, "
      ++ "hours, days, weeks, months, years (and few variations)"
  | .overflow => "number is too large or cannot be represented without a lack of precision "
      ++ "(values below 1ns are not supported)"
  | .empty => "value was empty"

/-- The numerator and the power of ten below it of a number's places. -/
structure Places where
  numerator : Nat
  denominator : Nat
deriving DecidableEq, Repr, Inhabited

/-- What the reader is in the middle of. Offsets are those an error
would be reported at. -/
inductive Phase
  /-- Before a number, first or not, since the given offset. -/
  | gap (first : Bool) (since : Nat)
  /-- In the whole part of a number. -/
  | whole (n : Nat)
  /-- In the places of a number; the last character taken ended at the
  given offset. -/
  | places (n : Nat) (p : Places) (since : Nat)
  /-- In the unit after a number, its letters last one first. -/
  | unit (n : Nat) (p : Option Places) (letters : List Char)
deriving Repr, Inhabited

/-- A phase with the offset of the next character and the span read so
far. -/
structure Progress where
  phase : Phase
  offset : Nat
  total : Nat
deriving Repr, Inhabited

/-- What the reader cannot count up to. -/
def wordLimit : Nat := 2 ^ 64

def digit (c : Char) : Nat := c.toNat - 48

def isUnitLetter (c : Char) : Bool := ('a' ≤ c && c ≤ 'z') || ('A' ≤ c && c ≤ 'Z') || c.toNat = 0xB5

/-- A word that fits sixty-four bits. -/
def word (n : Nat) : Except Flaw Nat := if n < wordLimit then .ok n else .error .overflow

/-- Adds nanoseconds, which are counted in a word together with those
past the second that the total has already. -/
def addNanos (total nanos : Nat) : Except Flaw Nat :=
  if total % 1000000000 + nanos < wordLimit ∧ (total + nanos) / 1000000000 < wordLimit then
    .ok (total + nanos)
  else .error .overflow

def addSeconds (total seconds : Nat) : Except Flaw Nat :=
  if (total / 1000000000) + seconds < wordLimit then .ok (total + seconds * 1000000000)
  else .error .overflow

/-- Adds a number of units. The factor of the unit and its product with
the number are words. -/
def addWhole (total : Nat) (u : TimeUnit) (n : Nat) : Except Flaw Nat := do
  let product ← word (n * u.factor)
  if u.nanos < 1000000000 then addNanos total product else addSeconds total product

/-- Adds the places of a number of units, which must come out as a whole
number of steps. -/
def addPlaces (total : Nat) (u : TimeUnit) (p : Places) : Except Flaw Nat :=
  if u.nanos = 1 then .error .overflow
  else do
    let product ← word (p.numerator * (u.nanos / u.step))
    if product % p.denominator ≠ 0 then .error .overflow
    else if u.step = 1 then addNanos total (product / p.denominator)
    else addSeconds total (product / p.denominator)

/-- A number with its unit has been read. -/
def addItem (total : Nat) (n : Nat) (p : Option Places) (unit : String) : Except Flaw Nat :=
  match TimeUnit.ofName? unit with
  | none => .error (.unknownUnit unit n)
  | some u => do
    let total ← addWhole total u n
    match p with
    | none => .ok total
    | some p => addPlaces total u p

/-- One more character. -/
def step (s : Progress) (c : Char) : Except Flaw Progress :=
  let next := s.offset + c.utf8Size
  match s.phase with
  | .gap first since =>
    if Text.isDigit c then .ok ⟨.whole (digit c), next, s.total⟩
    else if Text.isBlank c then .ok ⟨.gap first since, next, s.total⟩
    else .error (.numberExpected since)
  | .whole n =>
    if Text.isDigit c then do
      let n ← word (n * 10 + digit c)
      .ok ⟨.whole n, next, s.total⟩
    else if Text.isBlank c then .ok ⟨.whole n, next, s.total⟩
    else if isUnitLetter c then .ok ⟨.unit n none [c], next, s.total⟩
    else if c = '.' then .ok ⟨.places n ⟨0, 1⟩ s.offset, next, s.total⟩
    else .error (.invalidCharacter s.offset)
  | .places n p since =>
    if Text.isDigit c then do
      let denominator ← word (p.denominator * 10)
      let numerator ← word (p.numerator * 10 + digit c)
      .ok ⟨.places n ⟨numerator, denominator⟩ next, next, s.total⟩
    else if Text.isBlank c then .ok ⟨.places n p next, next, s.total⟩
    else if isUnitLetter c then
      if p.denominator = 1 then .error (.invalidCharacter since)
      else .ok ⟨.unit n (some p) [c], next, s.total⟩
    else .error (.invalidCharacter since)
  | .unit n p letters =>
    let unit := String.ofList letters.reverse
    if Text.isDigit c then do
      let total ← addItem s.total n p unit
      .ok ⟨.whole (digit c), next, total⟩
    else if Text.isBlank c then do
      let total ← addItem s.total n p unit
      .ok ⟨.gap false next, next, total⟩
    else if isUnitLetter c then .ok ⟨.unit n p (c :: letters), next, s.total⟩
    else .error (.invalidCharacter s.offset)

/-- The end of the text. -/
def finish (s : Progress) : Except Flaw Span :=
  match s.phase with
  | .gap true _ => .error .empty
  | .gap false _ => .ok ⟨s.total⟩
  | .whole n => .error (.unknownUnit "" n)
  | .places n p since =>
    if p.denominator = 1 then .error (.invalidCharacter since) else .error (.unknownUnit "" n)
  | .unit n p letters => do
    let total ← addItem s.total n p (String.ofList letters.reverse)
    .ok ⟨total⟩

/-- The span a text denotes. A zero needs no unit. -/
def ofText (s : String) : Except Flaw Span :=
  if s = "0" then .ok zero
  else do
    let progress ← s.toList.foldlM step ⟨.gap true 0, 0, 0⟩
    finish progress

end Span

end StoreBench
