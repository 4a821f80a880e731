import StoreBench.Time.Calendar
import StoreBench.Number.Text
import StoreBench.Text.Blank
import StoreBench.Text.Digits
import StoreBench.Time.Span

/-!
# `StoreBench.Time.Instant`: points in time and their texts

An instant is a number of seconds since 1970 with nanoseconds. During a
leap second the nanoseconds run on past a whole second, from `10 ^ 9`
up to `2 * 10 ^ 9`, so a leap second belongs to the second before it.

Instants are written as dates and times in UTC: `microText` with six
places always, `isoText` with as many groups of three places as needed.
`Instant.ofText` reads an offset time strictly; `Instant.ofLooseText`
also takes signed years, blanks between the parts and the zone name.
-/

set_option autoImplicit false

namespace StoreBench

/-- A moment, in seconds and nanoseconds. A leap second has more than a second of
nanoseconds. -/
structure Instant where
  seconds : Int
  nanos : Nat
deriving DecidableEq, Repr, Inhabited

namespace Instant

open Time

/-- The first second of the earliest year that has dates. -/
def leastSecond : Int := -8334601228800

/-- The last second of the latest year that has dates. -/
def greatestSecond : Int := 8210266876799

/-- Whether the seconds are those of a year that can be named. -/
def inRange (seconds : Int) : Bool := leastSecond ≤ seconds && seconds ≤ greatestSecond

/-- The instant that many milliseconds after 1970. -/
def ofMillis? (millis : Int) : Option Instant :=
  let seconds := millis / 1000
  if inRange seconds then some ⟨seconds, (millis % 1000).toNat * 1000000⟩ else none

/-- The instant a span before another. -/
def minus? (t : Instant) (s : Span) : Option Instant :=
  let nanos := t.seconds * 1000000000 + t.nanos - s.nanos
  let seconds := nanos / 1000000000
  if inRange seconds then some ⟨seconds, (nanos % 1000000000).toNat⟩ else none

/-! ### Writing -/

/-- Years of four digits stand alone, other years have a sign and at
least four digits. -/
def yearText (year : Int) : List Char :=
  if 0 ≤ year ∧ year ≤ 9999 then padded 4 year.toNat
  else (if year < 0 then '-' else '+') :: padded 4 year.natAbs

/-- Date and time to the second. -/
def secondText (t : Instant) : List Char :=
  let date := dateOfDays (t.seconds / 86400)
  let ofDay := (t.seconds % 86400).toNat
  let second := ofDay % 60 + t.nanos / 1000000000
  yearText date.year ++ '-' :: padded 2 date.month ++ '-' :: padded 2 date.day
    ++ 'T' :: padded 2 (ofDay / 3600) ++ ':' :: padded 2 (ofDay / 60 % 60)
    ++ ':' :: padded 2 second

/-- UTC with six places, further places cut off. -/
def microText (t : Instant) : String :=
  String.ofList (t.secondText ++ '.' :: padded 6 (t.nanos % 1000000000 / 1000) ++ ['Z'])

/-- UTC with no places, or three, six or nine, as many as needed. -/
def isoText (t : Instant) : String :=
  let n := t.nanos % 1000000000
  let places :=
    if n = 0 then []
    else if n % 1000000 = 0 then '.' :: padded 3 (n / 1000000)
    else if n % 1000 = 0 then '.' :: padded 6 (n / 1000)
    else '.' :: padded 9 n
  String.ofList (t.secondText ++ places ++ ['Z'])

/-! ### Reading -/

/-- Why a text denotes no instant. -/
inductive Flaw
  | outOfRange | invalid | tooShort | tooLong
deriving DecidableEq, Repr, Inhabited

def Flaw.message : Flaw → String
  | .outOfRange => "input is out of range"
  | .invalid => "input contains invalid characters"
  | .tooShort => "premature end of input"
  | .tooLong => "trailing input"

/-- The result of reading a part: a value and the text left. -/
abbrev Read := Except Flaw

/-- A number of at least `least` and at most `most` digits. -/
def readNumber (least most : Nat) (cs : List Char) : Read (Nat × List Char) :=
  if Text.byteCount cs < least then .error .tooShort
  else
    let ds := (cs.take most).takeWhile Text.isDigit
    if ds.length < least then .error .invalid
    else if 2 ^ 63 ≤ Text.digitsValue ds then .error .outOfRange
    else .ok (Text.digitsValue ds, cs.drop ds.length)

/-- A number within bounds. -/
def readBounded (width low high : Nat) (cs : List Char) (least : Nat) : Read (Nat × List Char) := do
  let (n, cs) ← readNumber least width cs
  if low ≤ n ∧ n ≤ high then .ok (n, cs) else .error .outOfRange

def readChar (c : Char) : List Char → Read (List Char)
  | [] => .error .tooShort
  | d :: cs => if d = c then .ok cs else .error .invalid

/-- Places after the point, those past the ninth dropped. -/
def readPlaces (cs : List Char) : Read (Nat × List Char) :=
  match cs with
  | '.' :: cs => do
    let (n, rest) ← readNumber 1 9 cs
    let width := cs.length - rest.length
    .ok (n * 10 ^ (9 - width), rest.dropWhile Text.isDigit)
  | cs => .ok (0, cs)

/-- Two digits of an offset. -/
def readPair (cs : List Char) : Read (Char × Char × List Char) :=
  if Text.byteCount cs < 2 then .error .tooShort
  else match cs with
    | a :: b :: rest =>
      if Text.isDigit a && Text.isDigit b then .ok (a, b, rest) else .error .invalid
    | _ => .error .invalid

/-- The offset from UTC in seconds; `between` reads what stands between
its hours and its minutes. -/
def readOffset (between : List Char → Read (List Char)) (cs : List Char) :
    Read (Int × List Char) := do
  match cs with
  | [] => .error .tooShort
  | c :: rest =>
    if c = 'Z' ∨ c = 'z' then .ok (0, rest)
    else
      let negative := c = '-' ∨ c.toNat = 0x2212
      if c = '+' ∨ negative then
        let (h1, h2, rest) ← readPair rest
        let rest ← between rest
        let (m1, m2, rest) ← readPair rest
        if '6' ≤ m1 then .error .outOfRange
        else
          let seconds : Int := Text.digitsValue [h1, h2] * 3600 + Text.digitsValue [m1, m2] * 60
          .ok (if decide negative then -seconds else seconds, rest)
      else .error .invalid

/-- The instant of a date and a time of day at an offset. The sixtieth
second is the leap second of its minute. -/
def ofParts (date : Date) (hour minute second nanos : Nat) (offset : Int) : Read Instant :=
  if !date.isValid ∨ 86340 < offset ∨ offset < -86340 then .error .outOfRange
  else
    let (second, nanos) := if second = 60 then (59, nanos + 1000000000) else (second, nanos)
    let seconds := daysOfDate date * 86400 + hour * 3600 + minute * 60 + second - offset
    if inRange seconds then .ok ⟨seconds, nanos⟩ else .error .outOfRange

/-- The mark between date and time. -/
def readMark : List Char → Read (List Char)
  | [] => .error .tooShort
  | c :: cs => if c = 't' ∨ c = 'T' ∨ c = ' ' then .ok cs else .error .invalid

/-- An offset time such as `2024-01-01T09:00:00+05:30`. -/
def ofText (text : String) : Read Instant := do
  let (year, cs) ← readNumber 4 4 text.toList
  let cs ← readChar '-' cs
  let (month, cs) ← readBounded 2 1 12 cs 2
  let cs ← readChar '-' cs
  let (day, cs) ← readBounded 2 1 31 cs 2
  let cs ← readMark cs
  let (hour, cs) ← readBounded 2 0 23 cs 2
  let cs ← readChar ':' cs
  let (minute, cs) ← readBounded 2 0 59 cs 2
  let cs ← readChar ':' cs
  let (second, cs) ← readBounded 2 0 60 cs 2
  let (nanos, cs) ← readPlaces cs
  let (offset, cs) ← readOffset (readChar ':') cs
  if 86340 < offset ∨ offset < -86340 then .error .outOfRange
  else if cs.isEmpty then ofParts ⟨year, month, day⟩ hour minute second nanos offset
  else .error .tooLong

/-- A year with an optional sign; with a sign it may have any number of
digits. -/
def readYear (cs : List Char) : Read (Int × List Char) :=
  match cs with
  | '-' :: cs => do
    let (n, cs) ← readNumber 1 cs.length cs
    .ok (-n, cs)
  | '+' :: cs => do
    let (n, cs) ← readNumber 1 cs.length cs
    .ok (n, cs)
  | cs => do
    let (n, cs) ← readNumber 1 4 cs
    .ok (n, cs)

/-- An offset time with blanks allowed between its parts, and with the
zone name in place of an offset. -/
def ofLooseText (text : String) : Read Instant := do
  let field := fun low high cs => readBounded 2 low high (Text.skipBlank cs) 1
  let (year, cs) ← readYear (Text.skipBlank text.toList)
  if year < -2 ^ 31 ∨ 2 ^ 31 ≤ year then .error .outOfRange
  let cs ← readChar '-' (Text.skipBlank cs)
  let (month, cs) ← field 1 12 cs
  let cs ← readChar '-' (Text.skipBlank cs)
  let (day, cs) ← field 1 31 cs
  let cs ← readMark cs
  let (hour, cs) ← field 0 23 cs
  let cs ← readChar ':' (Text.skipBlank cs)
  let (minute, cs) ← field 0 59 cs
  let cs ← readChar ':' (Text.skipBlank cs)
  let (second, cs) ← field 0 60 cs
  let (nanos, cs) ← readPlaces cs
  let cs := Text.skipBlank cs
  let zone := (cs.take 3).map Char.toLower
  let (offset, cs) ←
    if zone = ['u', 't', 'c'] then .ok (0, cs.drop 3)
    else readOffset (fun cs => .ok (cs.dropWhile fun c => c == ':' || Text.isBlank c)) cs
  if (Text.skipBlank cs).isEmpty then ofParts ⟨year, month, day⟩ hour minute second nanos offset
  else .error .tooLong

end Instant

end StoreBench
