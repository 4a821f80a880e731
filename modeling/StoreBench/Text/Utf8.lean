/-!
# `StoreBench.Text.Utf8`: text from bytes

`Utf8.decode` reads bytes as UTF-8. What does not read is reported with the
number of bytes before it and, unless the text merely breaks off, the
number of bytes that belong to it.
-/

set_option autoImplicit false

namespace StoreBench.Utf8

/-- Bytes that are no text: where they begin, and how many they are, or
none when more bytes could have completed a character. -/
structure Flaw where
  start : Nat
  length : Option Nat
deriving Repr, Inhabited

def Flaw.message (f : Flaw) : String :=
  match f.length with
  | some n => s!"invalid utf-8 sequence of {n} bytes from index {f.start}"
  | none => s!"incomplete utf-8 byte sequence from index {f.start}"

/-- A range of bytes. -/
def within (low high : Nat) (b : UInt8) : Bool := low ≤ b.toNat && b.toNat ≤ high

/-- The ranges of the bytes that may follow a first byte, and the value of
the first byte's own bits. -/
def following? (first : UInt8) : Option (Nat × List (Nat × Nat)) :=
  let n := first.toNat
  let rest := (0x80, 0xBF)
  if n < 0x80 then some (n, [])
  else if n < 0xC2 then none
  else if n < 0xE0 then some (n - 0xC0, [rest])
  else if n = 0xE0 then some (0, [(0xA0, 0xBF), rest])
  else if n = 0xED then some (0xD, [(0x80, 0x9F), rest])
  else if n < 0xF0 then some (n - 0xE0, [rest, rest])
  else if n = 0xF0 then some (0, [(0x90, 0xBF), rest, rest])
  else if n < 0xF4 then some (n - 0xF0, [rest, rest, rest])
  else if n = 0xF4 then some (4, [(0x80, 0x8F), rest, rest])
  else none

/-- The rest of a character: its code point and the bytes after it, or how
many bytes of it were read before one that does not belong to it. -/
def readRest : Nat → Nat → List (Nat × Nat) → List UInt8 → Except (Option Nat) (Nat × List UInt8)
  | value, _, [], bytes => .ok (value, bytes)
  | _, _, _ :: _, [] => .error none
  | value, read, (low, high) :: ranges, b :: bytes =>
    if within low high b then readRest (value * 64 + b.toNat % 64) (read + 1) ranges bytes
    else .error (some read)

/-- The characters of `bytes`, which begin at `start`. -/
def decodeFrom : Nat → Nat → List UInt8 → Except Flaw (List Char)
  | _, _, [] => .ok []
  | 0, start, _ :: _ => .error ⟨start, none⟩
  | fuel + 1, start, b :: bytes =>
    match following? b with
    | none => .error ⟨start, some 1⟩
    | some (value, ranges) =>
      match readRest value 1 ranges bytes with
      | .error length => .error ⟨start, length⟩
      | .ok (code, rest) => do
        let cs ← decodeFrom fuel (start + 1 + ranges.length) rest
        .ok (Char.ofNat code :: cs)

def decode (bytes : List UInt8) : Except Flaw String :=
  (decodeFrom bytes.length 0 bytes).map String.ofList

end StoreBench.Utf8
