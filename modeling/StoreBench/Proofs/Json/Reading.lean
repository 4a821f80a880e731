import StoreBench.Json.Printer
import StoreBench.Json.Typed
import StoreBench.Proofs.Text.Digits

/-!
# `StoreBench.Proofs.Json.Reading`: values that are written and read back

`Reads read text a` says that a reader takes exactly this text off the front and
answers `a`, whatever follows, as long as a value may end there. The readers of
strings, whole numbers and null read what `write` writes of these
(`reads_writeString`, `reads_intText`, `reads_none`). Lists and records are put
together of values that are read (`Reads.list`, `Fills.reads_record`), so that the
shape of a document needs no more than its fields in their order.

A string is read character by character. Each is written as one escape or as itself
(`readChars_escapeChar`), and an escape never ends the string.
-/

set_option autoImplicit false

namespace StoreBench.Json

variable {α β σ : Type} {text rest : List Char} {a : α}

/-- What may stand after a value: nothing, a comma, or a closing bracket. -/
def Ends (rest : List Char) : Prop := ∀ c ∈ rest.head?, c = ',' ∨ c = ']' ∨ c = closeBrace

/-- A text that begins with the first character of some value. -/
def Starts (text : List Char) : Prop :=
  ∃ c cs, text = c :: cs ∧ isBlank c = false ∧ c ≠ ',' ∧ c ≠ ']'

/-- The reader takes the text for the value and leaves what follows. -/
structure Reads (read : List Char → Read (α × List Char)) (text : List Char) (a : α) : Prop where
  starts : Starts text
  read : ∀ rest, Ends rest → read (text ++ rest) = .ok (a, rest)

/-- Nothing may stand after a value. -/
theorem ends_nil : Ends [] := nofun

/-- Neither a comma nor a closing bracket is taken for a part of a value. -/
theorem ends_cons {c : Char} (h : c = ',' ∨ c = ']' ∨ c = closeBrace) : Ends (c :: rest) := by
  rintro _ ⟨⟩
  exact h

/-- No blanks are skipped before a value, as none begins with one. -/
theorem Starts.skipBlanks (h : Starts text) (rest : List Char) :
    skipBlanks (text ++ rest) = text ++ rest := by
  obtain ⟨c, cs, rfl, hblank, -⟩ := h
  simp [Json.skipBlanks, hblank]

/-- A value that is turned into another is read as the other. -/
theorem Reads.map {read : List Char → Read (α × List Char)} (h : Reads read text a) (f : α → β) :
    Reads (fun cs => do let (a, rest) ← read cs; .ok (f a, rest)) text (f a) where
  starts := h.starts
  read rest hrest := by
    rw [h.read rest hrest]
    rfl

/-- A whole text is read when it is one value. -/
theorem Reads.readText {read : List Char → Read (α × List Char)} (h : Reads read text a) :
    readText read (String.ofList text) = .ok a := by
  have hread := h.read [] ends_nil
  rw [List.append_nil] at hread
  simp only [Json.readText, String.toList_ofList, hread, Text.ok_bind]
  rfl

/-! ### Strings -/

/-- The sixteen digits that are written are read as themselves. -/
theorem hexValue?_digitChar : ∀ d < 16, Text.hexValue? (Nat.digitChar d) = some d := by decide

/-- A control character is read back from its four digits. -/
theorem readHex_control {c : Char} (h : c.toNat < 0x20) (rest : List Char) :
    readHex ('0' :: '0' :: Nat.digitChar (c.toNat / 16) :: Nat.digitChar (c.toNat % 16) :: rest)
      = .ok (c.toNat, rest) := by
  have hzero : Text.hexValue? '0' = some 0 := rfl
  have hvalue : ((0 * 16 + 0) * 16 + c.toNat / 16) * 16 + c.toNat % 16 = c.toNat := by omega
  simp only [readHex, hzero, hexValue?_digitChar _ (show c.toNat / 16 < 16 by omega),
    hexValue?_digitChar _ (show c.toNat % 16 < 16 by omega), hvalue]

/-- A character is read back from what is written for it. -/
theorem readChars_escapeChar (fuel : Nat) (c : Char) (rest : List Char) :
    readChars (fuel + 1) (escapeChar c ++ rest)
      = (do let (ds, cs) ← readChars fuel rest; .ok (c :: ds, cs)) := by
  unfold escapeChar
  split
  · rename_i h; subst h; rfl
  split
  · rename_i h; subst h; rfl
  split
  · rename_i h; subst h; rfl
  split
  · rename_i h; subst h; rfl
  split
  · rename_i h; subst h; rfl
  split
  · rename_i h; subst h; rfl
  split
  · rename_i h; subst h; rfl
  split
  · rename_i hcontrol
    -- No control character is half of a pair.
    have hescape : readEscape ('u' :: '0' :: '0' :: Nat.digitChar (c.toNat / 16)
        :: Nat.digitChar (c.toNat % 16) :: rest) = .ok (c, rest) := by
      simp only [readEscape, readHex_control hcontrol, Text.ok_bind]
      rw [if_neg (by omega), if_neg (by omega), Char.ofNat_toNat]
    simp [readChars, hescape]
  · rename_i hquote hbackslash _ _ _ _ _ hcontrol
    simp only [List.cons_append, List.nil_append, readChars, if_neg hquote, if_neg hbackslash,
      if_neg hcontrol]

/-- Escaped characters are read up to the quote that is not escaped. -/
theorem readChars_escaped {fuel : Nat} (cs rest : List Char) (h : cs.length < fuel) :
    readChars fuel (cs.flatMap escapeChar ++ '"' :: rest) = .ok (cs, rest) := by
  induction cs generalizing fuel with
  | nil =>
      obtain ⟨k, rfl⟩ := Nat.exists_eq_add_one_of_ne_zero (Nat.ne_zero_of_lt h)
      rfl
  | cons c cs ih =>
      obtain ⟨k, rfl⟩ := Nat.exists_eq_add_one_of_ne_zero (Nat.ne_zero_of_lt h)
      rw [List.flatMap_cons, List.append_assoc, readChars_escapeChar,
        ih (by simpa using h), Text.ok_bind]

/-- Every character takes some room, so that the text is fuel enough for its characters. -/
theorem length_le_flatMap_escapeChar (cs : List Char) :
    cs.length ≤ (cs.flatMap escapeChar).length := by
  induction cs with
  | nil => exact Nat.le_refl _
  | cons c cs ih =>
      have hpos : 0 < (escapeChar c).length := by
        unfold escapeChar
        repeat' split
        all_goals exact Nat.succ_pos _
      rw [List.flatMap_cons, List.length_append, List.length_cons]
      omega

/-- What stands between the quotes is read as the string. -/
theorem readStringBody_written (s : String) (rest : List Char) :
    readStringBody (s.toList.flatMap escapeChar ++ '"' :: rest) = .ok (s, rest) := by
  have hle := length_le_flatMap_escapeChar s.toList
  rw [readStringBody, readChars_escaped _ _ (by rw [List.length_append]; omega), Text.ok_bind]
  simp only [String.ofList_toList]

/-- A string begins with its quote. -/
theorem starts_writeString (s : String) : Starts (writeString s) :=
  ⟨'"', _, rfl, by decide, by decide, by decide⟩

/-- A written string is a quote and the rest of it. -/
theorem writeString_append (s : String) (rest : List Char) :
    writeString s ++ rest = '"' :: (s.toList.flatMap escapeChar ++ '"' :: rest) := by
  simp [writeString]

/-- A string is read back, whatever characters it has. -/
theorem reads_writeString (s : String) : Reads readString (writeString s) s where
  starts := starts_writeString s
  read rest _ := by
    have hskip : skipBlanks ('"' :: (s.toList.flatMap escapeChar ++ '"' :: rest))
        = '"' :: (s.toList.flatMap escapeChar ++ '"' :: rest) := rfl
    rw [writeString_append, readString, readParsed, hskip]
    simp only [readStringBody_written, Text.ok_bind]

/-! ### Whole numbers and null -/

/-- Digits that the whole part of a number may have: none before them is a zero, unless
that is all there is. -/
def Whole (ds : List Char) : Prop :=
  ds = ['0'] ∨ ∃ c cs, ds = c :: cs ∧ c ≠ '0' ∧ ∀ d ∈ ds, Text.isDigit d = true

/-- The digits of a number are a whole part as it may be written. -/
theorem whole_digitsOf (n : Nat) : Whole (digitsOf n) := by
  rcases Text.digitsOf_eq_cons n with ⟨-, hzero⟩ | ⟨c, cs, hdigits, -, hne⟩
  · exact .inl hzero
  · exact .inr ⟨c, cs, hdigits, hne, fun _ => Text.isDigit_of_mem_digitsOf⟩

/-- A whole part begins with a digit. It is what the reader of numbers starts from. -/
theorem Whole.eq_cons {ds : List Char} (h : Whole ds) :
    ∃ c cs, ds = c :: cs ∧ Text.isDigit c = true := by
  rcases h with rfl | ⟨c, cs, rfl, -, hdigits⟩
  · exact ⟨'0', [], rfl, rfl⟩
  · exact ⟨c, cs, rfl, hdigits c List.mem_cons_self⟩

/-- What may stand after a value does not make a number longer. -/
theorem Ends.noDigit (hrest : Ends rest) : Text.NoDigit rest := by
  intro c hc
  rcases hrest c hc with rfl | rfl | rfl <;> rfl

/-- The digits of a whole part are read as far as they go. -/
theorem readUnsigned_whole (negative : Bool) {ds : List Char} (h : Whole ds)
    (hrest : Text.NoDigit rest) :
    readUnsigned negative (ds ++ rest) = readFraction negative ds rest := by
  rcases h with rfl | ⟨c, cs, rfl, hne, hdigits⟩
  · cases rest with
    | nil => rfl
    | cons d cs => simp [readUnsigned, hrest d rfl]
  · have htake := Text.takeWhile_digits hdigits hrest
    have hdrop := Text.dropWhile_digits hdigits hrest
    rw [List.cons_append] at htake hdrop ⊢
    rw [readUnsigned.eq_def]
    split
    · rename_i hcs
      cases hcs
    · rename_i hcs
      exact absurd (List.cons.inj hcs).1 hne
    · rename_i hcs
      cases hcs
      rw [if_pos (hdigits c List.mem_cons_self), htake, hdrop]

/-- A sign, where there is one, is read before the whole part. -/
theorem readNumber_signed (negative : Bool) {ds : List Char} (h : Whole ds) :
    readNumber (if negative then '-' :: (ds ++ rest) else ds ++ rest)
      = readUnsigned negative (ds ++ rest) := by
  cases negative with
  | true => rfl
  | false =>
      -- The first digit is no sign.
      obtain ⟨c, cs, rfl, hdigit⟩ := h.eq_cons
      rw [if_neg Bool.false_ne_true, List.cons_append, readNumber.eq_def]
      split
      · rename_i hcs
        cases hcs
        cases hdigit
      · rfl

/-- Digits that nothing continues make a whole number. -/
theorem readFraction_ends (negative : Bool) {whole : List Char} {i : Int}
    (hi : wholeNumber negative (Text.digitsValue whole) = .int i) (hrest : Ends rest) :
    readFraction negative whole rest = .ok (.int i, rest) := by
  unfold readFraction
  split
  · rcases hrest _ rfl with h | h | h <;> cases h
  · rcases hrest _ rfl with h | h | h <;> cases h
  · rcases hrest _ rfl with h | h | h <;> cases h
  · rw [hi]

/-- A whole number of a word, signed or not, is read back. -/
theorem readNumber_intText {i : Int} (hmin : intMin ≤ i) (hmax : i ≤ intMax) (hrest : Ends rest) :
    readNumber (intText i ++ rest) = .ok (.int i, rest) := by
  have hwhole : wholeNumber (decide (i < 0)) i.natAbs = .int i := by
    unfold intMin at hmin
    unfold intMax at hmax
    unfold wholeNumber
    by_cases hneg : i < 0
    · rw [if_pos (by simpa using hneg), if_neg (by omega)]
      congr 1
      omega
    · rw [if_neg (by simpa using hneg), if_pos (by omega)]
      congr 1
      omega
  have htext : intText i ++ rest = if decide (i < 0) then '-' :: (digitsOf i.natAbs ++ rest)
      else digitsOf i.natAbs ++ rest := by
    rw [intText]
    by_cases hneg : i < 0
    · rw [if_pos hneg, if_pos (by simpa using hneg), List.cons_append]
    · rw [if_neg hneg, if_neg (by simpa using hneg)]
  rw [htext, readNumber_signed _ (whole_digitsOf _),
    readUnsigned_whole _ (whole_digitsOf _) hrest.noDigit, readFraction_ends _ _ hrest]
  rw [Text.digitsValue_digitsOf, hwhole]

/-- The text of a whole number begins with a sign or a digit. -/
theorem intText_eq_cons (i : Int) :
    ∃ c cs, intText i = c :: cs ∧ (c = '-' ∨ Text.isDigit c = true) := by
  rw [intText]
  split
  · exact ⟨_, _, rfl, .inl rfl⟩
  · obtain ⟨c, cs, hdigits⟩ := List.exists_cons_of_ne_nil (Text.digitsOf_ne_nil i.natAbs)
    refine ⟨c, cs, hdigits, .inr ?_⟩
    exact Text.isDigit_of_mem_digitsOf (n := i.natAbs) (by rw [hdigits]; exact List.mem_cons_self)

/-- A sign or a digit begins a value. -/
theorem starts_number {c : Char} (hc : c = '-' ∨ Text.isDigit c = true) (cs : List Char) :
    Starts (c :: cs) := by
  refine ⟨c, cs, rfl, ?_⟩
  rcases hc with rfl | hdigit
  · decide
  · refine ⟨?_, ?_, ?_⟩
    · refine Bool.eq_false_iff.mpr fun hblank => ?_
      simp only [isBlank, Bool.or_eq_true, beq_iff_eq] at hblank
      rcases hblank with ((rfl | rfl) | rfl) | rfl <;> cases hdigit
    · rintro rfl
      cases hdigit
    · rintro rfl
      cases hdigit

/-- A whole number begins with its sign or a digit. -/
theorem starts_intText (i : Int) : Starts (intText i) := by
  obtain ⟨c, cs, htext, hc⟩ := intText_eq_cons i
  rw [htext]
  exact starts_number hc cs

/-- An integer of a range is read back. -/
theorem reads_intText {range : IntRange} {i : Int} (hmin : intMin ≤ i) (hmax : i ≤ intMax)
    (hleast : range.least ≤ i) (hgreatest : i ≤ range.greatest) :
    Reads (readInt range) (intText i) i where
  starts := starts_intText i
  read rest hrest := by
    obtain ⟨c, cs, htext, hc⟩ := intText_eq_cons i
    have hnumber := readNumber_intText hmin hmax hrest
    have hskip := (starts_intText i).skipBlanks rest
    rw [readInt, hskip]
    rw [htext, List.cons_append] at hnumber ⊢
    simp only [if_pos hc, hnumber, Text.ok_bind]
    rw [if_pos ⟨hleast, hgreatest⟩]

/-- A number of a range is read back. -/
theorem reads_natText {range : IntRange} {n : Nat} (hmax : n ≤ intMax) (hleast : range.least ≤ n)
    (hgreatest : n ≤ range.greatest) : Reads (readNat range) (intText n) n := by
  have hmin : intMin ≤ n := by
    unfold intMin
    omega
  exact (reads_intText hmin hmax hleast hgreatest).map Int.toNat

/-- A number is read where its word is large enough. -/
theorem reads_int {range : IntRange} {n : Nat} (hleast : range.least = 0) (hword : n < 2 ^ 64)
    (hgreatest : n ≤ range.greatest) : Reads (readNat range) (write (.int n)) n := by
  rw [write]
  refine reads_natText ?_ ?_ hgreatest
  · unfold intMax
    omega
  · omega

/-- A truth value is read from its word. -/
theorem reads_bool (b : Bool) : Reads readBool (write (.bool b)) b where
  starts := by
    cases b with
    | true => exact ⟨'t', _, rfl, by decide, by decide, by decide⟩
    | false => exact ⟨'f', _, rfl, by decide, by decide, by decide⟩
  read rest _ := by
    cases b <;> rfl

/-- Null stands for a value that is missing. -/
theorem reads_none (value : List Char → Read (α × List Char)) :
    Reads (readOption value) (write .null) none where
  starts := ⟨'n', _, rfl, by decide, by decide, by decide⟩
  read _ _ := rfl

/-- A value that is there is read as itself, unless it begins as null does. -/
theorem Reads.some {value : List Char → Read (α × List Char)} (h : Reads value text a)
    (hnull : text.head? ≠ some 'n') : Reads (readOption value) text (some a) where
  starts := h.starts
  read rest hrest := by
    obtain ⟨c, cs, htext, -⟩ := h.starts
    have hread := h.read rest hrest
    rw [readOption, h.starts.skipBlanks rest]
    rw [htext] at hnull
    rw [htext, List.cons_append] at hread ⊢
    split
    · rename_i hcs
      exact absurd (congrArg Option.some (List.cons.inj hcs).1) hnull
    · rw [hread]
      rfl

/-! ### Lists -/

/-- Parts with a comma before each, after a first part. -/
def commaTail : List (List Char) → List Char
  | [] => []
  | p :: rest => ',' :: (p ++ commaTail rest)

/-- Joined by commas, the first part has none before it. -/
theorem commaJoin_cons (p : List Char) (rest : List (List Char)) :
    commaJoin (p :: rest) = p ++ commaTail rest := by
  induction rest generalizing p with
  | nil => simp [commaJoin, commaTail]
  | cons q rest ih =>
      have hjoin : commaJoin (p :: q :: rest) = p ++ ',' :: commaJoin (q :: rest) := rfl
      rw [hjoin, ih, commaTail]

/-- Each part takes some room, the comma before it at least. -/
theorem length_le_commaTail (parts : List (List Char)) :
    parts.length ≤ (commaTail parts).length := by
  induction parts with
  | nil => exact Nat.le_refl _
  | cons p rest ih =>
      simp only [commaTail, List.length_cons, List.length_append]
      omega

/-- What follows a part is a comma, or the bracket at the end. -/
theorem ends_commaTail (parts : List (List Char)) {c : Char} (h : c = ']' ∨ c = closeBrace)
    (rest : List Char) : Ends (commaTail parts ++ c :: rest) := by
  cases parts with
  | nil => exact ends_cons (.inr h)
  | cons p parts => exact ends_cons (.inl rfl)

section Lists

variable {item : List Char → Read (α × List Char)} {write : β → List Char} {value : β → α}
  {items : List β}

/-- A text that begins a value is one more item of a list. -/
theorem Starts.nextItem (h : Starts text) :
    nextItem true text = .ok (true, text) ∧ nextItem false (',' :: text) = .ok (true, text) := by
  have hskip := h.skipBlanks []
  rw [List.append_nil] at hskip
  have hcomma : Json.skipBlanks (',' :: text) = ',' :: text := rfl
  obtain ⟨c, cs, rfl, -, hnotComma, hnotEnd⟩ := h
  constructor
  · simp [Json.nextItem, hskip, hnotComma, hnotEnd]
  · simp [Json.nextItem, hcomma, hskip, hnotEnd]

/-- A text that begins a value does so also before others. -/
theorem Starts.append (h : Starts text) (rest : List Char) : Starts (text ++ rest) := by
  obtain ⟨c, cs, rfl, hc⟩ := h
  exact ⟨c, cs ++ rest, rfl, hc⟩

/-- Items after a first one, by induction, as each is read up to the comma after it. -/
theorem readItems_commaTail (h : ∀ b ∈ items, Reads item (write b) (value b)) {fuel : Nat}
    (hfuel : items.length < fuel) (rest : List Char) :
    readItems item fuel false (commaTail (items.map write) ++ ']' :: rest)
      = .ok (items.map value, ']' :: rest) := by
  induction items generalizing fuel with
  | nil =>
      obtain ⟨k, rfl⟩ := Nat.exists_eq_add_one_of_ne_zero (Nat.ne_zero_of_lt hfuel)
      rfl
  | cons b others ih =>
      obtain ⟨hb, hothers⟩ := List.forall_mem_cons.mp h
      obtain ⟨k, rfl⟩ := Nat.exists_eq_add_one_of_ne_zero (Nat.ne_zero_of_lt hfuel)
      have hends := ends_commaTail (others.map write) (.inl rfl) rest
      have hnext := (hb.starts.append (commaTail (others.map write) ++ ']' :: rest)).nextItem.2
      simp only [List.map_cons, commaTail, List.cons_append, List.append_assoc, readItems, hnext,
        Text.ok_bind, if_true, hb.read _ hends, ih hothers (by simpa using hfuel)]

/-- A list of values that are read is read. -/
theorem Reads.list (h : ∀ b ∈ items, Reads item (write b) (value b)) :
    Reads (readList item) ('[' :: (commaJoin (items.map write) ++ [']'])) (items.map value) where
  starts := ⟨'[', _, rfl, by decide, by decide, by decide⟩
  read rest _ := by
    have hskip (cs : List Char) : skipBlanks ('[' :: cs) = '[' :: cs := rfl
    have hclose : closeList (']' :: rest) = .ok ((), rest) := rfl
    have hitems : readItems item ((commaJoin (items.map write) ++ ']' :: rest).length + 1) true
        (commaJoin (items.map write) ++ ']' :: rest) = .ok (items.map value, ']' :: rest) := by
      cases items with
      | nil => rfl
      | cons b others =>
          obtain ⟨hb, hothers⟩ := List.forall_mem_cons.mp h
          have hends := ends_commaTail (others.map write) (.inl rfl) rest
          have hnext := (hb.starts.append (commaTail (others.map write) ++ ']' :: rest)).nextItem.1
          have hlength := length_le_commaTail (others.map write)
          rw [List.length_map] at hlength
          -- The text is longer than it has items, so the fuel is enough.
          have hfuel : others.length
              < (write b ++ (commaTail (others.map write) ++ ']' :: rest)).length := by
            simp only [List.length_append, List.length_cons]
            omega
          have htail := readItems_commaTail hothers hfuel rest
          simp only [List.map_cons, commaJoin_cons, List.append_assoc, readItems, hnext,
            Text.ok_bind, if_true, hb.read _ hends, htail]
    simp only [List.cons_append, List.append_assoc, List.nil_append, readList, hskip, hitems,
      closingList, hclose, Text.ok_bind]

end Lists

/-- A list of strings is read back as the list of these. -/
theorem reads_strings (items : List String) :
    Reads (readList readString) (write (.arr (items.map .str))) items := by
  have hwritten : writeItems (items.map .str) = items.map writeString := by
    induction items with
    | nil => rfl
    | cons s items ih => rw [List.map_cons, writeItems, ih, write, List.map_cons]
  have hread : Reads (readList readString)
      ('[' :: (commaJoin (items.map writeString) ++ [']'])) (items.map id) :=
    .list fun s _ => reads_writeString s
  rw [List.map_id] at hread
  rwa [write, hwritten]

/-! ### Records -/

section Records

variable {fields : List (Field σ)} {s after : σ} {parts : List (List Char)}

/-- A field is read as its value is. -/
theorem Reads.field {value : List Char → Read (α × List Char)} (h : Reads value text a)
    (name : String) (get : σ → Option α) (set : σ → α → σ) (required : Bool) (s : σ) :
    Reads ((Field.of name get set value required).read s) text (set s a) := h.map (set s)

/-- The written fields of an object fill a record: each is a field of the record that
has no value yet, and at the end none is missing. -/
inductive Fills (fields : List (Field σ)) : σ → List (List Char) → σ → Prop
  | done {s : σ} (h : fields.find? (fun f => f.required && !f.isSet s) = none) : Fills fields s [] s
  | field {s next after : σ} {name : String} {text : List Char} {parts : List (List Char)}
      (field : Field σ) (hfind : fields.find? (fun f => f.name == name) = some field)
      (hunset : field.isSet s = false) (hread : Reads (field.read s) text next)
      (hrest : Fills fields next parts after) :
      Fills fields s ((writeString name ++ ':' :: text) :: parts) after

/-- A field of the record is read, and then the others. -/
theorem readNamedFields_field {field : Field σ} {name : String} {next : σ} {fuel : Nat}
    {first : Bool} {cs : List Char} (hcs : nextField first cs
      = .ok (true, writeString name ++ (':' :: (text ++ rest))))
    (hfind : fields.find? (fun f => f.name == name) = some field)
    (hunset : field.isSet s = false) (hread : Reads (field.read s) text next)
    (hends : Ends rest) :
    readNamedFields fields (fuel + 1) first s cs = readNamedFields fields fuel false next rest := by
  have hcolon : readColon (':' :: (text ++ rest)) = .ok ((), text ++ rest) := rfl
  rw [writeString_append] at hcs
  simp only [readNamedFields, hcs, Text.ok_bind, if_true, List.drop_succ_cons, List.drop_zero,
    readStringBody_written, hfind, hunset, Bool.false_eq_true, if_false, hcolon,
    hread.read _ hends]

/-- The fields after a first one, each put where its name says. -/
theorem Fills.readNamedFields (h : Fills fields s parts after) {fuel : Nat}
    (hfuel : parts.length < fuel) (rest : List Char) :
    readNamedFields fields fuel false s (commaTail parts ++ closeBrace :: rest)
      = .ok (after, closeBrace :: rest) := by
  induction h generalizing fuel with
  | done hnone =>
      obtain ⟨k, rfl⟩ := Nat.exists_eq_add_one_of_ne_zero (Nat.ne_zero_of_lt hfuel)
      have hend : nextField false (closeBrace :: rest) = .ok (false, closeBrace :: rest) := rfl
      simp only [commaTail, List.nil_append, Json.readNamedFields, hend, Text.ok_bind,
        Bool.false_eq_true, if_false, hnone]
  | field field hfind hunset hread _ ih =>
      obtain ⟨k, rfl⟩ := Nat.exists_eq_add_one_of_ne_zero (Nat.ne_zero_of_lt hfuel)
      rename_i parts _
      have hends := ends_commaTail parts (.inr rfl) rest
      rw [readNamedFields_field ?_ hfind hunset hread hends, ih (by simpa using hfuel)]
      simp only [commaTail, List.cons_append, List.append_assoc]
      rw [writeString_append]
      rfl

/-- A record is read from an object whose fields fill it. -/
theorem Fills.reads_record (title : String) (h : Fills fields s parts after) :
    Reads (readRecord title fields s) (openBrace :: (commaJoin parts ++ [closeBrace])) after where
  starts := ⟨openBrace, _, rfl, by decide, by decide, by decide⟩
  read rest _ := by
    have hclose : closeObject (closeBrace :: rest) = .ok ((), rest) := rfl
    have hfields : Json.readNamedFields fields ((commaJoin parts ++ closeBrace :: rest).length + 1)
        true s (commaJoin parts ++ closeBrace :: rest) = .ok (after, closeBrace :: rest) := by
      cases h with
      -- Nothing is written, and the object ends at once.
      | done hnone =>
          have hend : nextField true (closeBrace :: rest) = .ok (false, closeBrace :: rest) := rfl
          simp only [commaJoin, List.nil_append, Json.readNamedFields, hend, Text.ok_bind,
            Bool.false_eq_true, if_false, hnone]
      -- The first field has no comma before it, and those after it have.
      | field field hfind hunset hread hrest =>
          rename_i parts
          have hends := ends_commaTail parts (.inr rfl) rest
          have hlength := length_le_commaTail parts
          rw [commaJoin_cons]
          rw [readNamedFields_field ?_ hfind hunset hread hends, hrest.readNamedFields ?_]
          · simp only [List.length_append, List.length_cons]
            omega
          · simp only [List.cons_append, List.append_assoc]
            rw [writeString_append]
            rfl
    have hskip : skipBlanks (openBrace :: (commaJoin parts ++ closeBrace :: rest))
        = openBrace :: (commaJoin parts ++ closeBrace :: rest) := rfl
    simp only [List.cons_append, List.append_assoc, List.nil_append, readRecord, hskip]
    show closingObject
      (Json.readNamedFields fields _ true s (commaJoin parts ++ closeBrace :: rest)) = _
    rw [hfields, closingObject, hclose]
    rfl

end Records

end StoreBench.Json
