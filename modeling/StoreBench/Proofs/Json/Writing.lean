import StoreBench.Proofs.Json.Fractional

/-!
# `StoreBench.Proofs.Json.Writing`: values that are told apart by their text

The first character of a text tells what kind of value it is (`write_eq_cons`), and from
there on the texts of two values can only be the same if the values are
(`write_cancel`): numbers and strings are read back, and lists and objects are compared
item by item, as no value begins like the bracket that would end them
(`commaTail_of_commaJoin`). So no two values have one text (`write_injective`), at any
depth.

This is about values whose numbers are ones that a text can have (`proper`). A fractional
number that is not finite has no text of its own.
-/

set_option autoImplicit false

namespace StoreBench.Json

mutual

/-- The numbers of a value are in range, and the fractional ones are finite. All values
that can be read from a text are like this. -/
def proper : Json → Bool
  | .int i => decide (intMin ≤ i) && decide (i ≤ intMax)
  | .float x => x.isFinite
  | .arr items => properItems items
  | .obj fields => properFields fields
  | .null | .bool _ | .str _ => true

/-- The numbers in the items of a list are in range, and the fractional ones are finite. -/
def properItems : List Json → Bool
  | [] => true
  | a :: as => proper a && properItems as

/-- The numbers in the fields of an object are in range, and the fractional ones are
finite. Names are texts, which need no condition. -/
def properFields : List (String × Json) → Bool
  | [] => true
  | (_, a) :: as => proper a && properFields as

end

variable {rest other : List Char}

/-! ### First characters -/

/-- The character that a value begins with, if it is no number. It tells what kind of
value is written, which is why a reader never has to go back. -/
def lead : Json → Option Char
  | .null => some 'n'
  | .bool true => some 't'
  | .bool false => some 'f'
  | .int _ | .float _ => none
  | .str _ => some '"'
  | .arr _ => some '['
  | .obj _ => some '\x7b'

/-- A written value is not empty, and its first character is its lead, or a digit or a
sign where it is a number. -/
theorem write_eq_cons (a : Json) (ha : a.proper = true) :
    ∃ c cs, write a = c :: cs ∧
      a.lead = if c = '-' ∨ Text.isDigit c = true then none else some c := by
  match a with
  | .null | .bool true | .bool false => exact ⟨_, _, rfl, by decide⟩
  | .str s => exact ⟨'"', _, by rw [write, writeString], rfl⟩
  | .arr items => exact ⟨'[', _, by rw [write], rfl⟩
  | .obj fields => exact ⟨openBrace, _, by rw [write], rfl⟩
  | .int i =>
      obtain ⟨c, cs, htext, hc⟩ := intText_eq_cons i
      exact ⟨c, cs, by rw [write, htext], (if_pos hc).symm⟩
  | .float x =>
      obtain ⟨c, cs, htext, hc⟩ := json_eq_cons (x := x) ha
      exact ⟨c, cs, by rw [write, htext], (if_pos hc).symm⟩

/-- Texts that are the same begin the same way, so they are of values of one kind. -/
theorem lead_eq {a b : Json} (ha : a.proper = true) (hb : b.proper = true)
    (h : write a ++ rest = write b ++ other) : a.lead = b.lead := by
  obtain ⟨c, cs, hwrite, hlead⟩ := write_eq_cons a ha
  obtain ⟨d, ds, hwrite', hlead'⟩ := write_eq_cons b hb
  rw [hwrite, hwrite'] at h
  rw [hlead, hlead', (List.cons.inj h).1]

/-- No value begins like a bracket that closes. Therefore the end of a list is not
mistaken for one more item. -/
theorem write_ne_close {a : Json} (ha : a.proper = true) {c : Char} (hc : c = ']' ∨ c = closeBrace)
    (rest other : List Char) : write a ++ rest ≠ c :: other := by
  intro h
  obtain ⟨d, ds, hwrite, hlead⟩ := write_eq_cons a ha
  rw [hwrite] at h
  obtain rfl : d = c := (List.cons.inj h).1
  have hno : ¬ (d = '-' ∨ Text.isDigit d = true) := by
    rcases hc with rfl | rfl <;> decide
  rw [if_neg hno] at hlead
  match a with
  | .null | .bool true | .bool false | .str _ | .arr _ | .obj _ =>
      rcases hc with rfl | rfl <;> exact absurd (Option.some.inj hlead) (by decide)
  | .int _ | .float _ => cases hlead

/-! ### Numbers and strings -/

/-- Numbers are read back, each kind by its own lemma: whole numbers by their digits,
fractional ones by their shortest digits. -/
theorem readNumber_write {a : Json} (ha : a.proper = true) (hlead : a.lead = none)
    (hrest : Ends rest) : readNumber (write a ++ rest) = .ok (a, rest) := by
  match a with
  | .int i =>
      rw [proper, Bool.and_eq_true, decide_eq_true_iff, decide_eq_true_iff] at ha
      rw [write]
      exact readNumber_intText ha.1 ha.2 hrest
  | .float x =>
      rw [write]
      exact readNumber_json ha hrest
  | .bool true | .bool false => cases hlead

/-- Two numbers that are written alike are the same, provided that what follows cannot
be taken for more of the number. -/
theorem number_cancel {a b : Json} (ha : a.proper = true) (hb : b.proper = true)
    (hlead : a.lead = none) (hlead' : b.lead = none) (hrest : Ends rest) (hother : Ends other)
    (h : write a ++ rest = write b ++ other) : a = b ∧ rest = other := by
  have hread := readNumber_write ha hlead hrest
  rw [h, readNumber_write hb hlead' hother] at hread
  exact (Prod.mk.inj (Except.ok.inj hread)).imp Eq.symm Eq.symm

/-- Two strings that are written alike are the same, whatever follows, as a string ends
with a quotation mark that is not escaped. -/
theorem writeString_cancel {s t : String} (h : writeString s ++ rest = writeString t ++ other) :
    s = t ∧ rest = other := by
  rw [writeString_append, writeString_append] at h
  have hread := readStringBody_written s rest
  rw [(List.cons.inj h).2, readStringBody_written] at hread
  exact (Prod.mk.inj (Except.ok.inj hread)).imp Eq.symm Eq.symm

/-! ### Lists and objects -/

/-- Parts that are the same with commas between them are so with a comma before each, as
none of them begins like the end. -/
theorem commaTail_of_commaJoin {c : Char} {parts others : List (List Char)}
    (hparts : ∀ part ∈ parts, ∀ rest other, part ++ rest ≠ c :: other)
    (hothers : ∀ part ∈ others, ∀ rest other, part ++ rest ≠ c :: other)
    (h : commaJoin parts ++ c :: rest = commaJoin others ++ c :: other) :
    commaTail parts ++ c :: rest = commaTail others ++ c :: other := by
  cases parts with
  | nil =>
      cases others with
      | nil => exact h
      | cons q others =>
          rw [commaJoin_cons, List.append_assoc] at h
          exact absurd h.symm (hothers q List.mem_cons_self _ _)
  | cons p parts =>
      cases others with
      | nil =>
          rw [commaJoin_cons, List.append_assoc] at h
          exact absurd h (hparts p List.mem_cons_self _ _)
      | cons q others =>
          rw [commaJoin_cons, commaJoin_cons] at h
          rw [commaTail, commaTail, List.cons_append, List.cons_append, h]

/-- Nothing that is written of a list begins with the bracket that closes it, so lists
of different lengths are told apart. -/
theorem writeItems_ne_close {items : List Json} (hitems : properItems items = true) :
    ∀ part ∈ writeItems items, ∀ rest other, part ++ rest ≠ ']' :: other := by
  induction items with
  | nil => nofun
  | cons a items ih =>
      rw [properItems, Bool.and_eq_true] at hitems
      rw [writeItems]
      exact List.forall_mem_cons.mpr ⟨write_ne_close hitems.1 (.inl rfl), ih hitems.2⟩

/-- Nothing that is written of an object begins with the brace that closes it, as a
field begins with the quotation mark of its name. -/
theorem writeFields_ne_close (fields : List (String × Json)) :
    ∀ part ∈ writeFields fields, ∀ rest other, part ++ rest ≠ closeBrace :: other := by
  induction fields with
  | nil => nofun
  | cons field fields ih =>
      rw [writeFields]
      refine List.forall_mem_cons.mpr ⟨fun rest other h => ?_, ih⟩
      rw [List.append_assoc, writeString_append] at h
      exact absurd (List.cons.inj h).1 (by decide)

mutual

/-- The texts of two values are the same only if the values are, whatever follows that a
value may end before. -/
theorem write_cancel (a b : Json) (ha : a.proper = true) (hb : b.proper = true)
    {rest other : List Char} (hrest : Ends rest) (hother : Ends other)
    (h : write a ++ rest = write b ++ other) : a = b ∧ rest = other := by
  -- The first character tells the kind of the value.
  have hlead := lead_eq ha hb h
  match a with
  | .null =>
      obtain rfl : b = .null := by
        rcases b with _ | (_ | _) | _ | _ | _ | _ | _ <;> first | rfl | simp [lead] at hlead
      exact ⟨rfl, List.append_cancel_left h⟩
  | .bool x =>
      obtain rfl : b = .bool x := by
        rcases b with _ | (_ | _) | _ | _ | _ | _ | _ <;> cases x <;>
          first | rfl | simp [lead] at hlead
      exact ⟨rfl, List.append_cancel_left h⟩
  | .int i => exact number_cancel ha hb rfl hlead.symm hrest hother h
  | .float x => exact number_cancel ha hb rfl hlead.symm hrest hother h
  | .str s =>
      obtain ⟨t, rfl⟩ : ∃ t, b = .str t := by
        rcases b with _ | (_ | _) | _ | _ | t | _ | _ <;>
          first | exact ⟨_, rfl⟩ | simp [lead] at hlead
      rw [write, write] at h
      obtain ⟨rfl, hsame⟩ := writeString_cancel h
      exact ⟨rfl, hsame⟩
  | .arr as =>
      obtain ⟨bs, rfl⟩ : ∃ bs, b = .arr bs := by
        rcases b with _ | (_ | _) | _ | _ | _ | bs | _ <;>
          first | exact ⟨_, rfl⟩ | simp [lead] at hlead
      rw [proper] at ha hb
      simp only [write, List.cons_append, List.append_assoc, List.nil_append] at h
      obtain ⟨hitems, hsame⟩ := writeItems_cancel as bs ha hb
        (commaTail_of_commaJoin (writeItems_ne_close ha) (writeItems_ne_close hb)
          (List.cons.inj h).2)
      exact ⟨congrArg Json.arr hitems, hsame⟩
  | .obj as =>
      obtain ⟨bs, rfl⟩ : ∃ bs, b = .obj bs := by
        rcases b with _ | (_ | _) | _ | _ | _ | _ | bs <;>
          first | exact ⟨_, rfl⟩ | simp [lead] at hlead
      rw [proper] at ha hb
      simp only [write, List.cons_append, List.append_assoc, List.nil_append] at h
      obtain ⟨hfields, hsame⟩ := writeFields_cancel as bs ha hb
        (commaTail_of_commaJoin (writeFields_ne_close as) (writeFields_ne_close bs)
          (List.cons.inj h).2)
      exact ⟨congrArg Json.obj hfields, hsame⟩

/-- Two lists that are written alike are the same, item by item. The induction is on
both lists, together with that of `write_cancel` on their items. -/
theorem writeItems_cancel (as bs : List Json) (ha : properItems as = true)
    (hb : properItems bs = true) {rest other : List Char}
    (h : commaTail (writeItems as) ++ ']' :: rest = commaTail (writeItems bs) ++ ']' :: other) :
    as = bs ∧ rest = other := by
  match as, bs with
  | [], [] => exact ⟨rfl, (List.cons.inj h).2⟩
  | [], b :: bs => exact absurd (List.cons.inj h).1 (by decide)
  | a :: as, [] => exact absurd (List.cons.inj h).1 (by decide)
  | a :: as, b :: bs =>
      rw [properItems, Bool.and_eq_true] at ha hb
      simp only [writeItems, commaTail, List.cons_append, List.append_assoc] at h
      obtain ⟨rfl, hrest⟩ := write_cancel a b ha.1 hb.1 (ends_commaTail _ (.inl rfl) _)
        (ends_commaTail _ (.inl rfl) _) (List.cons.inj h).2
      obtain ⟨rfl, hsame⟩ := writeItems_cancel as bs ha.2 hb.2 hrest
      exact ⟨rfl, hsame⟩

/-- Two objects that are written alike have the same names and values, in the same
order. -/
theorem writeFields_cancel (as bs : List (String × Json)) (ha : properFields as = true)
    (hb : properFields bs = true) {rest other : List Char}
    (h : commaTail (writeFields as) ++ closeBrace :: rest
      = commaTail (writeFields bs) ++ closeBrace :: other) : as = bs ∧ rest = other := by
  match as, bs with
  | [], [] => exact ⟨rfl, (List.cons.inj h).2⟩
  | [], b :: bs => exact absurd (List.cons.inj h).1 (by decide)
  | a :: as, [] => exact absurd (List.cons.inj h).1 (by decide)
  | (k, a) :: as, (l, b) :: bs =>
      rw [properFields, Bool.and_eq_true] at ha hb
      simp only [writeFields, commaTail, List.cons_append, List.append_assoc] at h
      obtain ⟨rfl, hvalues⟩ := writeString_cancel (List.cons.inj h).2
      obtain ⟨rfl, hrest⟩ := write_cancel a b ha.1 hb.1 (ends_commaTail _ (.inr rfl) _)
        (ends_commaTail _ (.inr rfl) _) (List.cons.inj hvalues).2
      obtain ⟨rfl, hsame⟩ := writeFields_cancel as bs ha.2 hb.2 hrest
      exact ⟨rfl, hsame⟩

end

/-- No two values have one text. Labels of groups can stand for values because of this. -/
theorem write_injective {a b : Json} (ha : a.proper = true) (hb : b.proper = true)
    (h : write a = write b) : a = b :=
  (write_cancel a b ha hb ends_nil ends_nil (congrArg (· ++ []) h)).1

end StoreBench.Json
