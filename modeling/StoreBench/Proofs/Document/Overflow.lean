import StoreBench.Proofs.Document.Selection

/-!
# `StoreBench.Proofs.Document.Overflow`: updates that break off

An update is given up with an answer where a field is of the wrong kind. Where an increment
takes a whole number beyond the words with a sign, there is no answer: the sum breaks off,
and what asked for the update with it. `Update.Overflows` says of an update and a document
that it comes to such a sum, the changes before it being made. Each change acts on what
those before it left, so that increments of one field add up.

`ends_update` says for every update and every collection that there is no other way to
break off: an update of one document or of many succeeds or is refused, unless a document
that it comes to overflows, and then it does break off (`not_always_ends`). An update cannot
overflow as long as the sizes of its increments, together with any word that is stored or
set, add up to a word (`not_overflows_of_le`).
-/

set_option autoImplicit false

namespace StoreBench

/-- What comes of a request that is only supposed to break off at an overflow: it succeeds
or is refused by the backend, unless there is one, and then the sum breaks it off. -/
def Attempted.EndsUnless {α : Type} (overflow : Prop) (result : Attempted α) : Prop :=
  (¬ overflow → (∃ a, result = .ok a) ∨ ∃ m, result = .error (.error (.backend m))) ∧
  (overflow → result = .error (.crash .sumOverflow))

namespace Attempted

variable {α β : Type} {overflow : Prop}

/-- What succeeds has ended, without any overflow. -/
theorem endsUnless_ok (a : α) : EndsUnless False (.ok a) :=
  ⟨fun _ => .inl ⟨a, rfl⟩, False.elim⟩

/-- So does what the backend refuses, as there is an answer. -/
theorem endsUnless_backend (m : String) :
    EndsUnless False (.error (.error (.backend m)) : Attempted α) :=
  ⟨fun _ => .inr ⟨m, rfl⟩, False.elim⟩

/-- A sum that breaks off has no answer, which is all that an overflow may come to. -/
theorem endsUnless_overflow :
    EndsUnless True (.error (.crash .sumOverflow) : Attempted α) :=
  ⟨fun h => absurd trivial h, fun _ => rfl⟩

/-- What is read off an answer makes no difference. -/
theorem EndsUnless.map {result : Attempted α} (h : EndsUnless overflow result) (f : α → β) :
    EndsUnless overflow (result.map f) := by
  constructor
  · intro hnot
    rcases h.1 hnot with ⟨a, rfl⟩ | ⟨m, rfl⟩
    · exact .inl ⟨f a, rfl⟩
    · exact .inr ⟨m, rfl⟩
  · intro hover
    rw [h.2 hover]
    rfl

/-- A failure stays the same failure when nothing comes of what was to follow. -/
theorem EndsUnless.failed {failure : Failure}
    (h : EndsUnless overflow (.error failure : Attempted α)) :
    EndsUnless overflow (.error failure : Attempted β) := by
  constructor
  · intro hnot
    rcases h.1 hnot with ⟨a, ha⟩ | ⟨m, hm⟩
    · cases ha
    · cases hm
      exact .inr ⟨m, rfl⟩
  · intro hover
    cases h.2 hover
    rfl

/-- An overflow can be put in other words, as long as they say the same. -/
theorem EndsUnless.congr {result : Attempted α} {other : Prop} (h : EndsUnless overflow result)
    (hiff : overflow ↔ other) : EndsUnless other result := by
  rwa [← propext hiff]

end Attempted

open Attempted (EndsUnless)

/-! ### Changes -/

/-- A field that is written holds the word that is written, if that is one. -/
theorem Fields.word?_insert (fields : Fields) (field name : String) (v : Json) :
    Fields.word? (Fields.insert fields field v) name
      = if field = name then v.toInt64? else Fields.word? fields name := by
  unfold Fields.word?
  split
  · rename_i hname
    rw [← hname, Fields.get?_insert_self, Option.bind_some]
  · rename_i hname
    rw [Fields.get?_insert_of_ne hname]

namespace Change

/-- An increment that takes a word with a sign beyond these words. -/
def Overflows (fields : Fields) : Change → Prop
  | inc field amount => ∃ i, Fields.word? fields field = some i ∧
      ¬ (-2 ^ 63 ≤ i + amount ∧ i + amount < 2 ^ 63)
  | push _ _ | set _ _ => False

/-- A change breaks off at an overflow and at nothing else. -/
theorem ends_apply (change : Change) (fields : Fields) :
    EndsUnless (change.Overflows fields) (change.apply fields) := by
  have hyields := change.yields_apply fields
  generalize change.apply fields = result at hyields
  -- Only a word can overflow.
  have hnot {field : String} (amount : Int) (hnone : Fields.word? fields field = none) :
      ¬ (inc field amount).Overflows fields := by
    rintro ⟨i, hi, -⟩
    rw [hnone] at hi
    cases hi
  cases hyields with
  | set | push => exact Attempted.endsUnless_ok _
  | notPushed => exact Attempted.endsUnless_backend _
  | start amount hnone | fractional amount _ hnone =>
      exact (Attempted.endsUnless_ok _).congr (iff_of_false id (hnot amount hnone))
  | notIncremented amount _ hnone =>
      exact (Attempted.endsUnless_backend _).congr (iff_of_false id (hnot amount hnone))
  | sum hi hword =>
      refine (Attempted.endsUnless_ok _).congr ⟨False.elim, ?_⟩
      rintro ⟨j, hj, hover⟩
      rw [hi] at hj
      cases hj
      exact hover hword
  | overflow hi hword =>
      exact Attempted.endsUnless_overflow.congr (iff_of_true trivial ⟨_, hi, hword⟩)

end Change

/-! ### Updates -/

namespace Update

/-- The update comes to an increment that overflows, on the fields that the changes before
it leave. -/
def Overflows (update : Update) (fields : Fields) : Prop :=
  ∃ earlier change later, update = earlier ++ change :: later ∧
    (editFields earlier fields).2 = .ok () ∧ change.Overflows (editFields earlier fields).1

/-- No changes never overflow. -/
theorem not_overflows_nil (fields : Fields) : ¬ Overflows [] fields := by
  rintro ⟨earlier, change, later, hsplit, -⟩
  cases earlier <;> cases hsplit

/-- The first change overflows, or it is made and the rest overflows. -/
theorem overflows_cons (change : Change) (rest : Update) (fields : Fields) :
    Overflows (change :: rest) fields ↔
      change.Overflows fields ∨ ∃ next, change.apply fields = .ok next ∧ rest.Overflows next := by
  constructor
  · rintro ⟨earlier, last, later, hsplit, hok, hover⟩
    -- The first change overflows, or is among those before the one that does.
    cases earlier with
    | nil =>
        cases hsplit
        exact .inl hover
    | cons first earlier =>
        cases hsplit
        simp only [editFields] at hok hover
        cases happly : change.apply fields with
        | error failure =>
            rw [happly] at hok
            cases hok
        | ok next =>
            rw [happly] at hok hover
            exact .inr ⟨next, rfl, earlier, last, later, rfl, hok, hover⟩
  · rintro (hover | ⟨next, happly, earlier, last, later, rfl, hok, hover⟩)
    · exact ⟨[], change, rest, rfl, rfl, hover⟩
    · refine ⟨change :: earlier, last, later, rfl, ?_⟩
      simp only [editFields, happly]
      exact ⟨hok, hover⟩

/-- The changes of an update end or break off like the first of them that does not
succeed, from what those before it left. -/
theorem ends_editFields (update : Update) (fields : Fields) :
    EndsUnless (update.Overflows fields) (update.editFields fields).2 := by
  induction update generalizing fields with
  | nil => exact (Attempted.endsUnless_ok ()).congr (iff_of_false id (not_overflows_nil fields))
  | cons change rest ih =>
      have hchange := change.ends_apply fields
      simp only [editFields]
      cases happly : change.apply fields with
      | ok next =>
          -- The change was made, so it did not overflow.
          rw [happly] at hchange
          have hnot : ¬ change.Overflows fields := fun h => by cases hchange.2 h
          refine (ih next).congr ?_
          rw [overflows_cons, or_iff_right hnot]
          simp [happly]
      | error failure =>
          rw [happly] at hchange
          refine hchange.failed.congr ?_
          rw [overflows_cons]
          simp [happly]

/-- Only an object has fields that may overflow. -/
def OverflowsOn (update : Update) (doc : Json) : Prop :=
  ∃ fields, doc = .obj fields ∧ update.Overflows fields

/-- What is no object is refused before anything is added up. -/
theorem ends_edit (update : Update) (doc : Json) :
    EndsUnless (update.OverflowsOn doc) (update.edit doc).2 := by
  cases doc with
  | obj fields =>
      refine (update.ends_editFields fields).congr ⟨fun h => ⟨fields, rfl, h⟩, ?_⟩
      rintro ⟨others, hsame, hover⟩
      cases hsame
      exact hover
  | null | bool _ | int _ | float _ | str _ | arr _ =>
      refine (Attempted.endsUnless_backend _).congr ⟨False.elim, ?_⟩
      rintro ⟨fields, hsame, -⟩
      cases hsame

end Update

/-! ### Numbers that are small enough -/

/-- How much a change may add to a number. -/
def Change.size : Change → Nat
  | inc _ amount => amount.natAbs
  | push _ _ | set _ _ => 0

/-- How much all changes of an update may add to a number. -/
def Update.reach : Update → Nat
  | [] => 0
  | change :: rest => change.size + reach rest

section Bounds

variable {fields next : Fields} {bound : Nat}

/-- A change that is made leaves words that are no larger than those before it and the one
it sets, but for its own increment. -/
theorem Change.natAbs_le_of_apply {change : Change} (h : change.apply fields = .ok next)
    (hstored : ∀ name i, Fields.word? fields name = some i → i.natAbs ≤ bound)
    (hset : ∀ name v i, change = .set name v → v.toInt64? = some i → i.natAbs ≤ bound)
    (name : String) (i : Int) (hi : Fields.word? next name = some i) :
    i.natAbs ≤ bound + change.size := by
  -- The fields that the change does not write hold what they held.
  have hother : Fields.word? fields name = some i → i.natAbs ≤ bound + change.size := fun hi =>
    Nat.le_trans (hstored name i hi) (Nat.le_add_right _ _)
  have hyields := change.yields_apply fields
  rw [h] at hyields
  cases hyields with
  | set field value =>
      rw [Fields.word?_insert] at hi
      split at hi
      · exact hset field value i rfl hi
      · exact hother hi
  | push field item items =>
      rw [Fields.word?_insert] at hi
      split at hi
      · cases hi
      · exact hother hi
  | sum hj hword =>
      rw [Fields.word?_insert] at hi
      split at hi
      · -- A sum is no further from zero than its summands together.
        have hbefore := hstored _ _ hj
        rw [Json.toInt64?, if_pos hword.2] at hi
        cases hi
        show _ ≤ bound + Int.natAbs _
        omega
      · exact hother hi
  | start amount hnone =>
      rw [Fields.word?_insert] at hi
      split at hi
      · have hsame : i = amount := by
          simp only [Json.toInt64?] at hi
          split at hi
          · exact (Option.some.inj hi).symm
          · cases hi
        subst hsame
        exact Nat.le_add_left _ _
      · exact hother hi
  | fractional amount x hnone =>
      rw [Fields.word?_insert] at hi
      split at hi
      · -- A fractional sum is a fractional number or null.
        unfold Json.ofDouble at hi
        split at hi <;> cases hi
      · exact hother hi

/-- No increment overflows when every word with a sign, stored or set, leaves room for all
of them. -/
theorem Update.not_overflows_of_le {update : Update}
    (hstored : ∀ name i, Fields.word? fields name = some i → i.natAbs ≤ bound)
    (hset : ∀ name v i, Change.set name v ∈ update → v.toInt64? = some i → i.natAbs ≤ bound)
    (hroom : bound + update.reach < 2 ^ 63) : ¬ update.Overflows fields := by
  induction update generalizing fields bound with
  | nil => exact not_overflows_nil fields
  | cons change rest ih =>
      rw [reach] at hroom
      rw [overflows_cons]
      rintro (hover | ⟨next, happly, hover⟩)
      · cases change with
        | push | set => exact hover
        | inc field amount =>
            obtain ⟨i, hi, hnot⟩ := hover
            have hbefore := hstored field i hi
            have hsize : (Change.inc field amount).size = amount.natAbs := rfl
            omega
      · -- The words after the change are bounded by what it added.
        refine @ih next (bound + change.size) ?_ ?_ (by omega) hover
        · refine Change.natAbs_le_of_apply happly hstored fun name v i hchange hi => ?_
          exact hset name v i (hchange ▸ List.mem_cons_self) hi
        · intro name v i hmem hi
          exact Nat.le_trans (hset name v i (List.mem_cons_of_mem _ hmem) hi)
            (Nat.le_add_right _ _)

end Bounds

/-! ### Collections -/

/-- An update comes to a document that overflows, all those before it being edited. -/
def Update.OverflowsAmong (changes : Update) (entries : List (String × Json)) : Prop :=
  ∃ earlier entry later, entries = earlier ++ entry :: later ∧
    (∀ other ∈ earlier, (changes.edit other.2).2 = .ok ()) ∧ changes.OverflowsOn entry.2

/-- An update of no documents never overflows. -/
theorem Update.not_overflowsAmong_nil (changes : Update) : ¬ changes.OverflowsAmong [] := by
  rintro ⟨earlier, entry, later, hsplit, -⟩
  cases earlier <;> cases hsplit

/-- The first document overflows, or it is edited and one of the rest does. -/
theorem Update.overflowsAmong_cons (changes : Update) (entry : String × Json)
    (rest : List (String × Json)) :
    changes.OverflowsAmong (entry :: rest) ↔ changes.OverflowsOn entry.2 ∨
      (changes.edit entry.2).2 = .ok () ∧ changes.OverflowsAmong rest := by
  constructor
  · rintro ⟨earlier, last, later, hsplit, hok, hover⟩
    cases earlier with
    | nil =>
        cases hsplit
        exact .inl hover
    | cons first earlier =>
        cases hsplit
        obtain ⟨hfirst, hearlier⟩ := List.forall_mem_cons.mp hok
        exact .inr ⟨hfirst, earlier, last, later, rfl, hearlier, hover⟩
  · rintro (hover | ⟨hfirst, earlier, last, later, rfl, hok, hover⟩)
    · exact ⟨[], entry, rest, rfl, nofun, hover⟩
    · exact ⟨entry :: earlier, last, later, rfl, List.forall_mem_cons.mpr ⟨hfirst, hok⟩, hover⟩

namespace Documents

/-- An update of many documents stops at the first that is refused or breaks off, so
that those after it do not count. -/
theorem ends_editAll (changes : Update) (docs : Documents) (entries : List (String × Json)) :
    EndsUnless (changes.OverflowsAmong entries) (docs.editAll changes entries).2 := by
  induction entries generalizing docs with
  | nil =>
      exact (Attempted.endsUnless_ok ()).congr (iff_of_false id changes.not_overflowsAmong_nil)
  | cons entry rest ih =>
      have hedit := changes.ends_edit entry.2
      simp only [editAll]
      cases hresult : (changes.edit entry.2).2 with
      | ok done =>
          -- The document was edited, so it did not overflow.
          rw [hresult] at hedit
          have hnot : ¬ changes.OverflowsOn entry.2 := fun h => by cases hedit.2 h
          refine (ih _).congr ?_
          rw [Update.overflowsAmong_cons, or_iff_right hnot]
          exact (and_iff_right hresult).symm
      | error failure =>
          rw [hresult] at hedit
          refine hedit.failed.congr ?_
          rw [Update.overflowsAmong_cons]
          simp [hresult]

/-- Each update of a document succeeds or is refused by the backend, unless it comes to an
increment that overflows, and then it breaks off. So does an update of a collection, be it
of the first document that a filter selects or of all of them: it breaks off just when it
comes to a document that does. None does as long as the words with a sign that are stored
or set leave room for all increments of the update. -/
theorem ends_update (collection : String) (docs : Documents) (many : Bool) (filter : Filter)
    (changes : Update) :
    (∀ doc, EndsUnless (changes.OverflowsOn doc) (changes.edit doc).2) ∧
    EndsUnless (changes.OverflowsAmong (limited many (docs.matching filter)))
      (docs.apply collection (updating many filter changes)).2 ∧
    ∀ bound : Nat,
      (∀ (key : String) (fields : Fields) (name : String) (i : Int),
        docs[key]? = some (.obj fields) → Fields.word? fields name = some i → i.natAbs ≤ bound) →
      (∀ name v i, Change.set name v ∈ changes → v.toInt64? = some i → i.natAbs ≤ bound) →
      bound + changes.reach < 2 ^ 63 →
      ¬ changes.OverflowsAmong (limited many (docs.matching filter)) := by
  refine ⟨changes.ends_edit, ?_, ?_⟩
  · rw [apply_updating_eq]
    exact (docs.ends_editAll changes (limited many (docs.matching filter))).map _
  · rintro bound hstored hset hroom ⟨earlier, entry, later, hsplit, -, fields, hdoc, hover⟩
    -- What is selected is stored.
    have hmatching : entry ∈ docs.matching filter :=
      (limited_sublist many _).subset (hsplit ▸ List.mem_append_right _ List.mem_cons_self)
    have hthere : docs[entry.1]? = some entry.2 := (mem_matching_iff.mp hmatching).1
    rw [hdoc] at hthere
    exact Update.not_overflows_of_le (fun name i hi => hstored entry.1 fields name i hthere hi)
      hset hroom hover

/-- A shop that has some of one thing. -/
def fewLeft : Documents :=
  (∅ : Documents).insert "a" (.obj [("_id", .str "a"), ("left", .int 3)])

/-- One delivery of it and one sale. Each of them alone may be too much where both are
not. -/
def restock : Update := [.inc "left" 5, .inc "left" (-9)]

/-- Both increments of it are made, for there is room for them. -/
theorem ends_update_fewLeft :
    let made := (fewLeft.apply "stock" (updating true .all restock)).2
    ¬ restock.OverflowsAmong (limited true (fewLeft.matching .all)) ∧
    ((∃ outcome, made = .ok outcome) ∨ ∃ m, made = .error (.error (.backend m))) := by
  intro made
  obtain ⟨-, hends, hroom⟩ := ends_update "stock" fewLeft true .all restock
  have hnot : ¬ restock.OverflowsAmong (limited true (fewLeft.matching .all)) := by
    refine hroom 3 ?_ (by simp [restock]) (by decide)
    intro key fields name i hdoc hi
    rw [fewLeft, getElem?_insert_eq, Std.ExtTreeMap.getElem?_empty] at hdoc
    split at hdoc
    · cases hdoc
      simp only [Fields.word?, Fields.get?, List.lookup_cons, List.lookup_nil] at hi
      split at hi
      · cases hi
      · split at hi
        · cases hi
          decide
        · cases hi
    · cases hdoc
  exact ⟨hnot, hends.1 hnot⟩

/-- A shop that has as many of one thing as can be counted. -/
def stuffed : Documents :=
  (∅ : Documents).insert "a" (.obj [("_id", .str "a"), ("left", .int (2 ^ 63 - 1))])

/-- One more of it breaks the update off, and two changes together may do so as well. -/
theorem not_always_ends :
    let full := (stuffed.apply "stock" (.updateOne .all [.inc "left" 1])).2
    let added := (stuffed.apply "stock" (.updateMany .all
      [.set "left" (.int (-2)), .inc "left" (-2 ^ 63 + 2), .inc "left" (-1)])).2
    full = .error (.crash .sumOverflow) ∧ added = .error (.crash .sumOverflow) ∧
    ¬ ((∃ outcome, full = .ok outcome) ∨ ∃ m, full = .error (.error (.backend m))) := by
  intro full added
  have hfull : full = .error (.crash .sumOverflow) := rfl
  refine ⟨hfull, rfl, ?_⟩
  rw [hfull]
  rintro (⟨outcome, h⟩ | ⟨m, h⟩) <;> cases h

end Documents

end StoreBench
