import StoreBench.Proofs.Document.Conditions
import StoreBench.Proofs.Document.Grouping
import StoreBench.Proofs.Text.Pieces

/-!
# `StoreBench.Proofs.Document.Paths`: names of updates and paths of conditions

A change addresses a field of a document by its name, and a condition by a path, which is
cut at its dots. A name without dots is a path of one name (`pathNames_of_not_mem`), so a
condition finds there what a change has set. A name with a dot is a path that begins with
another name (`exists_pathNames`), and what is set under the name as a whole is not on that
path (`lookup_insert_of_mem`).

Whatever is set, a field is equal to it: the rules for lists, for null and for numbers do
not get in the way (`holds_eq_self`). So what an update sets last is found by the condition
that the field is equal to it, just when its name has no dot or the condition was met
before already (`reads_own_write`). With a dot in the name it may be lost
(`not_always_reads_own_write`).
-/

set_option autoImplicit false

namespace StoreBench

/-! ### Paths -/

section Names

variable {name : String}

/-- A name without a dot in it is a path of itself. -/
theorem pathNames_of_not_mem (h : '.' ∉ name.toList) : pathNames name = [name] := by
  rw [pathNames, Text.pieces_of_not_mem h, List.map_singleton, String.ofList_toList]

/-- A path with a dot in it begins with another name. -/
theorem exists_pathNames (h : '.' ∈ name.toList) :
    ∃ first rest, pathNames name = first :: rest ∧ name ≠ first := by
  obtain ⟨piece, rest, hpieces, hpiece⟩ := Text.exists_pieces '.' name.toList
  refine ⟨String.ofList piece, rest.map String.ofList, ?_, ?_⟩
  · rw [pathNames, hpieces, List.map_cons]
  · intro hsame
    rw [hsame, String.toList_ofList] at h
    exact hpiece h

variable (fields : Fields) (v : Json)

/-- What is set under a name without dots is on that path. -/
theorem Json.lookup_insert_of_not_mem (h : '.' ∉ name.toList) :
    (Json.obj (Fields.insert fields name v)).lookup name = some v := by
  rw [lookup, pathNames_of_not_mem h]
  show (Fields.get? (Fields.insert fields name v) name).bind some = some v
  rw [Fields.get?_insert_self, Option.bind_some]

/-- What is set under a name with a dot is on no path of that name. -/
theorem Json.lookup_insert_of_mem (h : '.' ∈ name.toList) :
    (Json.obj (Fields.insert fields name v)).lookup name = (Json.obj fields).lookup name := by
  obtain ⟨first, rest, hnames, hne⟩ := exists_pathNames h
  rw [lookup, lookup, hnames]
  show (Fields.get? (Fields.insert fields name v) first).bind _
    = (Fields.get? fields first).bind _
  rw [Fields.get?_insert_of_ne hne]

end Names

/-! ### Equal to itself -/

/-- A number that is not a NaN is equal to itself. -/
theorem Double.compare?_self {x : Double} (h : x.isNaN = false) : x.compare? x = some .eq := by
  simp [compare?, lt, same, h]

/-- A value is equal to itself, for a filter too. -/
theorem Json.equals_self {v : Json} (hv : v.proper = true) : v.equals v = true := by
  cases v with
  | null => rfl
  | bool b => cases b <;> rfl
  | str s =>
      show (compare s s == .eq) = true
      rw [Std.compare_self]
      rfl
  | int i =>
      have hcompare : (Json.int i).compare? (.int i) = some .eq :=
        Double.compare?_self (Double.isNaN_nearest _ _ _)
      simp [equals, hcompare]
  | float x =>
      have hexponent : x.exponentField ≠ 2047 := Nat.ne_of_lt (of_decide_eq_true hv)
      have hcompare : (Json.float x).compare? (.float x) = some .eq :=
        Double.compare?_self (by simp [Double.isNaN, hexponent])
      simp [equals, hcompare]
  | arr items => exact same_refl (.arr items) hv
  | obj fields => exact same_refl (.obj fields) hv

/-- A field that holds a value is equal to it, also when it is a list. -/
theorem Predicate.holds_eq_self {v : Json} (hv : v.proper = true) :
    (Predicate.eq v).holds (some v) = true := by
  cases hlist : v.isList with
  | false => rw [holds_eq_some hlist, Json.equals_self hv]
  | true =>
      obtain ⟨items, rfl⟩ := Json.exists_of_isList hlist
      exact (holds_eq_arr items _).mpr (.inl ⟨rfl, Json.equals_self hv⟩)

/-! ### Reading what was written -/

/-- A field that is set last is set if the changes before it are made. -/
theorem Update.editFields_concat_set (update : Update) (fields : Fields) (name : String)
    (v : Json) :
    Update.editFields (update ++ [.set name v]) fields = match (update.editFields fields).2 with
      | .ok () => (Fields.insert (update.editFields fields).1 name v, .ok ())
      | .error failure => ((update.editFields fields).1, .error failure) := by
  induction update generalizing fields with
  | nil => rfl
  | cons change rest ih =>
      simp only [List.cons_append, editFields]
      cases change.apply fields with
      | ok next => exact ih next
      | error failure => rfl

/-- Take any update of an object whose last change sets a field. It succeeds just when the
changes before the last one do, and then the document meets the condition that this field
is equal to what was set if and only if the name of the field has no dot, or the document
met the condition before the last change. -/
theorem reads_own_write (update : Update) (fields : Fields) (name : String) {v : Json}
    (hv : v.proper = true) :
    let before := update.edit (.obj fields)
    let after := Update.edit (update ++ [.set name v]) (.obj fields)
    (after.2 = .ok () ↔ before.2 = .ok ()) ∧
    (after.2 = .ok () →
      (Filter.selects [(name, .eq v)] after.1 = true ↔
        '.' ∉ name.toList ∨ Filter.selects [(name, .eq v)] before.1 = true)) := by
  intro before after
  have hbefore : before = (.obj (update.editFields fields).1, (update.editFields fields).2) := rfl
  have hafter : after = (.obj (Update.editFields (update ++ [.set name v]) fields).1,
      (Update.editFields (update ++ [.set name v]) fields).2) := rfl
  rw [update.editFields_concat_set] at hafter
  clear_value before after
  subst hbefore hafter
  generalize update.editFields fields = made
  obtain ⟨fields, result⟩ := made
  cases result with
  | error failure => exact ⟨Iff.rfl, nofun⟩
  | ok done =>
      refine ⟨Iff.rfl, fun _ => ?_⟩
      show Filter.selects [(name, .eq v)] (.obj (Fields.insert fields name v)) = true ↔
        '.' ∉ name.toList ∨ Filter.selects [(name, .eq v)] (.obj fields) = true
      rw [Filter.selects_single, Filter.selects_single]
      by_cases hdot : '.' ∈ name.toList
      · -- Neither the path nor what is on it has anything to do with the name.
        rw [Json.lookup_insert_of_mem fields v hdot, or_iff_right (not_not_intro hdot)]
      · rw [Json.lookup_insert_of_not_mem fields v hdot]
        exact iff_of_true (Predicate.holds_eq_self hv) (.inl hdot)

/-- An update that counts, adds to a list, and sets a list last. -/
def relabel : Update :=
  [.inc "sold" 1, .push "tags" (.str "old"), .set "tags" (.arr [.float .zero])]

/-- What it sets is found, though it is a list. -/
theorem reads_own_write_relabel :
    Json.proper (.arr [.float .zero]) = true ∧
    (relabel.edit (.obj [("_id", .str "a"), ("sold", .int 4)])).2 = .ok () ∧
    Filter.selects [("tags", .eq (.arr [.float .zero]))]
      (relabel.edit (.obj [("_id", .str "a"), ("sold", .int 4)])).1 = true := by
  have hproper : Json.proper (.arr [.float .zero]) = true := by decide
  have hok : (relabel.edit (.obj [("_id", .str "a"), ("sold", .int 4)])).2 = .ok () := rfl
  have hwritten := reads_own_write [.inc "sold" 1, .push "tags" (.str "old")]
    [("_id", .str "a"), ("sold", .int 4)] "tags" hproper
  exact ⟨hproper, hok, (hwritten.2 hok).mpr (.inl (by decide))⟩

/-- A name with a dot is set, and the condition with this name does not find it: the path
leads nowhere, or to a field that is as it was. -/
theorem not_always_reads_own_write :
    let finds (fields : Fields) : Prop :=
      Filter.selects [("size.left", .eq (.int 2))]
        (Update.edit [.set "size.left" (.int 2)] (.obj fields)).1 = true
    (Update.edit [.set "size.left" (.int 2)] (.obj [("_id", .str "a")]))
      = (.obj [("_id", .str "a"), ("size.left", .int 2)], .ok ()) ∧
    ¬ finds [("_id", .str "a")] ∧
    ¬ finds [("_id", .str "a"), ("size", .obj [("left", .int 1)])] := by
  intro finds
  exact ⟨rfl, by decide, by decide⟩

end StoreBench
