import StoreBench.Proofs.Document.Keys
import StoreBench.Proofs.Json.Writing

/-!
# `StoreBench.Proofs.Document.Grouping`: sums over groups of documents

Documents are put into groups by the label of a field. There is one row for each label,
in the order of the labels, with the value that was found first and the sum over all
documents of that label (`groupSum_eq`).

A label stands for a value as far as different values have different labels. The written
forms of values are different (`Json.write_injective`), and so are strings, which are
their own labels. What is left is that a string may be the written form of another value
(`Json.Disguises`), as `"1"` is that of `1` and `"null"` that of a field that is missing.
Such documents come into one group (`not_always_groups_by_value`); without them, groups
are those of the values (`groups_by_value`).
-/

set_option autoImplicit false

namespace StoreBench

/-! ### Labels -/

namespace Json

/-- A string that is the written form of a value which is no string. -/
def Disguises (a b : Json) : Prop := ∃ s, a = .str s ∧ (∀ t, b ≠ .str t) ∧ s = b.render

/-- Anything but a string goes by its written form. -/
theorem label_eq_render {a : Json} (h : ∀ s, a ≠ .str s) : a.label = a.render := by
  cases a with
  | str s => exact absurd rfl (h s)
  | null | bool _ | int _ | float _ | arr _ | obj _ => rfl

/-- The written form tells values apart, as long as no number in them is a NaN or
infinite. -/
theorem render_injective {a b : Json} (ha : a.proper = true) (hb : b.proper = true)
    (h : a.render = b.render) : a = b := write_injective ha hb (String.ofList_injective h)

/-- Two values have one label just when they are the same, or one is a string in the
other's form. -/
theorem label_eq_iff {a b : Json} (ha : a.proper = true) (hb : b.proper = true) :
    a.label = b.label ↔ a = b ∨ a.Disguises b ∨ b.Disguises a := by
  constructor
  · intro h
    -- Strings go by themselves, and everything else by its written form.
    by_cases hstr : ∃ s, a = .str s
    · obtain ⟨s, rfl⟩ := hstr
      by_cases hstr' : ∃ t, b = .str t
      · obtain ⟨t, rfl⟩ := hstr'
        exact .inl (congrArg Json.str h)
      · rw [not_exists] at hstr'
        rw [label_eq_render hstr'] at h
        exact .inr (.inl ⟨s, rfl, hstr', h⟩)
    · rw [not_exists] at hstr
      rw [label_eq_render hstr] at h
      by_cases hstr' : ∃ t, b = .str t
      · obtain ⟨t, rfl⟩ := hstr'
        exact .inr (.inr ⟨t, rfl, hstr, h.symm⟩)
      · rw [not_exists] at hstr'
        rw [label_eq_render hstr'] at h
        exact .inl (render_injective ha hb h)
  · rintro (rfl | ⟨s, rfl, hb, hs⟩ | ⟨s, rfl, ha, hs⟩)
    · rfl
    · rw [label_eq_render hb, ← hs]
      rfl
    · rw [label_eq_render ha, ← hs]
      rfl

mutual

/-- A value is equal to itself: no number in it is a NaN. -/
theorem same_refl (a : Json) (ha : a.proper = true) : a.same a = true := by
  match a with
  | .null => rfl
  | .bool _ | .int _ | .str _ => exact beq_self_eq_true _
  | .float x =>
      have hexponent : x.exponentField ≠ 2047 := Nat.ne_of_lt (of_decide_eq_true ha)
      simp [same, Double.same, Double.isNaN, hexponent]
  | .arr items => exact sameItems_refl items ha
  | .obj fields => exact sameFields_refl fields ha

/-- A list is equal to itself item by item, as no number in it is a NaN. -/
theorem sameItems_refl (items : List Json) (h : properItems items = true) :
    sameItems items items = true := by
  match items with
  | [] => rfl
  | a :: rest =>
      rw [properItems, Bool.and_eq_true] at h
      rw [sameItems, same_refl a h.1, sameItems_refl rest h.2, Bool.and_self]

/-- Fields are equal to themselves, each name to its own and each value to its own. -/
theorem sameFields_refl (fields : List (String × Json)) (h : properFields fields = true) :
    sameFields fields fields = true := by
  match fields with
  | [] => rfl
  | (k, a) :: rest =>
      rw [properFields, Bool.and_eq_true] at h
      rw [sameFields, same_refl a h.1, sameFields_refl rest h.2, beq_self_eq_true, Bool.and_self,
        Bool.and_self]

end

end Json

namespace Documents

variable {docs : Documents} {filter : Filter} {groupBy sumField label : String}

/-! ### Groups -/

/-- The value that a document is grouped by: a field that is missing counts as null. -/
def groupValue (groupBy : String) (entry : String × Json) : Json :=
  (entry.2.lookup groupBy).getD .null

/-- What a document adds to the sum: an amount that is missing counts as nothing. -/
def amount (sumField : String) (entry : String × Json) : Double :=
  ((entry.2.lookup sumField).bind Json.toDouble?).getD .zero

/-- The sum over documents, in their order. The order matters, as binary64 sums are
rounded one by one. -/
def total (sumField : String) (entries : List (String × Json)) : Double :=
  entries.foldl (fun sum entry => sum.add (amount sumField entry)) .zero

/-- The documents that have a label, in the order in which they are found. -/
def labelled (groupBy label : String) (entries : List (String × Json)) : List (String × Json) :=
  entries.filter fun entry => (groupValue groupBy entry).label = label

/-- A document goes to the group of its label, which it begins if nobody has, and leaves
the other groups alone. -/
theorem getElem?_addToGroup (groups : Std.ExtTreeMap String Group) (entry : String × Json) :
    (addToGroup groupBy sumField groups entry)[label]? =
      if (groupValue groupBy entry).label = label then
        let group : Group := (groups[label]?).getD ⟨groupValue groupBy entry, .zero⟩
        some { group with total := group.total.add (amount sumField entry) }
      else groups[label]? := by
  simp only [addToGroup, Std.ExtTreeMap.getElem?_insert, Std.compare_eq_iff_eq]
  change (if (groupValue groupBy entry).label = label then _ else _) = _
  split
  · rename_i hlabel
    rw [← hlabel]
    rfl
  · rfl

/-- A group has the value of its first document and the sum over all of them. -/
theorem getElem?_groups (groupBy sumField label : String) (entries : List (String × Json)) :
    (entries.foldl (addToGroup groupBy sumField) ∅)[label]?
      = (labelled groupBy label entries).head?.map fun first =>
        ⟨groupValue groupBy first, total sumField (labelled groupBy label entries)⟩ := by
  induction entries using List.reverseRecOn with
  | nil => exact Std.ExtTreeMap.getElem?_empty
  | append_singleton entries entry ih =>
      have hlabelled : labelled groupBy label (entries ++ [entry]) = labelled groupBy label entries
          ++ if (groupValue groupBy entry).label = label then [entry] else [] := by
        simp only [labelled, List.filter_append, List.filter_cons, List.filter_nil,
          decide_eq_true_eq]
      rw [List.foldl_append, List.foldl_cons, List.foldl_nil, getElem?_addToGroup, ih, hlabelled]
      split
      · -- The document joins the group of its label, or it is the first one there.
        cases labelled groupBy label entries with
        | nil => rfl
        | cons first rest =>
            simp only [List.head?_cons, Option.map_some, Option.getD_some, List.cons_append, total,
              List.foldl_cons, List.foldl_append, List.foldl_nil]
      · rw [List.append_nil]

/-- The row of a value, with the sum over its documents. -/
def groupRow (sumField : String) (value : Json) (entries : List (String × Json)) : Row :=
  .ofPairs [("_id", Value.ofJson value), ("total", .float (total sumField entries))]

/-- The first document of every label, in the order of the labels. -/
def firsts (groupBy sumField : String) (entries : List (String × Json)) : List (String × Json) :=
  (entries.foldl (addToGroup groupBy sumField) ∅).toList.map fun entry =>
    (labelled groupBy entry.1 entries).head?.getD default

section Firsts

variable {entries : List (String × Json)} {first : String × Json}

/-- What is listed for a label: the group of all documents that have it, which has the
value of the first of them. -/
theorem mem_groups {group : Group}
    (h : (label, group) ∈ (entries.foldl (addToGroup groupBy sumField) ∅).toList) :
    let first := (labelled groupBy label entries).head?.getD default
    first ∈ entries ∧ (groupValue groupBy first).label = label ∧
      group = ⟨groupValue groupBy first, total sumField (labelled groupBy label entries)⟩ := by
  rw [Std.ExtTreeMap.mem_toList_iff_getElem?_eq_some, getElem?_groups, Option.map_eq_some_iff] at h
  obtain ⟨first, hhead, rfl⟩ := h
  have hmem := List.mem_of_mem_head? (Option.mem_def.mpr hhead)
  rw [labelled, List.mem_filter, decide_eq_true_iff] at hmem
  rw [hhead]
  exact ⟨hmem.1, hmem.2, rfl⟩

/-- The groups come in the order of their labels, each with the first document that had
it. -/
theorem firsts_ordered (groupBy sumField : String) (entries : List (String × Json)) :
    (firsts groupBy sumField entries).Pairwise fun a b =>
      compare (groupValue groupBy a).label (groupValue groupBy b).label = .lt := by
  refine List.pairwise_map.mpr (Std.ExtTreeMap.ordered_keys_toList.imp_of_mem ?_)
  intro a b ha hb hlt
  obtain ⟨-, hlabel, -⟩ := mem_groups ha
  obtain ⟨-, hlabel', -⟩ := mem_groups hb
  rw [hlabel, hlabel']
  exact hlt

/-- What begins a group is one of the documents. -/
theorem mem_of_mem_firsts (h : first ∈ firsts groupBy sumField entries) : first ∈ entries := by
  obtain ⟨entry, hentry, rfl⟩ := List.mem_map.mp h
  exact (mem_groups hentry).1

/-- Each document has the label of a first one. -/
theorem exists_mem_firsts (sumField : String) {entry : String × Json} (hentry : entry ∈ entries) :
    ∃ first ∈ firsts groupBy sumField entries,
      (groupValue groupBy entry).label = (groupValue groupBy first).label := by
  -- The group of its label is not empty.
  have hmem : entry ∈ labelled groupBy (groupValue groupBy entry).label entries :=
    List.mem_filter.mpr ⟨hentry, decide_eq_true rfl⟩
  obtain ⟨first, rest, hcons⟩ := List.exists_cons_of_ne_nil (List.ne_nil_of_mem hmem)
  have hgroup := getElem?_groups groupBy sumField (groupValue groupBy entry).label entries
  rw [hcons, List.head?_cons, Option.map_some,
    ← Std.ExtTreeMap.mem_toList_iff_getElem?_eq_some] at hgroup
  exact ⟨_, List.mem_map_of_mem hgroup, (mem_groups hgroup).2.1.symm⟩

end Firsts

/-- There is one row for each label of a document that matches, in the order of the
labels. It has the value of the first of them and the sum over all that have the
label. -/
theorem groupSum_eq (docs : Documents) (filter : Filter) (groupBy sumField : String) :
    docs.groupSum filter groupBy sumField
      = (firsts groupBy sumField (docs.matching filter)).map fun first =>
        groupRow sumField (groupValue groupBy first)
          (labelled groupBy (groupValue groupBy first).label (docs.matching filter)) := by
  rw [groupSum, firsts, List.map_map]
  refine List.map_congr_left fun entry hentry => ?_
  obtain ⟨-, hlabel, hgroup⟩ := mem_groups hentry
  rw [Function.comp_apply, hlabel, hgroup]
  rfl

/-! ### Groups of values -/

/-- The rows are one for each value of a document that matches, with the sum over those
that have this value. -/
def GroupsByValue (docs : Documents) (filter : Filter) (groupBy sumField : String) : Prop :=
  ∃ values : List Json,
    (values.Pairwise fun a b => a.same b = false) ∧
    (∀ value ∈ values, ∃ entry ∈ docs.matching filter, groupValue groupBy entry = value) ∧
    (∀ entry ∈ docs.matching filter, ∃ value ∈ values,
      (groupValue groupBy entry).same value = true) ∧
    docs.groupSum filter groupBy sumField = values.map fun value =>
      groupRow sumField value
        ((docs.matching filter).filter fun entry => (groupValue groupBy entry).same value)

/-- Documents are grouped by the values of the field, for every filter and whatever is
summed, as long as among these values no string is the written form of another, and
values that are equal are the same (`Json.eq_of_same`: unless there are zeros of both
signs). The numbers are such as documents can have. -/
theorem groups_by_value
    (hproper : ∀ entry ∈ docs.matching filter, (groupValue groupBy entry).proper = true)
    (hstrings : ∀ entry ∈ docs.matching filter, ∀ other ∈ docs.matching filter,
      ¬ (groupValue groupBy entry).Disguises (groupValue groupBy other))
    (hzeros : ∀ entry ∈ docs.matching filter, ∀ other ∈ docs.matching filter,
      (groupValue groupBy entry).same (groupValue groupBy other) = true →
      groupValue groupBy entry = groupValue groupBy other)
    (sumField : String) : GroupsByValue docs filter groupBy sumField := by
  have hmatch : ∀ first ∈ firsts groupBy sumField (docs.matching filter),
      first ∈ docs.matching filter := fun first hfirst => mem_of_mem_firsts hfirst
  -- So labels and values are the same thing.
  have hlabel : ∀ entry ∈ docs.matching filter, ∀ other ∈ docs.matching filter,
      (groupValue groupBy entry).label = (groupValue groupBy other).label ↔
        (groupValue groupBy entry).same (groupValue groupBy other) = true := by
    intro entry hentry other hother
    rw [Json.label_eq_iff (hproper entry hentry) (hproper other hother)]
    constructor
    · rintro (heq | hdisguise | hdisguise)
      · rw [heq]
        exact Json.same_refl _ (hproper other hother)
      · exact absurd hdisguise (hstrings entry hentry other hother)
      · exact absurd hdisguise (hstrings other hother entry hentry)
    · exact fun hsame => .inl (hzeros entry hentry other hother hsame)
  refine ⟨(firsts groupBy sumField (docs.matching filter)).map (groupValue groupBy),
    ?_, ?_, ?_, ?_⟩
  · refine List.pairwise_map.mpr ((firsts_ordered groupBy sumField _).imp_of_mem ?_)
    intro a b ha hb hlt
    refine Bool.eq_false_iff.mpr fun hsame => ?_
    rw [← hlabel a (hmatch a ha) b (hmatch b hb)] at hsame
    rw [hsame, Std.compare_eq_iff_eq.mpr rfl] at hlt
    cases hlt
  · intro value hvalue
    obtain ⟨first, hfirst, rfl⟩ := List.mem_map.mp hvalue
    exact ⟨first, hmatch first hfirst, rfl⟩
  · intro entry hentry
    obtain ⟨first, hfirst, hsame⟩ := exists_mem_firsts sumField hentry
    exact ⟨_, List.mem_map_of_mem hfirst,
      (hlabel entry hentry first (hmatch first hfirst)).mp hsame⟩
  · rw [groupSum_eq, List.map_map]
    refine List.map_congr_left fun first hfirst => congrArg (groupRow sumField _) ?_
    refine List.filter_congr fun entry hentry => ?_
    rw [Bool.eq_iff_iff, decide_eq_true_iff]
    exact hlabel entry hentry first (hmatch first hfirst)

/-- Documents that are grouped by a string, by a number, and by nothing. -/
def tickets : Documents :=
  (((∅ : Documents).insert "a" (.obj [("_id", .str "a"), ("kind", .str "x"), ("n", .int 1)])).insert
    "b" (.obj [("_id", .str "b"), ("kind", .int 1), ("n", .int 2)])).insert
    "c" (.obj [("_id", .str "c"), ("n", .int 4)])

/-- Three tickets of three kinds, one of them of none. -/
theorem groups_by_value_tickets :
    ((∀ entry ∈ tickets.matching .all, (groupValue "kind" entry).proper = true) ∧
      (∀ entry ∈ tickets.matching .all, ∀ other ∈ tickets.matching .all,
        ¬ (groupValue "kind" entry).Disguises (groupValue "kind" other)) ∧
      ∀ entry ∈ tickets.matching .all, ∀ other ∈ tickets.matching .all,
        (groupValue "kind" entry).same (groupValue "kind" other) = true →
        groupValue "kind" entry = groupValue "kind" other) ∧
    (tickets.groupSum .all "kind" "n").length = 3 ∧
    GroupsByValue tickets .all "kind" "n" := by
  -- The tickets are grouped by a string, a number and nothing.
  have hvalues : ∀ entry ∈ tickets.matching .all, groupValue "kind" entry = .str "x" ∨
      groupValue "kind" entry = .int 1 ∨ groupValue "kind" entry = .null := by
    have hlist : tickets.matching .all
        = [("a", .obj [("_id", .str "a"), ("kind", .str "x"), ("n", .int 1)]),
          ("b", .obj [("_id", .str "b"), ("kind", .int 1), ("n", .int 2)]),
          ("c", .obj [("_id", .str "c"), ("n", .int 4)])] := rfl
    rw [hlist]
    simp only [List.forall_mem_cons]
    exact ⟨.inl rfl, .inr (.inl rfl), .inr (.inr rfl), nofun⟩
  have hproper : ∀ entry ∈ tickets.matching .all, (groupValue "kind" entry).proper = true := by
    intro entry hentry
    rcases hvalues entry hentry with h | h | h <;> rw [h] <;> decide
  have hstrings : ∀ entry ∈ tickets.matching .all, ∀ other ∈ tickets.matching .all,
      ¬ (groupValue "kind" entry).Disguises (groupValue "kind" other) := by
    rintro entry hentry other hother ⟨s, hs, hother', hrender⟩
    rcases hvalues entry hentry with h | h | h <;> rw [h] at hs <;> cases hs
    rcases hvalues other hother with h' | h' | h'
    · exact hother' _ h'
    · rw [h'] at hrender
      exact absurd hrender (by decide)
    · rw [h'] at hrender
      exact absurd hrender (by decide)
  have hzeros : ∀ entry ∈ tickets.matching .all, ∀ other ∈ tickets.matching .all,
      (groupValue "kind" entry).same (groupValue "kind" other) = true →
      groupValue "kind" entry = groupValue "kind" other := by
    intro entry hentry other hother hsame
    refine Json.eq_of_same _ _ hsame ?_ ?_
    · rcases hvalues entry hentry with h | h | h <;> rw [h] <;> decide
    · rcases hvalues other hother with h | h | h <;> rw [h] <;> decide
  exact ⟨⟨hproper, hstrings, hzeros⟩, by decide +kernel,
    groups_by_value hproper hstrings hzeros "n"⟩

/-- Documents that are grouped by a number, and by a string that is the same digit. -/
def lookalikes : Documents :=
  ((∅ : Documents).insert "a" (.obj [("_id", .str "a"), ("kind", .str "1"), ("n", .int 1)])).insert
    "b" (.obj [("_id", .str "b"), ("kind", .int 1), ("n", .int 2)])

/-- They come into one group. A string in the written form of a number has the label of
the number. -/
theorem not_always_groups_by_value :
    ¬ ∀ (docs : Documents) (filter : Filter) (groupBy sumField : String),
      (∀ entry ∈ docs.matching filter, (groupValue groupBy entry).proper = true) →
      GroupsByValue docs filter groupBy sumField := by
  intro hall
  have hlist : lookalikes.matching .all
      = [("a", .obj [("_id", .str "a"), ("kind", .str "1"), ("n", .int 1)]),
        ("b", .obj [("_id", .str "b"), ("kind", .int 1), ("n", .int 2)])] := rfl
  obtain ⟨values, -, -, hvalues, hrows⟩ := hall lookalikes .all "kind" "n" (by
    rw [hlist]
    decide)
  have hone : values.length = 1 := by
    have hlength := congrArg List.length hrows
    rw [List.length_map] at hlength
    exact hlength.symm.trans (by decide +kernel)
  obtain ⟨value, rfl⟩ := List.length_eq_one_iff.mp hone
  rw [hlist, List.forall_mem_cons, List.forall_mem_cons] at hvalues
  obtain ⟨⟨v, hv, hstring⟩, ⟨w, hw, hnumber⟩, -⟩ := hvalues
  rw [List.mem_singleton.mp hv] at hstring
  rw [List.mem_singleton.mp hw] at hnumber
  -- No value is equal to both.
  cases value <;> first | cases hstring | cases hnumber

end Documents

end StoreBench
