import StoreBench.Proofs.Text.Pieces
import StoreBench.Settings.Tree

/-!
# `StoreBench.Proofs.Settings.Merging`: what is at a place after merging

The trees of a source are taken apart into items, each a value with its path
(`Tree.items`). Merging a source puts the last of its items for a path there, and leaves
what was there where it has none (`Tree.find?_merge`). That holds for a path which no other
item of the source gets in the way of (`Tree.Apart`): an item above it would take the place
of the table that it is in, and an item below it would make a table of it.

A table without entries sets nothing, but makes a table where there was nothing. It is an
item of its own, so that it can be told where it may stand.
-/

set_option autoImplicit false

namespace StoreBench

/-- The last of several items that has a key. What is merged later counts, so this is
what a list of settings says about a place. -/
def last? {κ α : Type} [DecidableEq κ] (key : κ) : List (κ × α) → Option α
  | [] => none
  | (other, a) :: rest => (last? key rest).or (if other = key then some a else none)

section Last

variable {κ α β : Type} [DecidableEq κ] {key : κ} {items others : List (κ × α)}

/-- Items that come later go before those that come earlier. -/
theorem last?_append :
    last? key (items ++ others) = (last? key others).or (last? key items) := by
  induction items with
  | nil => exact (Option.or_none).symm
  | cons item rest ih => rw [List.cons_append, last?, ih, last?, Option.or_assoc]

/-- Where no item has the key there is none to be the last. -/
theorem last?_eq_none (h : ∀ item ∈ items, item.1 ≠ key) : last? key items = none := by
  induction items with
  | nil => rfl
  | cons item rest ih =>
      obtain ⟨hitem, hrest⟩ := List.forall_mem_cons.mp h
      rw [last?, ih hrest, if_neg hitem]
      rfl

/-- Changing the values of items and not their keys changes what is found in the same
way. -/
theorem last?_map (f : α → β) :
    last? key (items.map fun item => (item.1, f item.2)) = (last? key items).map f := by
  induction items with
  | nil => rfl
  | cons item rest ih =>
      rw [List.map_cons, last?, ih, last?, Option.map_or]
      split <;> rfl

/-- What is found is one of the items. -/
theorem mem_of_last? {a : α} (h : last? key items = some a) : (key, a) ∈ items := by
  induction items with
  | nil => cases h
  | cons item rest ih =>
      obtain ⟨other, b⟩ := item
      rw [last?, Option.or_eq_some_iff] at h
      rcases h with h | ⟨-, h⟩
      · exact List.mem_cons_of_mem _ (ih h)
      · split at h
        · next heq =>
            cases h
            rw [heq]
            exact List.mem_cons_self
        · cases h

/-- Items that are moved under a name are found under the path with that name in front,
just as they were before. -/
theorem last?_under (name : String) {path : List String} {items : List (List String × α)} :
    last? (name :: path) (items.map fun item => (name :: item.1, item.2)) = last? path items := by
  induction items with
  | nil => rfl
  | cons item rest ih => simp only [List.map_cons, last?, ih, List.cons.injEq, true_and]

end Last

namespace Tree

/-! ### Places -/

/-- The tree at a path, if there is one. The empty path leads to the tree itself. -/
def find? : List String → Tree → Option Tree
  | [], t => some t
  | name :: rest, t => (t.entries.lookup name).bind (find? rest)

/-! ### Entries -/

/-- What is put under a name is found there, whether the name was new or not. -/
theorem lookup_put_self (entries : List (String × Tree)) (name : String) (t : Tree) :
    (put entries name t).lookup name = some t := by
  induction entries with
  | nil => simp [put]
  | cons entry rest ih =>
      obtain ⟨other, held⟩ := entry
      rw [put]
      split
      · simp
      · next h => rw [List.lookup_cons, beq_eq_false_iff_ne.mpr (Ne.symm h)]; exact ih

/-- Nothing changes under another name. -/
theorem lookup_put_of_ne {entries : List (String × Tree)} {name other : String} (t : Tree)
    (h : other ≠ name) : (put entries name t).lookup other = entries.lookup other := by
  induction entries with
  | nil => rw [put, List.lookup_cons, beq_eq_false_iff_ne.mpr h]
  | cons entry rest ih =>
      obtain ⟨first, held⟩ := entry
      rw [put]
      split
      · next heq =>
          subst heq
          rw [List.lookup_cons, List.lookup_cons, beq_eq_false_iff_ne.mpr h]
      · rw [List.lookup_cons, List.lookup_cons, ih]

/-! ### Items -/

/-- Whether a tree is a table. Everything else is a value, which merging puts into the
place of whatever was there. -/
def isTable : Tree → Bool
  | .table _ _ => true
  | .leaf _ _ | .list _ _ => false

mutual

/-- The values of a tree with their paths. A table without entries counts as one, since
merging it makes a table where there was something else. -/
def items : Tree → List (List String × Tree)
  | .table origin entries => if entries.isEmpty then [([], .table origin [])] else itemsOf entries
  | .leaf origin value => [([], .leaf origin value)]
  | .list origin trees => [([], .list origin trees)]

/-- The items of entries, each under its name. -/
def itemsOf : List (String × Tree) → List (List String × Tree)
  | [] => []
  | (name, t) :: rest => (items t).map (fun item => (name :: item.1, item.2)) ++ itemsOf rest

end

/-- An item does not get in the way of a path: it is the value there, or a table without
entries above, or neither of the two leads to the other. -/
def Apart (path : List String) (item : List String × Tree) : Prop :=
  item.1 = path ∧ item.2.isTable = false
    ∨ item.1 <+: path ∧ item.1 ≠ path ∧ item.2.isTable = true
    ∨ ¬item.1 <+: path ∧ ¬path <+: item.1

section Apart

variable {path : List String} {name : String} {item : List String × Tree}

/-- An item is apart from a path if it is below the same name and apart from there on. -/
theorem apart_cons : Apart (name :: path) (name :: item.1, item.2) ↔ Apart path item := by
  simp only [Apart, List.cons.injEq, true_and, List.cons_prefix_cons, ne_eq]

/-- At the top, only a value is apart: a table there would be merged into what is there. -/
theorem apart_nil : Apart [] item ↔ item.1 = [] ∧ item.2.isTable = false := by
  simp only [Apart, List.prefix_nil, List.nil_prefix, not_true, and_false, or_false]
  exact or_iff_left fun h => h.2.1 h.1

/-- A value is in the way everywhere but at its own place, because nothing can be below
a value. -/
theorem eq_nil_of_apart {t : Tree} (hvalue : t.isTable = false) (h : Apart path ([], t)) :
    path = [] := by
  rcases h with ⟨hpath, -⟩ | ⟨-, -, htable⟩ | ⟨hfront, -⟩
  · exact hpath.symm
  · rw [hvalue] at htable; cases htable
  · exact absurd List.nil_prefix hfront

/-- A value is its own only item. -/
theorem items_value {t : Tree} (ht : t.isTable = false) : items t = [([], t)] := by
  cases t with
  | leaf origin value => rfl
  | list origin trees => rfl
  | table origin entries => cases ht

/-- Every tree has an item, since a table without entries is one itself. Nothing is
merged without a trace. -/
theorem items_ne_nil (t : Tree) : items t ≠ [] := by
  cases t with
  | leaf origin value => exact List.cons_ne_nil _ _
  | list origin trees => exact List.cons_ne_nil _ _
  | table origin entries =>
      rw [items]
      cases entries with
      | nil => exact List.cons_ne_nil _ _
      | cons entry rest =>
          have hfirst := items_ne_nil entry.2
          simpa [itemsOf] using fun h => absurd h hfirst

end Apart

/-! ### Merging -/

/-- What a tree and one that is merged into it make: a table adds its entries, and a
value takes the place of all that was there. -/
def overlay (target : Tree) : Tree → Tree
  | .table _ entries => target.setAll entries
  | t => t

/-- Setting a name merges the tree into the entry that was there, or into an empty
table. -/
theorem set_eq (root : Tree) (name : String) (t : Tree) : root.set name t
    = .table none (put root.entries name (overlay ((root.entries.lookup name).getD empty) t)) := by
  cases t <;> simp [set, overlay]

/-- What merging a tree does at a path: the last of its items for the path is there, or
else what was there before. This is proved for all trees by recursion on them. -/
def Merges (t : Tree) : Prop :=
  ∀ (target : Tree) (path : List String), (∀ item ∈ items t, Apart path item) →
    (overlay target t).find? path = (last? path (items t)).or (target.find? path)

/-- A value does so, since it takes the place of everything at its path. -/
theorem merges_value {t : Tree} (hvalue : t.isTable = false) (hitems : items t = [([], t)])
    (hoverlay : ∀ target, overlay target t = t) : Merges t := by
  intro target path h
  rw [hitems] at h ⊢
  rw [hoverlay, eq_nil_of_apart hvalue (h _ List.mem_cons_self)]
  rfl

/-- An entry is replaced by what items make of it. The step from a tree to the entry
that holds it, for values and tables alike. -/
theorem find?_put {root merged : Tree} {name : String} {path : List String}
    {items : List (List String × Tree)} (hne : items ≠ [])
    (h : ∀ item ∈ items, Apart path (name :: item.1, item.2))
    (hmerged : ∀ rest, (∀ item ∈ items, Apart rest item) → merged.find? rest
      = (last? rest items).or (((root.entries.lookup name).getD empty).find? rest)) :
    (Tree.table none (put root.entries name merged)).find? path
      = (last? path (items.map fun item => (name :: item.1, item.2))).or (root.find? path) := by
  cases path with
  | nil =>
      obtain ⟨item, hitem⟩ := List.exists_mem_of_ne_nil _ hne
      cases (apart_nil.mp (h item hitem)).1
  | cons other rest =>
      by_cases heq : other = name
      · subst heq
        have hapart : ∀ item ∈ items, Apart rest item := fun item hitem =>
          apart_cons.mp (h item hitem)
        rw [find?, entries, lookup_put_self, Option.bind_some, hmerged rest hapart, last?_under,
          find?]
        cases root.entries.lookup other with
        | some held => rfl
        | none =>
            -- What is missing is merged into as a table, which is not there at its own place.
            cases rest with
            | cons name rest => rfl
            | nil =>
                obtain ⟨item, others, rfl⟩ := List.exists_cons_of_ne_nil hne
                have hitem := (apart_nil.mp (hapart item List.mem_cons_self)).1
                rw [last?, if_pos hitem]
                cases last? [] others <;> rfl
      · rw [find?, entries, lookup_put_of_ne _ heq, last?_eq_none]
        · rfl
        · intro item hitem
          obtain ⟨_, _, rfl⟩ := List.mem_map.mp hitem
          exact fun hpath => heq (List.cons.inj hpath).1.symm

/-- Merging a tree into an entry does so, if merging it at all does. -/
theorem find?_set {t : Tree} (ht : Merges t) (root : Tree) {name : String} {path : List String}
    (h : ∀ item ∈ items t, Apart path (name :: item.1, item.2)) :
    (root.set name t).find? path
      = (last? path ((items t).map fun item => (name :: item.1, item.2))).or (root.find? path) := by
  rw [set_eq]
  exact find?_put (items_ne_nil t) h (ht _)

mutual

/-- A tree that is merged brings its items, one that is in no other's way. -/
theorem merges (t : Tree) : Merges t := by
  match t with
  | .leaf origin value => exact merges_value rfl rfl fun _ => rfl
  | .list origin trees => exact merges_value rfl rfl fun _ => rfl
  | .table origin entries =>
    intro target path h
    cases entries with
    | nil =>
      have hne : [] ≠ path := by
        rintro rfl
        exact Bool.noConfusion (apart_nil.mp (h _ List.mem_cons_self)).2
      show target.find? path = (none.or (if [] = path then _ else none)).or _
      rw [if_neg hne]
      rfl
    | cons entry rest => exact find?_setAll (entry :: rest) target path h

/-- Merging entries one after the other finds the last of all their items. -/
theorem find?_setAll (entries : List (String × Tree)) (root : Tree) (path : List String)
    (h : ∀ item ∈ itemsOf entries, Apart path item) :
    (root.setAll entries).find? path = (last? path (itemsOf entries)).or (root.find? path) := by
  match entries with
  | [] => rfl
  | (name, t) :: rest =>
    rw [itemsOf, List.forall_mem_append, List.forall_mem_map] at h
    rw [setAll, find?_setAll rest _ path h.2, find?_set (merges t) root h.1, itemsOf, last?_append,
      Option.or_assoc]

end

/-! ### Merging sources -/

/-- Items that are moved to a path, as a source may name a place far down in the tree. -/
def placed (place : List String) (items : List (List String × Tree)) : List (List String × Tree) :=
  items.map fun item => (place ++ item.1, item.2)

/-- Moving to a longer path is moving to the rest of it, and then under its first name. -/
theorem placed_cons (name : String) (place : List String) (items : List (List String × Tree)) :
    placed (name :: place) items
      = (placed place items).map fun item => (name :: item.1, item.2) := by
  simp only [placed, List.map_map]
  rfl

/-- Merging a tree into the entry at a path, by recursion on this path: a table is made
at each name of it that was none. -/
theorem find?_setAt (t root : Tree) {place path : List String} (hplace : place ≠ [])
    (h : ∀ item ∈ placed place (items t), Apart path item) :
    (root.setAt place t).find? path
      = (last? path (placed place (items t))).or (root.find? path) := by
  induction place generalizing root path with
  | nil => exact absurd rfl hplace
  | cons name rest ih =>
      cases rest with
      | nil => exact find?_set (merges t) root fun item hitem => h _ (List.mem_map_of_mem hitem)
      | cons second rest =>
          rw [placed_cons name, List.forall_mem_map] at h
          rw [placed_cons name]
          exact find?_put (mt List.map_eq_nil_iff.mp (items_ne_nil t)) h fun path hpath =>
            ih _ (List.cons_ne_nil _ _) hpath

/-- A key has at least one name, so nothing is merged at the top itself. -/
theorem pathOf_ne_nil (key : String) : pathOf key ≠ [] := by
  rw [pathOf]
  split
  · obtain ⟨piece, rest, hpieces, -⟩ := Text.exists_pieces '.' key.toList
    rw [hpieces]
    exact List.cons_ne_nil _ _
  · exact List.cons_ne_nil _ _

/-- The items of a source, whose keys may be paths. These are what the layers of
settings are compared by. -/
def sourceItems (source : List (String × Tree)) : List (List String × Tree) :=
  source.flatMap fun entry => placed (pathOf entry.1) (items entry.2)

/-- Merging a source puts its last item for a path there, and changes nothing if it has
none. -/
theorem find?_merge (root : Tree) {source : List (String × Tree)} {path : List String}
    (h : ∀ item ∈ sourceItems source, Apart path item) :
    (root.merge source).find? path = (last? path (sourceItems source)).or (root.find? path) := by
  induction source generalizing root with
  | nil => rfl
  | cons entry rest ih =>
      rw [sourceItems, List.flatMap_cons, List.forall_mem_append] at h
      rw [merge, List.foldl_cons]
      refine (ih _ h.2).trans ?_
      rw [find?_setAt _ _ (pathOf_ne_nil entry.1) h.1, sourceItems, sourceItems, List.flatMap_cons,
        last?_append, Option.or_assoc]

end Tree

end StoreBench
