import Mathlib.Data.List.Induction
import Mathlib.Data.List.Nodup
import Mathlib.Logic.Function.Basic
import StoreBench.Proofs.Sql.Select

/-!
# `StoreBench.Proofs.Sql.Grouping`: what a selection of groups finds

A selection that groups its rows goes through them one by one and puts each into the
group of its key. Here the key of a row is a single text. Then there is a group for
every text that is the key of some row, and only one, and it has all the rows with
this key (`Database.foldl_addToGroups`).

`Database.select_grouped` takes this through the whole selection: a result for each
key whose group meets the condition on groups. The conditions that a selection puts
on groups are about aggregates, of which `Expr.eval_count` has the number of rows.
-/

set_option autoImplicit false

namespace StoreBench.Sql

/-! ### Counting the rows of a group -/

namespace Expr

variable {row : List Bound} {e a b : Expr} {env : Env}

/-- A count may be used where the rows are grouped, if what it counts can be evaluated. -/
theorem check_count (h : e.check row false = .ok ()) :
    (call "count" [e]).check row true = .ok () := by
  rw [check, if_pos (by decide), if_pos rfl]
  exact checkAll_ok (List.forall_mem_singleton.mpr h)

/-- Counting a column counts the rows, as far as it is not null in them. -/
theorem eval_count {α : Type} {items : List α} {row : α → List Bound} {cell : α → Cell}
    (hgroup : env.group = items.map row)
    (he : ∀ a ∈ items, e.eval ⟨env.params, row a, []⟩ = .ok (cell a))
    (hnull : ∀ a ∈ items, (cell a).isNull = false) :
    (call "count" [e]).eval env = .ok (.int items.length) := by
  have hcells : evalColumn env.params env.group [e] = .ok (items.map cell) := by
    rw [evalColumn, hgroup]
    exact mapM_map_ok items he
  have hall : ((items.map cell).filter fun c => !c.isNull) = items.map cell := by
    refine List.filter_eq_self.mpr (List.forall_mem_map.mpr fun a ha => ?_)
    rw [hnull a ha]
    rfl
  rw [eval, if_pos (by rfl), hcells]
  show Except.ok (Cell.int ((items.map cell).filter fun c => !c.isNull).length) = _
  rw [hall, List.length_map]

/-- Two integers that are no columns are compared as they are. -/
theorem holds_greater_int {i j : Int} (ha : a.eval env = .ok (.int i))
    (hb : b.eval env = .ok (.int j)) (hleft : a.affinity env.row = .none)
    (hright : b.affinity env.row = .none) :
    holds env (some (.binary .greater a b)) = .ok (decide (j < i)) := by
  have hafter : (compare i j == .gt) = decide (j < i) := by
    rw [Bool.eq_iff_iff, beq_iff_eq, decide_eq_true_iff, compare_gt_iff_gt]
  simp only [holds, eval, ha, hb, hleft, hright, bind, Except.bind, Operator.isComparison, if_true]
  show Except.ok (Cell.ofBool (compare i j == .gt)).isTrue = _
  rw [hafter]
  cases decide (j < i) <;> rfl

end Expr

/-! ### Putting rows into groups -/

namespace Database

variable {α : Type} {key : α → String} {row : α → List Bound} {items : List α}

/-- A row is put behind the others of its key, or becomes the first of a new group. -/
theorem addToGroups_text {keys : List String} (hnodup : keys.Nodup)
    {members : String → List (List Bound)} {k : String} (hnone : k ∉ keys → members k = [])
    (r : List Bound) :
    addToGroups [.text k] r (keys.map fun k => ([.text k], members k))
      = (if k ∈ keys then keys else keys ++ [k]).map fun other =>
          ([.text other], Function.update members k (members k ++ [r]) other) := by
  induction keys with
  | nil =>
      rw [if_neg List.not_mem_nil, List.map_nil, addToGroups, List.nil_append, List.map_singleton,
        Function.update_self, hnone List.not_mem_nil]
      rfl
  | cons first rest ih =>
      obtain ⟨hfirst, hrest⟩ := List.nodup_cons.mp hnodup
      have htest : ((([.text first] : List Cell).zip [.text k]).all fun p => p.1.order p.2 == .eq)
          = decide (first = k) := by
        rw [List.zip_cons_cons, List.zip_nil_left, List.all_cons, List.all_nil, Bool.and_true,
          Bool.eq_iff_iff, beq_iff_eq, decide_eq_true_iff]
        exact Std.compare_eq_iff_eq
      rw [List.map_cons, addToGroups, htest]
      by_cases hsame : first = k
      · subst hsame
        rw [decide_eq_true rfl, if_pos rfl, if_pos List.mem_cons_self, List.map_cons,
          Function.update_self]
        refine congrArg _ (List.map_congr_left fun other hother => ?_)
        -- No other group is the one of this key.
        rw [Function.update_of_ne (by rintro rfl; exact hfirst hother)]
      · have hmem : k ∈ first :: rest ↔ k ∈ rest := by
          rw [List.mem_cons, or_iff_right (Ne.symm hsame)]
        have hlater := ih hrest fun hnew => hnone (hmem.not.mpr hnew)
        simp only [decide_eq_false hsame, Bool.false_eq_true, if_false, hlater, hmem]
        split
        · rw [List.map_cons, Function.update_of_ne hsame]
        · rw [List.cons_append, List.map_cons, Function.update_of_ne hsame]

/-- The rows of one key, in the order of the items. -/
def members (key : α → String) (row : α → List Bound) (items : List α) (k : String) :
    List (List Bound) :=
  (items.filter fun a => key a = k).map row

/-- One item more joins the rows of its key, at their end. -/
theorem members_append (items : List α) (a : α) :
    members key row (items ++ [a])
      = Function.update (members key row items) (key a)
          (members key row items (key a) ++ [row a]) := by
  funext k
  rw [members, List.filter_append, List.map_append]
  by_cases hkey : key a = k
  · subst hkey
    rw [Function.update_self, List.filter_singleton]
    simp [members]
  · rw [Function.update_of_ne (Ne.symm hkey), List.filter_singleton]
    simp [members, hkey]

/-- Every key has one group, with all of its rows. -/
theorem foldl_addToGroups (key : α → String) (row : α → List Bound) (items : List α) :
    ∃ keys : List String, keys.Nodup ∧ (∀ k, k ∈ keys ↔ ∃ a ∈ items, key a = k) ∧
      (items.map fun a => ([Cell.text (key a)], row a)).foldl
          (fun parts entry => addToGroups entry.1 entry.2 parts) []
        = keys.map fun k => ([.text k], members key row items k) := by
  -- The last row comes last into its group, so the induction is from the end.
  induction items using List.reverseRecOn with
  | nil => exact ⟨[], List.nodup_nil, by simp, rfl⟩
  | append_singleton items a ih =>
      obtain ⟨keys, hnodup, hmem, hparts⟩ := ih
      have hnone : key a ∉ keys → members key row items (key a) = [] := by
        intro hnew
        rw [members, List.map_eq_nil_iff, List.filter_eq_nil_iff]
        intro other hother hsame
        exact hnew ((hmem _).mpr ⟨other, hother, of_decide_eq_true hsame⟩)
      -- The row makes a group of its own if it is the first with its key.
      refine ⟨if key a ∈ keys then keys else keys ++ [key a], ?_, fun k => ?_, ?_⟩
      · split
        · exact hnodup
        · rename_i hnew
          exact List.nodup_append_comm.mpr (List.nodup_cons.mpr ⟨hnew, hnodup⟩)
      · have hadded : k ∈ (if key a ∈ keys then keys else keys ++ [key a]) ↔
            k ∈ keys ∨ key a = k := by
          split
          · rename_i hold
            exact (or_iff_left_of_imp fun hsame => hsame ▸ hold).symm
          · rw [List.mem_append, List.mem_singleton, eq_comm]
        rw [hadded, hmem]
        simp only [List.mem_append, List.mem_singleton, or_and_right, exists_or, exists_eq_left]
      · rw [List.map_append, List.foldl_append, hparts, members_append]
        exact addToGroups_text hnodup hnone (row a)

variable {params : List Cell} {s : Select} {e : Expr}

/-- Grouping by one text makes a group of each key. -/
theorem groups_text (hgroup : s.groupBy = [e])
    (hkey : ∀ a ∈ items, e.eval ⟨params, row a, []⟩ = .ok (.text (key a))) :
    ∃ keys : List String, keys.Nodup ∧ (∀ k, k ∈ keys ↔ ∃ a ∈ items, key a = k) ∧
      groups params s true (items.map row) = .ok (keys.map fun k =>
        ⟨params, (members key row items k).headD [], members key row items k⟩) := by
  obtain ⟨keys, hnodup, hmem, hparts⟩ := foldl_addToGroups key row items
  have hkeyed : (items.map row).mapM (fun row => do
        return (← Expr.evalAll ⟨params, row, []⟩ [e], row))
      = (.ok (items.map fun a => ([.text (key a)], row a)) : Judged _) :=
    mapM_map_ok items fun a ha => by
      rw [Expr.evalAll_cons (hkey a ha) (by rw [Expr.evalAll])]
      rfl
  -- The groups are sorted then, which only changes their order.
  obtain ⟨sorted, hsorted, hperm⟩ := exists_map_of_perm (List.mergeSort_perm
    (keys.map fun k => ([Cell.text k], members key row items k)) fun a b =>
      precedes (a.1.map fun c => (c, false)) (b.1.map fun c => (c, false)))
  refine ⟨sorted, hperm.nodup_iff.mpr hnodup, fun k => hperm.mem_iff.trans (hmem k), ?_⟩
  simp only [groups, hgroup, hkeyed, Bool.not_true, Bool.false_eq_true, if_false,
    List.isEmpty_cons, Bool.false_and]
  show Except.ok (((List.foldl (fun parts entry => addToGroups entry.1 entry.2 parts) []
    (items.map fun a => ([Cell.text (key a)], row a))).mergeSort _).map _) = _
  rw [hparts, hsorted, List.map_map]
  rfl

/-- A group starts with one of its rows. -/
theorem headD_members (row : α → List Bound) {k : String} (hk : ∃ a ∈ items, key a = k) :
    ∃ a ∈ items, key a = k ∧ (members key row items k).headD [] = row a := by
  obtain ⟨a, ha, hkey⟩ := hk
  have hmem : a ∈ items.filter fun a => key a = k :=
    List.mem_filter.mpr ⟨ha, decide_eq_true hkey⟩
  obtain ⟨first, rest, hfirst⟩ := List.exists_cons_of_ne_nil (List.ne_nil_of_mem hmem)
  have hfirstMem : first ∈ items.filter fun a => key a = k := by
    rw [hfirst]
    exact List.mem_cons_self
  obtain ⟨hitem, hsame⟩ := List.mem_filter.mp hfirstMem
  refine ⟨first, hitem, of_decide_eq_true hsame, ?_⟩
  rw [members, hfirst]
  rfl

/-- A selection that groups its rows by one text, without a condition on single rows
and without an order, has a result for each key whose group it wants. -/
theorem select_grouped {d : Database} {blank : List Bound} {results : List (Expr × String)}
    {chosen : String → Bool} {cells : String → List Cell} (hgroup : s.groupBy = [e])
    (hcondition : s.condition = none) (horder : s.orderBy = [])
    (hblank : d.blankRow s.sources = .ok blank) (hresults : resultColumns blank s = .ok results)
    (hchecked : Checked true blank results s)
    (hjoined : d.joinSources params s.sources [[]] = .ok (items.map row))
    (hkey : ∀ a ∈ items, e.eval ⟨params, row a, []⟩ = .ok (.text (key a)))
    (hchosen : ∀ a ∈ items, Expr.holds ⟨params, row a, members key row items (key a)⟩ s.having
      = .ok (chosen (key a)))
    (hcells : ∀ a ∈ items, Expr.evalAll ⟨params, row a, members key row items (key a)⟩
      (results.map Prod.fst) = .ok (cells (key a))) :
    ∃ keys : List String, keys.Nodup ∧ (∀ k, k ∈ keys ↔ ∃ a ∈ items, key a = k) ∧
      d.select params s = .ok
        { columns := results.map Prod.snd, rows := (keys.filter chosen).map cells } := by
  obtain ⟨keys, hnodup, hmem, hgroups⟩ := groups_text hgroup hkey
  have hall : groups params s true ((items.filter fun _ => true).map row)
      = .ok (keys.map fun k =>
          ⟨params, (members key row items k).headD [], members key row items k⟩) := by
    rw [List.filter_true]
    exact hgroups
  refine ⟨keys, hnodup, hmem, select_eq horder hblank hresults hchecked hjoined
    (fun _ _ => hcondition ▸ rfl) hall (fun k hk => ?_) fun k hk => ?_⟩
  · -- A group is evaluated in the first of its rows.
    obtain ⟨a, ha, rfl, hhead⟩ := headD_members row ((hmem k).mp hk)
    rw [hhead]
    exact hchosen a ha
  · obtain ⟨a, ha, rfl, hhead⟩ := headD_members row ((hmem k).mp hk)
    rw [hhead]
    exact hcells a ha

end Database

end StoreBench.Sql
