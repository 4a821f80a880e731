import StoreBench.Proofs.Load.Cells
import StoreBench.Settings.Basic

/-!
# `StoreBench.Proofs.Load.Counts`: what a histogram has counted

`Histogram.Counts` says which numbers a histogram has counted, in any order: each
cell has the count of those that lie in it, and the greatest is that of all. A
histogram that counts nothing, one more number, or those of another histogram, by
`record` and `merge?`, goes along with the list of numbers (`Counts.record`,
`Counts.merge?_eq`). All that is read off a histogram is the same for two that counted
the same numbers (`Counts.agrees`).

Larger numbers have larger cells (`cellOf_mono`), and the greatest number of a cell
counts like any other of that cell (`highestLike_highestLike`). This makes it
harmless that a merge goes by the greatest of the cell and not by the largest number
itself.
-/

set_option autoImplicit false

namespace StoreBench.Layout

variable {l : Layout} {u v w : Nat}

/-! ### Cells in their order -/

/-- Cells of larger numbers are as wide or wider. -/
theorem widthBits_mono (h : v ≤ w) : l.widthBits v ≤ l.widthBits w := by
  rw [widthBits, widthBits]
  split
  · exact Nat.zero_le _
  · rename_i hv
    rw [if_neg (by omega)]
    have hlog : v.log2 ≤ w.log2 := by
      rw [Nat.le_log2 (by omega)]
      exact Nat.le_trans (Nat.log2_self_le hv) h
    omega

/-- Larger numbers are in the same cell or a later one. Ranks can be read off the cells
for this reason. -/
theorem cellOf_mono (hproper : l.Proper) (h : v ≤ w) : l.cellOf v ≤ l.cellOf w := by
  rw [cellOf, cellOf]
  rcases Nat.lt_or_eq_of_le (widthBits_mono (l := l) h) with hwider | hsame
  · -- The cells of the width of `v` end before those of the width of `w` begin.
    obtain ⟨-, hhigh⟩ := quotient_bounds hproper v
    obtain ⟨hlow, -⟩ := quotient_bounds hproper w
    have hgroup : (l.widthBits v + 1) * l.half ≤ l.widthBits w * l.half :=
      Nat.mul_le_mul_right _ hwider
    rw [Nat.add_one_mul] at hgroup
    rcases hlow with hzero | hlow
    · omega
    · omega
  · rw [hsame]
    exact Nat.add_le_add_left (Nat.div_le_div_right h) _

/-- A number lies in its cell: not below its least number. -/
theorem lowest_cellOf_le (hproper : l.Proper) (v : Nat) : l.lowest (l.cellOf v) ≤ v := by
  rw [lowest_cellOf hproper]
  exact Nat.div_mul_le_self _ _

/-- A number does not lie beyond the end of its cell. With `lowest_cellOf_le` this says
that cells leave no gap. -/
theorem lt_lowest_add_width (hproper : l.Proper) (v : Nat) :
    v < l.lowest (l.cellOf v) + l.width (l.cellOf v) := by
  rw [lowest_cellOf hproper, width_cellOf hproper]
  exact Nat.lt_div_mul_add (Nat.two_pow_pos _)

/-- What lies in the cell of a number has that cell, so cells do not overlap. -/
theorem cellOf_eq_of_mem (hproper : l.Proper) (hlow : l.lowest (l.cellOf v) ≤ u)
    (hhigh : u < l.lowest (l.cellOf v) + l.width (l.cellOf v)) : l.cellOf u = l.cellOf v := by
  have hpos := Nat.two_pow_pos (l.widthBits v)
  rw [lowest_cellOf hproper] at hlow hhigh
  rw [width_cellOf hproper] at hhigh
  have hquotient : u / 2 ^ l.widthBits v = v / 2 ^ l.widthBits v := by
    refine Nat.le_antisymm ?_ ((Nat.le_div_iff_mul_le hpos).mpr hlow)
    rw [← Nat.lt_succ_iff, Nat.div_lt_iff_lt_mul hpos, Nat.succ_mul]
    exact hhigh
  -- So the width is the same, as it is read off the quotient.
  have hwidth : l.widthBits u = l.widthBits v := by
    obtain ⟨hleast, hmost⟩ := quotient_bounds hproper v
    rw [← hquotient] at hleast hmost
    have hbits := hproper.bits_pos
    rw [Nat.div_lt_iff_lt_mul hpos, two_half hproper, ← Nat.pow_add] at hmost
    rcases hleast with hzero | hleast
    · rw [hzero] at hmost ⊢
      rw [widthBits]
      split
      · rfl
      · rename_i hu
        have := (Nat.log2_lt hu).mpr hmost
        omega
    · rw [half, Nat.le_div_iff_mul_le hpos, ← Nat.pow_add] at hleast
      have hu : u ≠ 0 := by
        have := Nat.two_pow_pos (l.bits - 1 + l.widthBits v)
        omega
      have h1 := (Nat.log2_lt hu).mpr hmost
      have h2 := (Nat.le_log2 hu).mpr hleast
      rw [widthBits, if_neg hu]
      omega
  rw [cellOf, cellOf, hwidth, hquotient]

/-! ### The greatest number of a cell -/

/-- No number is above the highest one of its cell. The greatest word is left out, since
the highest number of the last cell is one less than that. -/
theorem le_highest_cellOf (hproper : l.Proper) (hv : v < wordMax) :
    v ≤ l.highest (l.cellOf v) := by
  have := lt_lowest_add_width hproper v
  rw [highest]
  omega

/-- The highest number of a cell is never the greatest word, which is told apart from
all cells for that reason. -/
theorem highest_lt (l : Layout) (cell : Nat) : l.highest cell < wordMax := by
  have : 0 < wordMax := by decide
  rw [highest]
  omega

/-- Larger numbers have higher ends of their cells. -/
theorem highest_cellOf_mono (hproper : l.Proper) (h : v ≤ w) :
    l.highest (l.cellOf v) ≤ l.highest (l.cellOf w) := by
  have hend : l.lowest (l.cellOf v) + l.width (l.cellOf v)
      ≤ l.lowest (l.cellOf w) + l.width (l.cellOf w) := by
    -- Both ends are multiples of the narrower width, and the one of `w` is beyond `v`.
    obtain ⟨b, hb⟩ := Nat.exists_eq_add_of_le (widthBits_mono (l := l) h)
    have hbeyond := Nat.lt_of_le_of_lt h (lt_lowest_add_width hproper w)
    rw [lowest_cellOf hproper, width_cellOf hproper, ← Nat.succ_mul] at hbeyond ⊢
    rw [lowest_cellOf hproper, width_cellOf hproper, ← Nat.succ_mul]
    rw [hb, Nat.pow_add, Nat.mul_comm (2 ^ _) (2 ^ b), ← Nat.mul_assoc] at hbeyond ⊢
    refine Nat.mul_le_mul_right _ ?_
    rw [Nat.succ_le_iff, Nat.div_lt_iff_lt_mul (Nat.two_pow_pos _)]
    exact hbeyond
  rw [highest, highest]
  omega

/-- A number counts like no smaller one. Quantiles are read off in this way, so they
never understate. -/
theorem le_highestLike (hproper : l.Proper) (hv : v ≤ wordMax) : v ≤ l.highestLike v := by
  rw [highestLike]
  split
  · exact hv
  · exact le_highest_cellOf hproper (by omega)

/-- What a number counts like is a word. -/
theorem highestLike_le (l : Layout) (v : Nat) : l.highestLike v ≤ wordMax := by
  rw [highestLike]
  split
  · exact Nat.le_refl _
  · exact Nat.le_of_lt (l.highest_lt _)

/-- What a number counts like is the highest number of its cell, or even more where the
number is the greatest word. -/
theorem highest_le_highestLike (l : Layout) (v : Nat) :
    l.highest (l.cellOf v) ≤ l.highestLike v := by
  rw [highestLike]
  split
  · exact Nat.le_of_lt (l.highest_lt _)
  · exact Nat.le_refl _

/-- Larger numbers count like larger numbers. -/
theorem highestLike_mono (hproper : l.Proper) (h : v ≤ w) (hw : w ≤ wordMax) :
    l.highestLike v ≤ l.highestLike w := by
  by_cases hlast : w = wordMax
  · rw [hlast, highestLike.eq_def l wordMax, if_pos rfl]
    exact l.highestLike_le v
  · rw [highestLike, if_neg (by omega), highestLike, if_neg hlast]
    exact highest_cellOf_mono hproper h

/-- What a number counts like lies in the same cell, so counting it again would not
change the counts. -/
theorem cellOf_highestLike (hproper : l.Proper) (hv : v ≤ wordMax) :
    l.cellOf (l.highestLike v) = l.cellOf v := by
  by_cases hlast : v = wordMax
  · rw [hlast, highestLike, if_pos rfl]
  have hle := le_highest_cellOf hproper (v := v) (by omega)
  have hlow := lowest_cellOf_le hproper v
  have hend := lt_lowest_add_width hproper v
  rw [highestLike, if_neg hlast]
  refine cellOf_eq_of_mem hproper (by omega) ?_
  rw [highest]
  omega

/-- Therefore a number that was read off a histogram is read off again where it is
recorded in another one. -/
theorem highestLike_highestLike (hproper : l.Proper) (hv : v ≤ wordMax) :
    l.highestLike (l.highestLike v) = l.highestLike v := by
  by_cases hlast : v = wordMax
  · simp only [hlast, highestLike, if_true]
  have hcell := cellOf_highestLike hproper hv
  have hhigh := l.highest_lt (l.cellOf v)
  rw [highestLike.eq_def l v, if_neg hlast] at hcell ⊢
  rw [highestLike, if_neg (Nat.ne_of_lt hhigh), hcell]

/-! ### What numbers count as -/

/-- The number that a number counts as: itself while there is a cell for it, and else
the greatest of the range. -/
def counted (l : Layout) (v : Nat) : Nat := if l.cellOf v < l.size then v else l.greatest

/-- What a number counts as is a word, where the range ends within the words. -/
theorem counted_le (hgreatest : l.greatest ≤ wordMax) (hv : v ≤ wordMax) :
    l.counted v ≤ wordMax := by
  rw [counted]
  split <;> assumption

/-- A number counts like one of the cells, unless it is the largest word in a layout
that reaches beyond the words. -/
theorem highestLike_counted_le_iff (hmade : l.Made) (hv : v ≤ wordMax) :
    l.highestLike (l.counted v) ≤ l.highest (l.size - 1) ↔ v < wordMax ∨ l.reach ≤ wordMax := by
  constructor
  · intro hle
    refine Decidable.byContradiction fun hbeyond => ?_
    obtain rfl : v = wordMax := by omega
    have hcell := (cellOf_lt_size_iff hmade.toProper wordMax).mpr (by omega)
    rw [counted, if_pos hcell, highestLike, if_pos rfl] at hle
    exact absurd (l.highest_lt _) (Nat.not_lt.mpr hle)
  · intro hvalue
    have hlt : l.counted v < min l.reach wordMax :=
      Histogram.clamped_lt (h := .empty l) hmade hvalue
    have hend := lowest_add_width_le hmade.toProper (v := l.counted v) (by omega)
    rw [highest_last hmade.toProper, highestLike, if_neg (by omega), highest]
    omega

/-- So all of some numbers do, unless the largest word is among them and the layout
reaches beyond the words. -/
theorem highestLike_all_iff (hmade : l.Made) {values : List Nat}
    (hwords : ∀ v ∈ values, v ≤ wordMax) :
    (∀ v ∈ values, l.highestLike (l.counted v) ≤ l.highest (l.size - 1)) ↔
      l.reach ≤ wordMax ∨ ∀ v ∈ values, v < wordMax := by
  have hlike (v : Nat) (hv : v ∈ values) := highestLike_counted_le_iff hmade (hwords v hv)
  constructor
  · intro hall
    by_cases hreach : l.reach ≤ wordMax
    · exact .inl hreach
    · exact .inr fun v hv => ((hlike v hv).mp (hall v hv)).resolve_right hreach
  · rintro (hreach | hbelow) v hv
    · exact (hlike v hv).mpr (.inr hreach)
    · exact (hlike v hv).mpr (.inl (hbelow v hv))

/-- How many of some numbers count in a cell. Recorded histograms are compared with
this, which needs no histogram. -/
def count (l : Layout) (values : List Nat) (cell : Nat) : Nat :=
  values.countP fun v => l.cellOf (l.counted v) == cell

end StoreBench.Layout

namespace StoreBench.Histogram

variable {h other : Histogram} {values others : List Nat} {v : Nat}

/-! ### Entries -/

section Entries

variable {entries : List (Nat × Nat)} {cell n : Nat}

/-- Adds the count of a cell to counts, as merging does for each cell of the other
histogram. -/
def addEntry (counts : Std.ExtTreeMap Nat Nat) (entry : Nat × Nat) : Std.ExtTreeMap Nat Nat :=
  counts.insert entry.1 ((counts[entry.1]?).getD 0 + entry.2)

/-- Only the count of this cell changes. -/
theorem getElem?_addEntry (counts : Std.ExtTreeMap Nat Nat) (entry : Nat × Nat) (cell : Nat) :
    (addEntry counts entry)[cell]?
      = if entry.1 = cell then some ((counts[cell]?).getD 0 + entry.2) else counts[cell]? := by
  rw [addEntry, Std.ExtTreeMap.getElem?_insert]
  simp only [Nat.compare_eq_eq]
  split
  · rename_i hcell
    rw [hcell]
  · rfl

/-- A cell that is not among the entries keeps its count. -/
theorem getElem?_foldl_addEntry_of_not_mem (hnone : ∀ n, (cell, n) ∉ entries)
    (counts : Std.ExtTreeMap Nat Nat) : (entries.foldl addEntry counts)[cell]? = counts[cell]? := by
  induction entries generalizing counts with
  | nil => rfl
  | cons entry rest ih =>
      have hother : entry.1 ≠ cell := by
        rintro rfl
        exact hnone entry.2 List.mem_cons_self
      rw [List.foldl_cons, ih fun n hn => hnone n (List.mem_cons_of_mem _ hn), getElem?_addEntry,
        if_neg hother]

/-- Where each cell has one entry at most, that entry is added to the count of its
cell. -/
theorem getElem?_foldl_addEntry (hdistinct : entries.Pairwise fun a b => a.1 ≠ b.1)
    (hentry : (cell, n) ∈ entries) (counts : Std.ExtTreeMap Nat Nat) :
    (entries.foldl addEntry counts)[cell]? = some ((counts[cell]?).getD 0 + n) := by
  induction entries generalizing counts with
  | nil => cases hentry
  | cons entry rest ih =>
      obtain ⟨hhead, hrest⟩ := List.pairwise_cons.mp hdistinct
      rw [List.foldl_cons]
      rcases List.mem_cons.mp hentry with rfl | htail
      · rw [getElem?_foldl_addEntry_of_not_mem fun n hn => hhead _ hn rfl, getElem?_addEntry,
          if_pos rfl]
      · rw [ih hrest htail, getElem?_addEntry, if_neg (hhead _ htail)]

/-- Each cell has one entry at most, so the order in which entries are added does not
matter. -/
theorem distinct_entries (counts : Std.ExtTreeMap Nat Nat) :
    counts.toList.Pairwise fun a b => a.1 ≠ b.1 :=
  Std.ExtTreeMap.distinct_keys_toList.imp fun hne => mt Nat.compare_eq_eq.mpr hne

end Entries

/-! ### Counting -/

/-- The histogram has counted these numbers, in whatever order: each cell has as many as
count in it, and a cell without any has no entry. -/
structure Counts (h : Histogram) (values : List Nat) : Prop where
  /-- There are no entries of nothing. -/
  entry_iff : ∀ cell n, h.counts[cell]? = some n ↔ 0 < n ∧ h.layout.count values cell = n
  total_eq : h.total = values.length
  largest_le : h.largest ≤ wordMax
  greatest_le_iff : ∀ m,
    h.greatest ≤ m ↔ ∀ v ∈ values, h.layout.highestLike (h.layout.counted v) ≤ m

/-- The greatest number that a histogram tells of is what the largest recorded number
counts like, also for zero, which is the only number of its cell. -/
theorem greatest_eq (hproper : h.layout.Proper) : h.greatest = h.layout.highestLike h.largest := by
  rw [greatest]
  split
  · rename_i hnone
    have hzero : h.layout.widthBits 0 = 0 := by rw [Layout.widthBits, if_pos rfl]
    have hlast : (0 : Nat) ≠ wordMax := by decide
    rw [hnone, Layout.highestLike, if_neg hlast, Layout.highest, Layout.lowest_cellOf hproper,
      Layout.width_cellOf hproper, hzero]
    rfl
  · rfl

/-- A new histogram has counted nothing. -/
theorem counts_empty (l : Layout) : Counts (.empty l) [] where
  entry_iff cell n := by
    rw [empty, Std.ExtTreeMap.getElem?_empty]
    simp only [Layout.count, List.countP_nil, reduceCtorEq, false_iff]
    omega
  total_eq := rfl
  largest_le := Nat.zero_le _
  greatest_le_iff m := by
    simp only [List.not_mem_nil, false_implies, implies_true, iff_true]
    exact Nat.zero_le m

/-- The greatest number goes up to what the recorded number counts like, and never down. -/
theorem greatest_record (hproper : h.layout.Proper) (hlargest : h.largest ≤ wordMax)
    (hcounted : h.layout.counted v ≤ wordMax) :
    (h.record v).greatest = max h.greatest (h.layout.highestLike (h.layout.counted v)) := by
  rw [greatest_eq (h := h.record v) hproper, greatest_eq hproper]
  show h.layout.highestLike (max h.largest (h.layout.counted v)) = _
  rcases Nat.le_total h.largest (h.layout.counted v) with hle | hle
  · rw [Nat.max_eq_right hle, Nat.max_eq_right (Layout.highestLike_mono hproper hle hcounted)]
  · rw [Nat.max_eq_left hle, Nat.max_eq_left (Layout.highestLike_mono hproper hle hlargest)]

namespace Counts

/-- The order of the numbers does not matter, so what several workers recorded can be
put together in any order. -/
theorem perm (hcounts : h.Counts values) (hperm : values.Perm others) : h.Counts others where
  entry_iff cell n := by
    rw [hcounts.entry_iff, Layout.count, hperm.countP_eq]
    rfl
  total_eq := hcounts.total_eq.trans hperm.length_eq
  largest_le := hcounts.largest_le
  greatest_le_iff m := by
    rw [hcounts.greatest_le_iff]
    simp only [hperm.mem_iff]

/-- The count of a cell is how many numbers count in it, with no entry for none. -/
theorem getD_eq (hcounts : h.Counts values) (cell : Nat) :
    (h.counts[cell]?).getD 0 = h.layout.count values cell := by
  cases hentry : h.counts[cell]? with
  | none =>
      -- A count that is not nothing would have an entry.
      refine Decidable.byContradiction fun hne => ?_
      have hsome := (hcounts.entry_iff cell _).mpr ⟨Nat.pos_of_ne_zero (Ne.symm hne), rfl⟩
      rw [hentry] at hsome
      cases hsome
  | some n => exact ((hcounts.entry_iff cell n).mp hentry).2.symm

/-- What is listed of a histogram are the cells in which numbers count, with how many. -/
theorem mem_entries_iff (hcounts : h.Counts values) (cell n : Nat) :
    (cell, n) ∈ h.counts.toList ↔ 0 < n ∧ h.layout.count values cell = n := by
  rw [Std.ExtTreeMap.mem_toList_iff_getElem?_eq_some, hcounts.entry_iff]

/-- One more number is counted once, in the cell that it counts in. -/
theorem record (hcounts : h.Counts values) (hproper : h.layout.Proper)
    (hgreatest : h.layout.greatest ≤ wordMax) (hv : v ≤ wordMax) :
    (h.record v).Counts (v :: values) where
  entry_iff cell n := by
    show (addEntry h.counts (h.layout.cellOf (h.layout.counted v), 1))[cell]? = some n
      ↔ 0 < n ∧ h.layout.count (v :: values) cell = n
    rw [getElem?_addEntry, hcounts.getD_eq, Layout.count, Layout.count, List.countP_cons]
    simp only [beq_iff_eq]
    split
    · rw [Option.some.injEq]
      omega
    · rw [hcounts.entry_iff, Nat.add_zero]
      rfl
  total_eq := (congrArg (· + 1) hcounts.total_eq).trans List.length_cons.symm
  largest_le := Nat.max_le.mpr ⟨hcounts.largest_le, Layout.counted_le hgreatest hv⟩
  greatest_le_iff m := by
    rw [greatest_record hproper hcounts.largest_le (Layout.counted_le hgreatest hv), Nat.max_le,
      hcounts.greatest_le_iff, List.forall_mem_cons, and_comm]
    rfl

/-- Numbers that are recorded one after the other are counted with those that were there
before. -/
theorem foldl_record (hcounts : h.Counts values) (hproper : h.layout.Proper)
    (hgreatest : h.layout.greatest ≤ wordMax) (hothers : ∀ v ∈ others, v ≤ wordMax) :
    (others.foldl Histogram.record h).layout = h.layout ∧
    (others.foldl Histogram.record h).Counts (others ++ values) := by
  induction others generalizing h values with
  | nil => exact ⟨rfl, hcounts⟩
  | cons v rest ih =>
      obtain ⟨hv, hrest⟩ := List.forall_mem_cons.mp hothers
      obtain ⟨hlayout, hall⟩ := ih (hcounts.record hproper hgreatest hv) hproper hgreatest hrest
      exact ⟨hlayout, hall.perm List.perm_middle⟩

end Counts

/-- A histogram that these numbers are recorded in has counted just these. -/
theorem counts_of_empty {l : Layout} (hproper : l.Proper) (hgreatest : l.greatest ≤ wordMax)
    (hvalues : ∀ v ∈ values, v ≤ wordMax) :
    (values.foldl record (empty l)).layout = l ∧ (values.foldl record (empty l)).Counts values := by
  have hall := (counts_empty l).foldl_record hproper hgreatest hvalues
  rwa [List.append_nil] at hall

/-! ### Merging -/

/-- A histogram with the counts of another one of the same layout added. Merging comes
to this, unless it fails. -/
def sum (h other : Histogram) : Histogram where
  layout := h.layout
  counts := other.counts.toList.foldl addEntry h.counts
  total := h.total + other.total
  largest := max h.largest (if h.greatest < other.greatest then other.greatest else 0)

/-- In one layout, a histogram is merged by adding up, unless its greatest number is
beyond the last cell. -/
theorem merge?_eq (hlayout : h.layout = other.layout) :
    h.merge? other = if other.greatest ≤ h.layout.highest (h.layout.size - 1)
      then some (h.sum other) else none := by
  rw [merge?]
  split
  · rename_i hgreater
    rw [if_neg (Nat.not_le.mpr hgreater)]
  · rename_i hle
    rw [if_pos (Nat.not_lt.mp hle),
      if_pos ⟨congrArg Layout.bits hlayout, congrArg Layout.groups hlayout⟩,
      Std.ExtTreeMap.foldl_eq_foldl_toList]
    rfl

/-- So whether it does depends on what the numbers of the other one count like, and the
histogram itself has no say in it. -/
theorem Counts.merge?_eq (hother : other.Counts others) (hlayout : h.layout = other.layout) :
    h.merge? other = if ∀ v ∈ others,
        h.layout.highestLike (h.layout.counted v) ≤ h.layout.highest (h.layout.size - 1)
      then some (h.sum other) else none := by
  simp only [Histogram.merge?_eq hlayout, hother.greatest_le_iff, hlayout]

/-- The greatest number of a sum is the greater one of the two. -/
theorem greatest_sum (hproper : h.layout.Proper) (hlayout : h.layout = other.layout)
    (hlargest : h.largest ≤ wordMax) (hother : other.largest ≤ wordMax) :
    (h.sum other).greatest = max h.greatest other.greatest := by
  have hproper' : other.layout.Proper := hlayout ▸ hproper
  have hle := Layout.le_highestLike hproper hlargest
  rw [← greatest_eq hproper] at hle
  rw [greatest_eq (h := h.sum other) hproper, sum]
  by_cases hgreater : h.greatest < other.greatest
  · -- The greatest of the other counts like its largest number.
    rw [if_pos hgreater, Nat.max_eq_right (by omega), Nat.max_eq_right (Nat.le_of_lt hgreater),
      greatest_eq hproper', hlayout, Layout.highestLike_highestLike hproper' hother]
  · rw [if_neg hgreater, Nat.max_eq_left (Nat.zero_le _), ← greatest_eq hproper,
      Nat.max_eq_left (Nat.not_lt.mp hgreater)]

/-- The sum has counted the numbers of both, so shares that are added up are as if one
recorder had been used. -/
theorem Counts.sum (hcounts : h.Counts values) (hother : other.Counts others)
    (hproper : h.layout.Proper) (hlayout : h.layout = other.layout) :
    (h.sum other).Counts (values ++ others) where
  entry_iff cell n := by
    have hentry := hother.mem_entries_iff cell
    rw [← hlayout] at hentry
    show (other.counts.toList.foldl addEntry h.counts)[cell]? = some n
      ↔ 0 < n ∧ h.layout.count (values ++ others) cell = n
    rw [Layout.count, List.countP_append]
    show _ ↔ 0 < n ∧ h.layout.count values cell + h.layout.count others cell = n
    -- The other histogram has an entry for the cell just when it has counted something there.
    by_cases hzero : h.layout.count others cell = 0
    · have hnone (n : Nat) : (cell, n) ∉ other.counts.toList := by
        rw [hentry]
        omega
      rw [getElem?_foldl_addEntry_of_not_mem hnone, hcounts.entry_iff, hzero, Nat.add_zero]
    · have hsome := (hentry _).mpr ⟨Nat.pos_of_ne_zero hzero, rfl⟩
      rw [getElem?_foldl_addEntry (distinct_entries _) hsome, hcounts.getD_eq, Option.some.injEq]
      omega
  total_eq := by
    rw [List.length_append, ← hcounts.total_eq, ← hother.total_eq]
    rfl
  largest_le := by
    refine Nat.max_le.mpr ⟨hcounts.largest_le, ?_⟩
    split
    · rw [greatest_eq (hlayout ▸ hproper)]
      exact Layout.highestLike_le _ _
    · exact Nat.zero_le _
  greatest_le_iff m := by
    rw [greatest_sum hproper hlayout hcounts.largest_le hother.largest_le, Nat.max_le,
      hcounts.greatest_le_iff, hother.greatest_le_iff, List.forall_mem_append, ← hlayout]
    rfl

/-! ### What is read off -/

/-- Histograms of one layout that have counted the same numbers have the same counts,
the same total and the same greatest number. -/
theorem Counts.agrees (hcounts : h.Counts values) (hother : other.Counts values)
    (hlayout : h.layout = other.layout) :
    h.counts = other.counts ∧ h.total = other.total ∧ h.greatest = other.greatest := by
  have hgreatest (m : Nat) : h.greatest ≤ m ↔ other.greatest ≤ m := by
    rw [hcounts.greatest_le_iff, hother.greatest_le_iff, hlayout]
  refine ⟨Std.ExtTreeMap.ext_getElem? fun cell => Option.ext fun n => ?_,
    hcounts.total_eq.trans hother.total_eq.symm,
    Nat.le_antisymm ((hgreatest _).mpr (Nat.le_refl _)) ((hgreatest _).mp (Nat.le_refl _))⟩
  rw [hcounts.entry_iff, hother.entry_iff, hlayout]

end StoreBench.Histogram

/-! ### Recorders that the settings allow -/

namespace StoreBench.LatencyConfig

variable {limits : LatencyConfig} {l : Layout}

/-- A recorder that the settings allow can be made: what is validated is what the layout
needs. -/
theorem make_of_validate (h : limits.validate = .ok ()) :
    ∃ l, Layout.make limits.maxMicros limits.significantFigures = .ok l ∧
      Recorder.make limits = .ok ⟨.empty l⟩ := by
  rw [validate] at h
  split at h
  · cases h
  split at h
  · cases h
  rename_i hdigits hwide
  have hmake : ∃ l, Layout.make limits.maxMicros limits.significantFigures = .ok l := by
    rw [Layout.make, if_neg hwide, if_neg (by omega)]
    exact ⟨_, rfl⟩
  obtain ⟨l, hl⟩ := hmake
  exact ⟨l, hl, by rw [Recorder.make, hl]⟩

/-- The cells reach beyond the words just when the range goes beyond half of them. -/
theorem reach_le_iff (hrange : Layout.make limits.maxMicros limits.significantFigures = .ok l) :
    l.reach ≤ wordMax ↔ limits.maxMicros < 2 ^ 63 := by
  obtain ⟨hmade, hgreatest⟩ := Layout.made_of_make hrange
  refine ⟨fun hreach => ?_, fun hlimit => hmade.reach_le (hgreatest ▸ hlimit)⟩
  have hpow : l.bits - 1 + l.groups < 64 := by
    refine (Nat.pow_lt_pow_iff_right (a := 2) (by decide)).mp ?_
    exact Nat.lt_of_le_of_lt hreach (by decide)
  have hhalf : l.reach ≤ 2 ^ 63 := Nat.pow_le_pow_right (by decide) (by omega)
  have hlt := hmade.greatest_lt
  omega

/-- The settings with the widest range, up to the greatest word. -/
def widest : LatencyConfig := { maxMicros := wordMax }

end StoreBench.LatencyConfig
