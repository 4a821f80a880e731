import StoreBench.Load.Latency

/-!
# `StoreBench.Proofs.Load.Cells`: the cells of a histogram

The cell of a number is found from the number's logarithm, and the numbers of
a cell from its index. `lowest_cellOf` and `width_cellOf` say that the two
directions agree: the cell of `v` is the block of `2 ^ b` numbers that `v`
lies in, where `b` is its width. `Layout.reach` is the first number beyond the
cells, a power of two, and a number has a cell just when it lies below
(`cellOf_lt_size_iff`).

Merging two histograms compares the greatest of the largest cell that is in
use with the greatest of all. `Histogram.Fits` is what makes that comparison
come out right, and every histogram of recorded numbers has it, but for one
number: the largest word, which counts as itself in a layout that reaches
beyond the words (`Fits.record`). The total after a merge is the sum
(`merge?_of_fits`).
-/

set_option autoImplicit false

namespace StoreBench.Layout

variable {l : Layout} {v : Nat}

/-- There is a cell of width one, and a group of cells. -/
structure Proper (l : Layout) : Prop where
  bits_pos : 0 < l.bits
  groups_pos : 0 < l.groups

/-- The first number beyond the cells. It is a power of two, as the width of the cells
doubles from group to group. -/
def reach (l : Layout) : Nat := 2 ^ (l.bits - 1 + l.groups)

/-- There is a cell in the half of those of width one. -/
theorem half_pos (l : Layout) : 0 < l.half := Nat.two_pow_pos _

/-- Both halves together are as many cells as the bits allow. -/
theorem two_half (h : l.Proper) : 2 * l.half = 2 ^ l.bits := by
  have hbits := h.bits_pos
  rw [half, ← Nat.pow_succ']
  congr 1
  omega

/-! ### The cell of a number -/

/-- A number as many times as wide as its cell: less than twice as many as
half the cells of width one, and at least as many unless it is one of
them. -/
theorem quotient_bounds (h : l.Proper) (v : Nat) :
    (l.widthBits v = 0 ∨ l.half ≤ v / 2 ^ l.widthBits v) ∧
    v / 2 ^ l.widthBits v < 2 * l.half := by
  have hbits := h.bits_pos
  rw [two_half h]
  by_cases hv : v = 0
  · subst hv
    exact ⟨.inl rfl, by rw [Nat.zero_div]; exact Nat.two_pow_pos _⟩
  have hlow : 2 ^ v.log2 ≤ v := Nat.log2_self_le hv
  have hhigh : v < 2 ^ (v.log2 + 1) := Nat.lt_log2_self
  rw [widthBits, if_neg hv]
  -- Both bounds are those of a power of two by the logarithm, divided by the width.
  constructor
  · by_cases hwide : v.log2 + 1 ≤ l.bits
    · exact .inl (Nat.sub_eq_zero_of_le hwide)
    · right
      rw [half, Nat.le_div_iff_mul_le (Nat.two_pow_pos _), ← Nat.pow_add]
      refine Nat.le_trans (Nat.pow_le_pow_right (by omega) ?_) hlow
      omega
  · rw [Nat.div_lt_iff_lt_mul (Nat.two_pow_pos _), ← Nat.pow_add]
    refine Nat.lt_of_lt_of_le hhigh (Nat.pow_le_pow_right (by omega) ?_)
    omega

/-- The width of the cell of a number is found again from the cell. -/
theorem cellBits_cellOf (h : l.Proper) (v : Nat) : l.cellBits (l.cellOf v) = l.widthBits v := by
  obtain ⟨hlow, hhigh⟩ := quotient_bounds h v
  have hhalf := l.half_pos
  rw [cellBits, cellOf, Nat.add_comm, Nat.add_mul_div_right _ _ hhalf]
  -- The quotient is less than two halves, so it adds one to the index at most; beyond the
  -- cells of width one it adds just that.
  rcases hlow with hzero | hlow
  · have : v / 2 ^ l.widthBits v / l.half < 2 := by
      rwa [Nat.div_lt_iff_lt_mul hhalf]
    omega
  · have : v / 2 ^ l.widthBits v / l.half = 1 := by
      refine Nat.le_antisymm ?_ ?_
      · rw [← Nat.lt_succ_iff, Nat.div_lt_iff_lt_mul hhalf]
        exact hhigh
      · rwa [Nat.le_div_iff_mul_le hhalf, Nat.one_mul]
    omega

/-- The least number of the cell that a number lies in. -/
theorem lowest_cellOf (h : l.Proper) (v : Nat) :
    l.lowest (l.cellOf v) = v / 2 ^ l.widthBits v * 2 ^ l.widthBits v := by
  rw [lowest, cellBits_cellOf h, cellOf, Nat.add_sub_cancel_left]

/-- A cell is as wide as its numbers say. -/
theorem width_cellOf (h : l.Proper) (v : Nat) :
    l.width (l.cellOf v) = 2 ^ l.widthBits v := by
  rw [width, cellBits_cellOf h]

/-- A number has a cell just when it lies below the first number beyond
them. -/
theorem cellOf_lt_size_iff (h : l.Proper) (v : Nat) : l.cellOf v < l.size ↔ v < l.reach := by
  have hbits := h.bits_pos
  have hgroups := h.groups_pos
  obtain ⟨hlow, hhigh⟩ := quotient_bounds h v
  by_cases hv : v = 0
  · subst hv
    have hsize : 0 < l.size := Nat.mul_pos (Nat.succ_pos _) l.half_pos
    simpa [cellOf, widthBits, reach, Nat.two_pow_pos] using hsize
  rw [reach, ← Nat.log2_lt hv, cellOf, size]
  have hwidth : l.widthBits v = v.log2 + 1 - l.bits := if_neg hv
  constructor
  · -- A number that long would have a cell behind all groups.
    intro hcell
    by_cases hbeyond : v.log2 < l.bits - 1 + l.groups
    · exact hbeyond
    · rcases hlow with hzero | hlow
      · omega
      · have hle : (l.groups + 1) * l.half ≤ (l.widthBits v + 1) * l.half :=
          Nat.mul_le_mul_right _ (by omega)
        rw [Nat.add_one_mul (l.widthBits v)] at hle
        omega
  · intro hlog
    have hle : (l.widthBits v + 2) * l.half ≤ (l.groups + 1) * l.half :=
      Nat.mul_le_mul_right _ (by omega)
    rw [Nat.add_mul] at hle
    omega

/-- The cell of a number ends before the cells end. -/
theorem lowest_add_width_le (h : l.Proper) (hv : v < l.reach) :
    l.lowest (l.cellOf v) + l.width (l.cellOf v) ≤ l.reach := by
  have hwidth : l.widthBits v ≤ l.bits - 1 + l.groups := by
    have hgroups := h.groups_pos
    rw [widthBits]
    split
    · exact Nat.zero_le _
    · rename_i hzero
      have := (Nat.log2_lt hzero).mpr hv
      omega
  rw [lowest_cellOf h, width_cellOf h, ← Nat.succ_mul]
  have hpow : l.reach = 2 ^ (l.bits - 1 + l.groups - l.widthBits v) * 2 ^ l.widthBits v := by
    rw [reach, ← Nat.pow_add, Nat.sub_add_cancel hwidth]
  -- The cells end at a multiple of every width, so the block around `v` does not straddle it.
  rw [hpow] at hv ⊢
  exact Nat.mul_le_mul_right _ (Nat.div_lt_of_lt_mul (by rwa [Nat.mul_comm]))

/-- The last cell ends where the cells end. -/
theorem highest_last (h : l.Proper) : l.highest (l.size - 1) = min l.reach wordMax - 1 := by
  have hhalf := l.half_pos
  have hgroups := h.groups_pos
  have hsplit : l.size - 1 = l.half - 1 + l.groups * l.half := by
    rw [size, Nat.add_one_mul]
    omega
  have hbits : l.cellBits (l.size - 1) = l.groups - 1 := by
    rw [cellBits, hsplit, Nat.add_mul_div_right _ _ hhalf, Nat.div_eq_of_lt (by omega),
      Nat.zero_add]
  have hend : l.lowest (l.size - 1) + l.width (l.size - 1) = l.reach := by
    have hgroup : l.groups * l.half = (l.groups - 1) * l.half + l.half := by
      rw [← Nat.add_one_mul, Nat.sub_add_cancel hgroups]
    have hcell : l.size - 1 - (l.groups - 1) * l.half = 2 * l.half - 1 := by omega
    have hpow : l.reach = 2 * l.half * 2 ^ (l.groups - 1) := by
      rw [two_half h, ← Nat.pow_add, reach]
      congr 1
      have := h.bits_pos
      omega
    rw [lowest, width, hbits, hcell, ← Nat.succ_mul, hpow]
    congr 1
    omega
  rw [highest, hend]

/-! ### Layouts that are made -/

/-- A layout has a group of cells, however small its greatest number is. -/
theorem groupsFor_pos (greatest fuel reach : Nat) : 0 < groupsFor greatest fuel reach := by
  cases fuel with
  | zero => exact Nat.one_pos
  | succ fuel =>
      rw [groupsFor]
      split
      · exact Nat.one_pos
      · exact Nat.succ_pos _

/-- As many groups are taken as reach beyond `greatest`, if there is fuel for
them, and one group less would not do. -/
theorem groupsFor_spec (greatest fuel reach : Nat) :
    (greatest < reach * 2 ^ (groupsFor greatest fuel reach - 1) ∨
      groupsFor greatest fuel reach = fuel + 1) ∧
    (groupsFor greatest fuel reach = 1 ∨
      reach * 2 ^ (groupsFor greatest fuel reach - 1) ≤ 2 * greatest) := by
  induction fuel generalizing reach with
  | zero => exact ⟨.inr rfl, .inl rfl⟩
  | succ fuel ih =>
      rw [groupsFor]
      split
      · rename_i hlt
        exact ⟨.inl (by simpa using hlt), .inl rfl⟩
      · rename_i hle
        have hpos := groupsFor_pos greatest fuel (reach * 2)
        obtain ⟨hbeyond, hleast⟩ := ih (reach * 2)
        generalize groupsFor greatest fuel (reach * 2) = groups at hpos hbeyond hleast
        -- One group more doubles what is reached.
        have hpow : reach * 2 ^ (groups + 1 - 1) = reach * 2 * 2 ^ (groups - 1) := by
          rw [Nat.mul_assoc, ← Nat.pow_succ']
          congr 2
          omega
        rw [hpow]
        refine ⟨?_, .inr ?_⟩
        · rcases hbeyond with hbeyond | hfuel
          · exact .inl hbeyond
          · exact .inr (by rw [hfuel])
        · rcases hleast with rfl | hleast
          · simp only [Nat.sub_self, Nat.pow_zero, Nat.mul_one]
            omega
          · exact hleast

/-- What holds of every layout that can be made. -/
structure Made (l : Layout) : Prop extends l.Proper where
  /-- The greatest number has a cell, or every word has. -/
  greatest_lt : l.greatest < l.reach ∨ wordMax < l.reach
  /-- Only for great numbers do the cells reach beyond the words. -/
  reach_le : l.greatest < 2 ^ 63 → l.reach ≤ wordMax

/-- There are never too many cells of width one for a word. -/
theorem bits_fit : ∀ digits ≤ 5, 2 ^ (Nat.log2 (2 * 10 ^ digits - 1) + 1) ≤ wordMax := by
  decide

/-- A layout that is made has the shape that all that is shown of cells needs, and the
greatest number that was asked for. -/
theorem made_of_make {greatest digits : Nat} (h : make greatest digits = .ok l) :
    l.Made ∧ l.greatest = greatest := by
  simp only [make] at h
  split at h
  · cases h
  split at h
  · cases h
  rename_i hdigits
  have hfit := bits_fit digits (Nat.not_lt.mp hdigits)
  -- The number of cells of width one is a power of two from here on.
  generalize hb : Nat.log2 (2 * 10 ^ digits - 1) = b at h hfit
  cases h
  -- The search for the number of groups ends when they reach the greatest number.
  have hpos := groupsFor_pos greatest 64 (2 ^ (b + 1))
  obtain ⟨hbeyond, hleast⟩ := groupsFor_spec greatest 64 (2 ^ (b + 1))
  generalize groupsFor greatest 64 (2 ^ (b + 1)) = groups at hpos hbeyond hleast
  have hreach : reach ⟨b + 1, groups, greatest⟩ = 2 ^ (b + 1) * 2 ^ (groups - 1) := by
    rw [reach, ← Nat.pow_add]
    simp only
    congr 1
    omega
  refine ⟨⟨⟨Nat.succ_pos _, hpos⟩, ?_, ?_⟩, rfl⟩
  · rw [hreach]
    rcases hbeyond with hbeyond | rfl
    · exact .inl hbeyond
    · -- With all the fuel used up, the cells reach beyond the words.
      right
      refine Nat.lt_of_lt_of_le (m := 1 * 2 ^ 64) (by decide) ?_
      exact Nat.mul_le_mul_right _ (Nat.two_pow_pos _)
  · intro hgreatest
    rw [hreach]
    rcases hleast with rfl | hleast
    · simpa using hfit
    · exact Nat.le_trans hleast (by simp only [wordMax] at hgreatest ⊢; omega)

end StoreBench.Layout

namespace StoreBench.Histogram

open Layout (Made)

variable {h other : Histogram}

/-- The largest number has a cell, and is not the largest word. -/
def Fits (h : Histogram) : Prop := h.largest < min h.layout.reach wordMax

/-- An empty histogram can be merged with any of its layout. -/
theorem fits_empty (l : Layout) : Fits (.empty l) := by
  rw [Fits, Nat.lt_min]
  exact ⟨Nat.two_pow_pos _, show 0 < wordMax by decide⟩

/-- What a number counts as has a cell, and is not the largest word unless
the number is. -/
theorem clamped_lt (hmade : h.layout.Made) {value : Nat}
    (hvalue : value < wordMax ∨ h.layout.reach ≤ wordMax) :
    h.clamped value < min h.layout.reach wordMax := by
  have hcell := Layout.cellOf_lt_size_iff hmade.toProper value
  have hgreatest := hmade.greatest_lt
  rw [clamped]
  split
  · rename_i hlt
    have := hcell.mp hlt
    omega
  · -- A number beyond the cells counts as the greatest, which has a cell.
    rename_i hle
    have hbeyond : h.layout.reach ≤ value := Nat.le_of_not_lt fun hlt => hle (hcell.mpr hlt)
    omega

/-- Recording keeps a histogram fit to be merged. -/
theorem Fits.record (hfits : h.Fits) (hmade : h.layout.Made) {value : Nat}
    (hvalue : value < wordMax ∨ h.layout.reach ≤ wordMax) : (h.record value).Fits := by
  have hclamped := clamped_lt hmade hvalue
  exact Nat.max_lt.mpr ⟨hfits, hclamped⟩

/-- The greatest number of a histogram that fits lies in the last cell at
most. -/
theorem greatest_le (hfits : other.Fits) (hproper : other.layout.Proper) :
    other.greatest ≤ other.layout.highest (other.layout.size - 1) := by
  rw [Layout.highest_last hproper, greatest]
  rw [Fits, Nat.lt_min] at hfits
  split
  · exact Nat.zero_le _
  · rw [Layout.highestLike, if_neg (Nat.ne_of_lt hfits.2), Layout.highest]
    have := Layout.lowest_add_width_le hproper hfits.1
    omega

/-- A histogram that fits is merged into one of the same layout, and the
total is the sum. -/
theorem merge?_of_fits (hproper : other.layout.Proper) (hfits : other.Fits)
    (hlayout : h.layout = other.layout) :
    ∃ merged, h.merge? other = some merged ∧ merged.layout = h.layout ∧
      merged.total = h.total + other.total := by
  have hle := greatest_le hfits hproper
  simp only [merge?, hlayout, and_self, if_true, if_neg (Nat.not_lt.mpr hle)]
  exact ⟨_, rfl, rfl, rfl⟩

end StoreBench.Histogram
