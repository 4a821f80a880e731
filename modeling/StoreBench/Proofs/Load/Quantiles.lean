import Mathlib.Data.List.Sort
import StoreBench.Proofs.Load.Counts
import StoreBench.Proofs.Number.Rounding

/-!
# `StoreBench.Proofs.Load.Quantiles`: quantiles by rank

A quantile runs through the cells of a histogram until their counts reach the rank of
the share that is asked for. As larger numbers have larger cells, it stops at the cell
of the sample that has this rank in order of size (`Histogram.Counts.cellAt_eq`). The
answer is the greatest number of that cell, which is as near to the sample as the
digits of the recorder say (`Layout.highest_cellOf_le`). Only the largest word is not
the greatest number of its cell (`Layout.highest_cellOf_wordMax`).

The rank is found by multiplying in binary64. What is off by that is far less than what
lies between the percentiles of a report (`Histogram.rank_percentiles`).
-/

set_option autoImplicit false

namespace StoreBench

/-! ### Ranks -/

/-- In order of size, a number has this rank: fewer are less, and as many at least are
not greater. -/
structure Ranked (values : List Nat) (k x : Nat) : Prop where
  below : values.countP (fun v => v < x) < k
  within : k ≤ values.countP fun v => v ≤ x

namespace Ranked

variable {values : List Nat} {k m x y : Nat}

/-- Ranks begin with one: a rank lies above the count of all smaller values. -/
theorem pos (hx : Ranked values k x) : 0 < k := Nat.zero_lt_of_lt hx.below

/-- Ranks end with the number of values, the rank of the largest one. -/
theorem le_length (hx : Ranked values k x) : k ≤ values.length :=
  Nat.le_trans hx.within List.countP_le_length

/-- A greater rank has no lesser number, whatever is repeated among the values. -/
theorem mono (hx : Ranked values k x) (hy : Ranked values m y) (h : k ≤ m) : x ≤ y := by
  refine Decidable.byContradiction fun hlt => ?_
  have hle : values.countP (fun v => v ≤ y) ≤ values.countP fun v => v < x := by
    refine List.countP_mono_left fun v _ hv => ?_
    rw [decide_eq_true_iff] at hv ⊢
    omega
  have hbelow := hx.below
  have hwithin := hy.within
  omega

/-- The number at a place in the order of size has the rank of that place. -/
theorem of_mergeSort (hk : 0 < k) (hx : values.mergeSort[k - 1]? = some x) :
    Ranked values k x := by
  have hsorted : values.mergeSort.Pairwise fun a b => a ≤ b := List.pairwise_mergeSort' _ _
  have hperm := List.mergeSort_perm values fun a b => a ≤ b
  obtain ⟨hlt, rfl⟩ := List.getElem?_eq_some_iff.mp hx
  generalize values.mergeSort = sorted at hsorted hperm hlt
  have hsplit : sorted.take (k - 1) ++ sorted[k - 1] :: sorted.drop k = sorted := by
    have hdrop := List.getElem_cons_drop hlt
    rw [Nat.sub_add_cancel hk] at hdrop
    rw [hdrop, List.take_append_drop]
  have hlength : (sorted.take (k - 1)).length = k - 1 := by
    rw [List.length_take]
    omega
  generalize sorted[k - 1] = x at hsplit
  rw [← hsplit] at hsorted
  obtain ⟨-, hrest, hfirst⟩ := List.pairwise_append.mp hsorted
  constructor
  · -- From the place on, nothing is less.
    have hnone : (x :: sorted.drop k).countP (fun v => v < x) = 0 := by
      rw [List.countP_eq_zero]
      intro v hv
      rw [decide_eq_true_iff, Nat.not_lt]
      rcases List.mem_cons.mp hv with rfl | hlater
      · exact Nat.le_refl _
      · exact List.rel_of_pairwise_cons hrest hlater
    have hle := List.countP_le_length (p := fun v => v < x) (l := sorted.take (k - 1))
    rw [← hperm.countP_eq, ← hsplit, List.countP_append, hnone]
    omega
  · -- Up to the place, nothing is greater.
    have hall : (sorted.take (k - 1)).countP (fun v => v ≤ x) = (sorted.take (k - 1)).length := by
      rw [List.countP_eq_length]
      intro v hv
      exact decide_eq_true (hfirst v hv x List.mem_cons_self)
    rw [← hperm.countP_eq, ← hsplit, List.countP_append, hall, hlength, List.countP_cons,
      if_pos (decide_eq_true (Nat.le_refl x))]
    omega

end Ranked

/-- There is a number for every rank: the one at this place when the values are sorted. -/
theorem exists_ranked {values : List Nat} {k : Nat} (hk : 0 < k) (hlength : k ≤ values.length) :
    ∃ x ∈ values, Ranked values k x := by
  have hlt : k - 1 < values.mergeSort.length := by
    rw [List.length_mergeSort]
    omega
  refine ⟨values.mergeSort[k - 1], ?_, .of_mergeSort hk (List.getElem?_eq_getElem hlt)⟩
  exact List.mem_mergeSort.mp (List.getElem_mem hlt)

/-! ### Running through the cells -/

namespace Histogram

/-- The cell at which the counts reach a target: those before do not, and with its own
they do. -/
theorem exists_cellAt (entries : List (Nat × Nat)) {target passed : Nat}
    (hpassed : passed < target) (htarget : target ≤ passed + (entries.map Prod.snd).sum) :
    ∃ before cell n after, entries = before ++ (cell, n) :: after ∧
      cellAt target passed entries = some cell ∧
      passed + (before.map Prod.snd).sum < target ∧
      target ≤ passed + (before.map Prod.snd).sum + n := by
  induction entries generalizing passed with
  | nil =>
      simp only [List.map_nil, List.sum_nil] at htarget
      omega
  | cons entry rest ih =>
      obtain ⟨cell, n⟩ := entry
      rw [List.map_cons, List.sum_cons] at htarget
      -- Either this cell reaches the target, or a later one does.
      by_cases hreached : target ≤ passed + n
      · refine ⟨[], cell, n, rest, rfl, by rw [cellAt, if_pos hreached], ?_, ?_⟩
        · simpa using hpassed
        · simpa using hreached
      · obtain ⟨before, cell', n', after, rfl, hcell, hbefore, hwith⟩ :=
          ih (Nat.not_le.mp hreached) (by omega)
        refine ⟨(cell, n) :: before, cell', n', after, rfl, ?_, ?_, ?_⟩
        · rw [cellAt, if_neg hreached, hcell]
        · rw [List.map_cons, List.sum_cons]
          omega
        · rw [List.map_cons, List.sum_cons]
          omega

/-- The cell at which the counts reach a target is one of those that were gone through. -/
theorem mem_of_cellAt {target passed cell : Nat} {entries : List (Nat × Nat)}
    (h : cellAt target passed entries = some cell) : ∃ n, (cell, n) ∈ entries := by
  induction entries generalizing passed with
  | nil => cases h
  | cons entry rest ih =>
      obtain ⟨first, n⟩ := entry
      rw [cellAt] at h
      split at h
      · cases h
        exact ⟨n, List.mem_cons_self⟩
      · obtain ⟨n', hmem⟩ := ih h
        exact ⟨n', List.mem_cons_of_mem _ hmem⟩

end Histogram

/-- Two properties that exclude each other are counted apart. -/
theorem countP_or_of_disjoint {α : Type} {p q : α → Bool} (items : List α)
    (h : ∀ a ∈ items, p a = true → q a = false) :
    items.countP (fun a => p a || q a) = items.countP p + items.countP q := by
  induction items with
  | nil => rfl
  | cons a rest ih =>
      obtain ⟨ha, hrest⟩ := List.forall_mem_cons.mp h
      rw [List.countP_cons, List.countP_cons, List.countP_cons, ih hrest]
      cases hp : p a with
      | true =>
          rw [ha hp]
          simp only [Bool.or_false, if_true, Bool.false_eq_true, if_false]
          omega
      | false =>
          simp only [Bool.false_or, Bool.false_eq_true, if_false]
          omega

/-- Entries with the counts of different cells come to the number of values in these
cells. -/
theorem Layout.sum_counts {l : Layout} {values : List Nat} {entries : List (Nat × Nat)}
    (hdistinct : entries.Pairwise fun a b => a.1 ≠ b.1)
    (hcounts : ∀ entry ∈ entries, l.count values entry.1 = entry.2) :
    (entries.map Prod.snd).sum
      = values.countP fun v => entries.any fun entry => l.cellOf (l.counted v) == entry.1 := by
  induction entries with
  | nil => simp
  | cons entry rest ih =>
      obtain ⟨hfirst, hrest⟩ := List.pairwise_cons.mp hdistinct
      obtain ⟨hentry, hothers⟩ := List.forall_mem_cons.mp hcounts
      rw [List.map_cons, List.sum_cons, ih hrest hothers, ← hentry, count,
        ← countP_or_of_disjoint]
      · rfl
      · intro v _ hv
        rw [List.any_eq_false]
        intro other hother
        rw [beq_iff_eq] at hv ⊢
        rw [hv]
        exact hfirst other hother

namespace Histogram.Counts

variable {h : Histogram} {values : List Nat} {k x : Nat}

/-- The cell of a value has an entry. -/
theorem exists_entry (hcounts : h.Counts values) (hinside : ∀ v ∈ values, h.layout.counted v = v)
    {v : Nat} (hv : v ∈ values) : ∃ n, (h.layout.cellOf v, n) ∈ h.counts.toList := by
  refine ⟨h.layout.count values (h.layout.cellOf v), (hcounts.mem_entries_iff _ _).mpr ⟨?_, rfl⟩⟩
  refine List.countP_pos_iff.mpr ⟨v, hv, ?_⟩
  rw [hinside v hv, beq_iff_eq]

/-- Entries in front that are told from the others by their cells come to the number of
values in such cells. -/
theorem sum_front (hcounts : h.Counts values) (hinside : ∀ v ∈ values, h.layout.counted v = v)
    {front back : List (Nat × Nat)} (hsplit : h.counts.toList = front ++ back) {p : Nat → Bool}
    (hfront : ∀ entry ∈ front, p entry.1 = true) (hback : ∀ entry ∈ back, p entry.1 = false) :
    (front.map Prod.snd).sum = values.countP fun v => p (h.layout.cellOf v) := by
  have hdistinct := distinct_entries h.counts
  rw [hsplit] at hdistinct
  have hentries : ∀ entry ∈ front, h.layout.count values entry.1 = entry.2 := by
    intro entry hentry
    have hmem : entry ∈ h.counts.toList := hsplit ▸ List.mem_append_left _ hentry
    exact ((hcounts.mem_entries_iff _ _).mp hmem).2
  -- Both sides count the values that went to the cells in front.
  rw [Layout.sum_counts (List.pairwise_append.mp hdistinct).1 hentries]
  refine List.countP_congr fun v hv => ?_
  obtain ⟨n, hmem⟩ := hcounts.exists_entry hinside hv
  rw [hinside v hv, List.any_eq_true]
  simp only [beq_iff_eq]
  constructor
  · rintro ⟨entry, hentry, hcell⟩
    rw [hcell]
    exact hfront entry hentry
  · intro hp
    rw [hsplit, List.mem_append] at hmem
    rcases hmem with hmem | hmem
    · exact ⟨_, hmem, rfl⟩
    · rw [hback _ hmem] at hp
      cases hp

/-- All entries come to all values, so that a rank within the values ends at some entry. -/
theorem sum_entries (hcounts : h.Counts values) (hinside : ∀ v ∈ values, h.layout.counted v = v) :
    (h.counts.toList.map Prod.snd).sum = values.length := by
  rw [hcounts.sum_front hinside (List.append_nil _).symm (p := fun _ => true)
    (fun _ _ => rfl) nofun, List.countP_eq_length]
  exact fun _ _ => rfl

/-- The counts reach a rank at the cell of the value of that rank. -/
theorem cellAt_eq (hcounts : h.Counts values) (hproper : h.layout.Proper)
    (hinside : ∀ v ∈ values, h.layout.counted v = v) (hx : Ranked values k x) :
    cellAt k 0 h.counts.toList = some (h.layout.cellOf x) := by
  -- All entries come to all values, so the rank is reached at some cell.
  have htotal := hcounts.sum_entries hinside
  have hlength := hx.le_length
  obtain ⟨before, cell, n, after, hsplit, hcell, hbelow, hwithin⟩ :=
    exists_cellAt h.counts.toList hx.pos (by omega)
  have hordered : (before ++ (cell, n) :: after).Pairwise fun a b => a.1 < b.1 := by
    rw [← hsplit]
    exact Std.ExtTreeMap.ordered_keys_toList.imp Nat.compare_eq_lt.mp
  obtain ⟨-, hrest, hfront⟩ := List.pairwise_append.mp hordered
  have hlater : ∀ entry ∈ after, cell < entry.1 := (List.pairwise_cons.mp hrest).1
  have hearlier : ∀ entry ∈ before, entry.1 < cell := fun entry hentry =>
    hfront entry hentry _ List.mem_cons_self
  have hlesser : (before.map Prod.snd).sum
      = values.countP fun v => h.layout.cellOf v < cell := by
    refine hcounts.sum_front hinside hsplit (p := fun c => c < cell) ?_ ?_
    · exact fun entry hentry => decide_eq_true (hearlier entry hentry)
    · intro entry hentry
      rw [decide_eq_false_iff_not, Nat.not_lt]
      rcases List.mem_cons.mp hentry with rfl | hentry
      · exact Nat.le_refl _
      · exact Nat.le_of_lt (hlater entry hentry)
  have hupTo : (before.map Prod.snd).sum + n
      = values.countP fun v => h.layout.cellOf v ≤ cell := by
    have hsplit' : h.counts.toList = (before ++ [(cell, n)]) ++ after := by
      rw [hsplit, List.append_assoc]
      rfl
    have hsum := hcounts.sum_front hinside hsplit' (p := fun c => c ≤ cell) ?_ ?_
    · rwa [List.map_append, List.sum_append, List.map_singleton, List.sum_singleton] at hsum
    · intro entry hentry
      rw [decide_eq_true_iff]
      rcases List.mem_append.mp hentry with hentry | hentry
      · exact Nat.le_of_lt (hearlier entry hentry)
      · cases List.mem_singleton.mp hentry
        exact Nat.le_refl _
    · exact fun entry hentry => decide_eq_false (Nat.not_le.mpr (hlater entry hentry))
  -- A value of another cell would have another rank.
  have hsame : cell = h.layout.cellOf x := by
    rcases Nat.lt_trichotomy cell (h.layout.cellOf x) with hlt | hsame | hgt
    · -- What lies in cells up to it would be less than the value: too few.
      have hle : values.countP (fun v => h.layout.cellOf v ≤ cell)
          ≤ values.countP fun v => v < x := by
        refine List.countP_mono_left fun v _ hv => ?_
        rw [decide_eq_true_iff] at hv ⊢
        refine Nat.lt_of_not_le fun hxv => ?_
        have := Layout.cellOf_mono hproper hxv
        omega
      have := hx.below
      omega
    · exact hsame
    · -- What is not greater than the value would lie in the cells before: too few again.
      have hle : values.countP (fun v => v ≤ x)
          ≤ values.countP fun v => h.layout.cellOf v < cell := by
        refine List.countP_mono_left fun v _ hv => ?_
        rw [decide_eq_true_iff] at hv ⊢
        exact Nat.lt_of_le_of_lt (Layout.cellOf_mono hproper hv) hgt
      have := hx.within
      omega
  rw [hcell, hsame]

/-- A quantile is a number of a cell that is in use, and the greatest is not less. -/
theorem quantile_le_greatest (hcounts : h.Counts values) (hproper : h.layout.Proper)
    (hwords : ∀ v ∈ values, h.layout.counted v ≤ wordMax) (q : Double) :
    h.quantile q ≤ h.greatest := by
  rw [Histogram.quantile]
  split
  · rename_i cell hcell
    obtain ⟨n, hentry⟩ := mem_of_cellAt hcell
    obtain ⟨hpos, rfl⟩ := (hcounts.mem_entries_iff _ _).mp hentry
    obtain ⟨v, hv, hcell⟩ := List.countP_pos_iff.mp hpos
    rw [beq_iff_eq] at hcell
    subst hcell
    have hgreatest := (hcounts.greatest_le_iff _).mp (Nat.le_refl _) v hv
    have hlow := Layout.lowest_cellOf_le hproper (h.layout.counted v)
    have hlike := Layout.le_highestLike hproper (hwords v hv)
    have hhigh := Layout.highest_le_highestLike h.layout (h.layout.counted v)
    split <;> omega
  · exact Nat.zero_le _

end Histogram.Counts

/-! ### Precision -/

namespace Layout

variable {l : Layout} {digits v : Nat}

/-- There are enough cells of width one for some digits, and not too many for a word. -/
structure Precise (l : Layout) (digits : Nat) : Prop where
  le_bits : 2 * 10 ^ digits ≤ 2 ^ l.bits
  bits_le : 2 ^ l.bits ≤ wordMax

/-- A layout that is made for some digits is precise to these digits. -/
theorem precise_of_make {greatest : Nat} (h : make greatest digits = .ok l) : l.Precise digits := by
  rw [make] at h
  split at h
  · cases h
  split at h
  · cases h
  rename_i hdigits
  cases h
  refine ⟨?_, bits_fit digits (Nat.not_lt.mp hdigits)⟩
  have hlog : 2 * 10 ^ digits - 1 < 2 ^ (Nat.log2 (2 * 10 ^ digits - 1) + 1) := Nat.lt_log2_self
  exact Nat.le_of_pred_lt hlog

/-- A number of no more digits has a cell of its own. -/
theorem highest_cellOf_eq (hproper : l.Proper) (hprecise : l.Precise digits)
    (hv : v < 2 * 10 ^ digits) : l.highest (l.cellOf v) = v := by
  have hbits := hprecise.le_bits
  have hword := hprecise.bits_le
  have hwidth : l.widthBits v = 0 := by
    rw [widthBits]
    split
    · rfl
    · rename_i hzero
      have := (Nat.log2_lt hzero).mpr (Nat.lt_of_lt_of_le hv hbits)
      omega
  rw [highest, lowest_cellOf hproper, width_cellOf hproper, hwidth, Nat.pow_zero, Nat.div_one,
    Nat.mul_one]
  omega

/-- The greatest number of a cell is greater by a share of these digits at most. -/
theorem highest_cellOf_le (hproper : l.Proper) (hprecise : l.Precise digits) (v : Nat) :
    l.highest (l.cellOf v) ≤ v + v / 10 ^ digits := by
  have hlow := lowest_cellOf_le hproper v
  have hwide : l.width (l.cellOf v) - 1 ≤ v / 10 ^ digits := by
    rw [width_cellOf hproper]
    rcases (quotient_bounds hproper v).1 with hone | hhalf
    · rw [hone]
      exact Nat.zero_le _
    · -- The number is as many times as wide as half of the cells of width one.
      have hten : 10 ^ digits ≤ l.half := by
        have := hprecise.le_bits
        rw [← two_half hproper] at this
        omega
      refine Nat.le_trans (Nat.sub_le _ _) ?_
      rw [Nat.le_div_iff_mul_le (Nat.pow_pos (by decide)), Nat.mul_comm]
      refine Nat.le_trans (Nat.mul_le_mul_right _ hten) ?_
      rwa [← Nat.le_div_iff_mul_le (Nat.two_pow_pos _)]
  rw [highest]
  omega

/-- The largest word counts as one less where it is told by its cell. -/
theorem highest_cellOf_wordMax (hproper : l.Proper) :
    l.highest (l.cellOf wordMax) = wordMax - 1 := by
  have := lt_lowest_add_width hproper wordMax
  rw [highest]
  omega

/-- A cell begins before it ends. The highest number of the last cell is cut to a word. -/
theorem lowest_le_highest (hproper : l.Proper) (hprecise : l.Precise digits) (hv : v ≤ wordMax) :
    l.lowest (l.cellOf v) ≤ l.highest (l.cellOf v) := by
  have hlow := lowest_cellOf_le hproper v
  have hhigh := lt_lowest_add_width hproper v
  -- The cell of the largest word has not width one, so it begins at an even number.
  have hword : l.lowest (l.cellOf v) ≠ wordMax := by
    intro hlowest
    obtain rfl : v = wordMax := by omega
    rw [lowest_cellOf hproper] at hlowest
    have hbits := hprecise.bits_le
    have hwidth : l.widthBits wordMax ≠ 0 := by
      intro hzero
      have hquotient := (quotient_bounds hproper wordMax).2
      rw [hzero, two_half hproper] at hquotient
      omega
    obtain ⟨b, hb⟩ := Nat.exists_eq_succ_of_ne_zero hwidth
    rw [hb, Nat.pow_succ, ← Nat.mul_assoc] at hlowest
    have : wordMax % 2 = 0 := by rw [← hlowest, Nat.mul_mod_left]
    exact absurd this (by decide)
  rw [highest]
  omega

end Layout

/-! ### Shares -/

/-- What is greater than zero is a share that is not zero. -/
theorem Recorder.isZero_share_of_pos {q : Double} (hq : Double.zero.lt q = true) :
    (share q).isZero = false := by
  obtain ⟨hnumber, hplace⟩ := (Double.zero_lt_iff q).mp hq
  have hzero : Double.zero.place = 0 := by decide
  have hlow : q.lt .zero = false := by
    simp only [Double.lt, hzero, Bool.and_eq_false_iff, decide_eq_false_iff_not]
    exact .inr (by omega)
  rw [share, hnumber, hlow]
  simp only [Bool.or_self, Bool.false_eq_true, if_false]
  split
  · decide
  · rw [← Bool.not_eq_true, ← Double.place_eq_zero_iff]
    omega

/-- Everything else is no share at all: what is below zero, and what is no number. -/
theorem Recorder.isZero_share_of_not_pos {q : Double} (hq : Double.zero.lt q = false) :
    (share q).isZero = true := by
  rw [share]
  split
  · decide
  · rename_i hnumber
    rw [Bool.or_eq_true, not_or, Bool.not_eq_true, Bool.not_eq_true] at hnumber
    obtain ⟨hnumber, hlow⟩ := hnumber
    have hzero : Double.zero.place = 0 := by decide
    have hnot : Double.zero.isNaN = false := by decide
    have hone : 0 < (Double.ofNat 1).place := by decide
    -- Neither below nor above zero, so it is at the place of zero.
    have hplace : q.place = 0 := by
      have hhigh := (Double.zero_lt_iff q).not.mp (by rw [hq]; exact Bool.false_ne_true)
      simp only [Double.lt, hzero, hnumber, hnot, Bool.not_false, Bool.true_and,
        decide_eq_false_iff_not] at hlow
      simp only [hnumber, true_and] at hhigh
      omega
    have hless : (Double.ofNat 1).lt q = false := by
      simp only [Double.lt, hplace, Bool.and_eq_false_iff, decide_eq_false_iff_not]
      exact .inr (by omega)
    rw [hless, if_neg Bool.false_ne_true, ← Double.place_eq_zero_iff]
    exact hplace

namespace Histogram

variable {q : Double} {n k : Nat}

/-- The rank of a share is the least whole number that is not below the share. -/
theorem rank_le_iff (hk : 0 < k) : rank q n ≤ k ↔ (q.mul (.ofNat n)).magnitude ≤ k := by
  have hden := (q.mul (.ofNat n)).fraction_pos
  have hden' : (0 : ℚ) < (q.mul (.ofNat n)).fraction.2 := by exact_mod_cast hden
  rw [rank, Double.magnitude, div_le_iff₀ hden']
  generalize (q.mul (.ofNat n)).fraction = parts at hden
  obtain ⟨num, den⟩ := parts
  change 0 < den at hden
  have hcast : (num : ℚ) ≤ k * den ↔ num ≤ k * den := by exact_mod_cast Iff.rfl
  have hdiv : (num + den - 1) / den ≤ k ↔ num ≤ k * den := by
    rw [← Nat.lt_succ_iff, Nat.div_lt_iff_lt_mul hden, Nat.succ_mul]
    omega
  rw [hcast, Nat.max_le, hdiv]
  exact and_iff_right hk

/-- A share of nothing still asks for the first value. -/
theorem rank_pos (q : Double) (n : Nat) : 0 < rank q n := Nat.le_max_left _ _

/-- No share at all has the first rank. -/
theorem rank_of_isZero (hq : q.isZero = true) (hn : 0 < n) (hword : n < 2 ^ 64) :
    rank q n = 1 := by
  refine Nat.le_antisymm ((rank_le_iff Nat.one_pos).mpr ?_) (rank_pos q n)
  have hzero := Double.mul_of_isZero hq (Double.ofNat_close hn hword).1
  rw [Double.magnitude, Double.fraction_of_isZero hzero]
  norm_num

/-- What is off by so little lies between these bounds. -/
theorem close_bounds {x c : ℚ} (hx : 0 ≤ x) (h : |c - x| ≤ x / 2 ^ 53) :
    9999 / 10000 * x ≤ c ∧ c ≤ 10001 / 10000 * x := by
  obtain ⟨hlow, hhigh⟩ := abs_le.mp h
  have hsmall : x / 2 ^ 53 ≤ x / 10000 := div_le_div_of_nonneg_left hx (by norm_num) (by norm_num)
  constructor
  · linarith
  · linarith

/-- A share of three quarters at least comes to its part of the whole, but for a
thousandth. -/
theorem share_close (num den : Nat) (hlow : 3 * den ≤ 4 * num) (hhigh : num ≤ den)
    (hden : 0 < den) (hn : 0 < n) (hword : n < 2 ^ 64) :
    999 / 1000 * ((num : ℚ) / den * n) ≤ ((Double.nearest false num den).mul (.ofNat n)).magnitude ∧
    ((Double.nearest false num den).mul (.ofNat n)).magnitude
      ≤ 1001 / 1000 * ((num : ℚ) / den * n) := by
  obtain ⟨hfinite, hshare⟩ := Double.nearest_close false hden (by omega)
    (Nat.le_trans hhigh (Nat.le_mul_of_pos_left _ (Nat.two_pow_pos _)))
  obtain ⟨hfinite', hwhole⟩ := Double.ofNat_close hn hword
  have hden' : (0 : ℚ) < den := by exact_mod_cast hden
  have hleast : (3 : ℚ) / 4 ≤ num / den := by
    rw [div_le_div_iff₀ (by norm_num) hden', mul_comm (num : ℚ)]
    exact_mod_cast hlow
  have hmost : (num : ℚ) / den ≤ 1 := by
    rw [div_le_one hden']
    exact_mod_cast hhigh
  have hone : (1 : ℚ) ≤ n := by exact_mod_cast hn
  have hlarge : (n : ℚ) ≤ 2 ^ 64 := by exact_mod_cast Nat.le_of_lt hword
  obtain ⟨hshareLow, hshareHigh⟩ := close_bounds (by linarith) hshare
  obtain ⟨hwholeLow, hwholeHigh⟩ := close_bounds (by linarith) hwhole
  have hmul := Double.mul_close hfinite hfinite'
  -- From here on it is arithmetic: two factors and their product, each a little off.
  generalize (Double.nearest false num den).mul (.ofNat n) = product at hmul ⊢
  generalize (Double.nearest false num den).magnitude = a at hmul hshareLow hshareHigh
  generalize (Double.ofNat n).magnitude = b at hmul hwholeLow hwholeHigh
  generalize (num : ℚ) / den = r at *
  generalize (n : ℚ) = w at *
  have hpositive : 3 / 4 * 1 ≤ r * w := mul_le_mul hleast hone (by norm_num) (by linarith)
  have hbounded : r * w ≤ 1 * 2 ^ 64 := mul_le_mul hmost hlarge (by linarith) (by norm_num)
  have hbelow : 9999 / 10000 * r * (9999 / 10000 * w) ≤ a * b :=
    mul_le_mul hshareLow hwholeLow (by linarith) (by linarith)
  have habove : a * b ≤ 10001 / 10000 * r * (10001 / 10000 * w) :=
    mul_le_mul hshareHigh hwholeHigh (by linarith) (by linarith)
  have hproduct := hmul (by linarith) (by linarith)
  obtain ⟨hproductLow, hproductHigh⟩ := close_bounds (by linarith) hproduct
  constructor
  · linarith
  · linarith

/-- A share of ninety-five in a hundred has no greater rank than one of ninety-nine, and
that has a rank among all. -/
theorem rank_percentiles (hn : 0 < n) (hword : n < 2 ^ 64) :
    rank (.nearest false 95 100) n ≤ rank (.nearest false 99 100) n ∧
    rank (.nearest false 99 100) n ≤ n := by
  obtain ⟨-, hless⟩ := share_close 95 100 (by decide) (by decide) (by decide) hn hword
  obtain ⟨hmore, hmost⟩ := share_close 99 100 (by decide) (by decide) (by decide) hn hword
  have hpos : (0 : ℚ) < n := by exact_mod_cast hn
  push_cast at hless hmore hmost
  refine ⟨(rank_le_iff (rank_pos _ _)).mpr ?_, (rank_le_iff hn).mpr ?_⟩
  · have hrank := (rank_le_iff (rank_pos (.nearest false 99 100) n)).mp (Nat.le_refl _)
    linarith
  · linarith

end Histogram

/-! ### Recorders -/

namespace Recorder

/-- A recorder with the precision of these digits, of samples that all have cells. -/
structure Sampled (r : Recorder) (digits : Nat) (samples : List Nat) : Prop where
  counts : r.histogram.Counts samples
  proper : r.histogram.layout.Proper
  precise : r.histogram.layout.Precise digits
  inside : ∀ v ∈ samples, r.histogram.layout.counted v = v
  word : ∀ v ∈ samples, v ≤ wordMax
  nonempty : samples ≠ []

/-- Samples within the configured maximum all have cells, and are recorded as they are. -/
theorem sampled_foldl {limits : LatencyConfig} {l : Layout} {samples : List Nat}
    (hrange : Layout.make limits.maxMicros limits.significantFigures = .ok l)
    (hword : limits.maxMicros ≤ wordMax) (hsamples : ∀ v ∈ samples, v ≤ limits.maxMicros)
    (hne : samples ≠ []) :
    Sampled (samples.foldl recordMicros ⟨.empty l⟩) limits.significantFigures samples := by
  obtain ⟨hmade, hgreatest⟩ := Layout.made_of_make hrange
  have hvalues : ∀ v ∈ samples, v ≤ wordMax := fun v hv => Nat.le_trans (hsamples v hv) hword
  obtain ⟨hlayout, hcounts⟩ := Histogram.counts_of_empty hmade.toProper (hgreatest ▸ hword) hvalues
  have hhistogram : (samples.foldl recordMicros ⟨.empty l⟩).histogram
      = samples.foldl Histogram.record (.empty l) :=
    (List.foldl_hom Recorder.histogram fun _ _ => rfl).symm
  rw [← hhistogram] at hlayout hcounts
  refine ⟨hcounts, by rw [hlayout]; exact hmade.toProper,
    by rw [hlayout]; exact Layout.precise_of_make hrange, ?_, hvalues, hne⟩
  intro v hv
  have hreach : v < l.reach := by
    have := hsamples v hv
    have := hmade.greatest_lt
    omega
  rw [hlayout, Layout.counted, if_pos ((Layout.cellOf_lt_size_iff hmade.toProper v).mpr hreach)]

namespace Sampled

variable {r : Recorder} {digits : Nat} {samples : List Nat} {q : Double} {x : Nat}

/-- There is a sample at least. -/
theorem length_pos (h : Sampled r digits samples) : 0 < samples.length :=
  List.length_pos_iff.mpr h.nonempty

/-- So the recorder is not empty. -/
theorem isEmpty_eq (h : Sampled r digits samples) : r.isEmpty = false := by
  have := h.length_pos
  rw [isEmpty, size, h.counts.total_eq, beq_eq_false_iff_ne]
  omega

/-- A quantile is read off the cell of the sample with its rank. -/
theorem quantile_eq (h : Sampled r digits samples)
    (hx : Ranked samples (Histogram.rank (share q) samples.length) x) :
    r.quantile q = .ofMicros (if (share q).isZero
      then r.histogram.layout.lowest (r.histogram.layout.cellOf x)
      else r.histogram.layout.highest (r.histogram.layout.cellOf x)) := by
  rw [quantile, h.isEmpty_eq, if_neg Bool.false_ne_true, Histogram.quantile, h.counts.total_eq,
    h.counts.cellAt_eq h.proper h.inside hx]

/-- A proper share is answered with the highest number of the cell of the sample at its
rank. -/
theorem quantile_of_pos (h : Sampled r digits samples) (hq : Double.zero.lt q = true)
    (hx : Ranked samples (Histogram.rank (share q) samples.length) x) :
    r.quantile q = .ofMicros (r.histogram.layout.highest (r.histogram.layout.cellOf x)) := by
  rw [h.quantile_eq hx, isZero_share_of_pos hq, if_neg Bool.false_ne_true]

/-- No share is answered with the lowest number of the cell of the least sample. -/
theorem quantile_of_not_pos (h : Sampled r digits samples) (hlength : samples.length < 2 ^ 64)
    (hq : Double.zero.lt q = false) (hx : Ranked samples 1 x) :
    r.quantile q = .ofMicros (r.histogram.layout.lowest (r.histogram.layout.cellOf x)) := by
  have hzero := isZero_share_of_not_pos hq
  have hrank := Histogram.rank_of_isZero hzero h.length_pos hlength
  rw [h.quantile_eq (hrank.symm ▸ hx), if_pos hzero]

/-- More microseconds are a longer span. -/
theorem ofMicros_mono {m n : Nat} (h : m ≤ n) : (Span.ofMicros m).nanos ≤ (Span.ofMicros n).nanos :=
  Nat.mul_le_mul_right _ h

/-- No quantile is greater than the greatest, as that is the end of the last cell in
use. -/
theorem quantile_le_greatest (h : Sampled r digits samples) (q : Double) :
    (r.quantile q).nanos ≤ r.greatest.nanos := by
  rw [quantile, greatest, h.isEmpty_eq, if_neg Bool.false_ne_true, if_neg Bool.false_ne_true]
  refine ofMicros_mono (h.counts.quantile_le_greatest h.proper (fun v hv => ?_) (share q))
  rw [h.inside v hv]
  exact h.word v hv

/-- A quantile is as near to the sample of its rank as the digits say. -/
theorem quantile_close (h : Sampled r digits samples) (hq : Double.zero.lt q = true)
    (hx : samples.mergeSort[Histogram.rank (share q) samples.length - 1]? = some x) :
    ∃ v, r.quantile q = .ofMicros v ∧ v ≤ x + x / 10 ^ digits ∧
      (x < 2 * 10 ^ digits → v = x) ∧ (x ≠ wordMax → x ≤ v) ∧
      (x = wordMax → v = wordMax - 1) := by
  have hranked := Ranked.of_mergeSort (Histogram.rank_pos _ _) hx
  have hword := h.word x (List.mem_mergeSort.mp (List.mem_of_getElem? hx))
  refine ⟨_, h.quantile_of_pos hq hranked, Layout.highest_cellOf_le h.proper h.precise x,
    Layout.highest_cellOf_eq h.proper h.precise, ?_, ?_⟩
  · intro hne
    exact Layout.le_highest_cellOf h.proper (by omega)
  · rintro rfl
    exact Layout.highest_cellOf_wordMax h.proper

/-- A greater rank has no lesser answer, as cells follow each other like their numbers. -/
theorem quantile_mono (h : Sampled r digits samples) {q' : Double}
    (hq : Double.zero.lt q = true) (hq' : Double.zero.lt q' = true)
    (hle : Histogram.rank (share q) samples.length ≤ Histogram.rank (share q') samples.length)
    (hrank : Histogram.rank (share q') samples.length ≤ samples.length) :
    (r.quantile q).nanos ≤ (r.quantile q').nanos := by
  obtain ⟨x, -, hx⟩ := exists_ranked (Histogram.rank_pos _ _) (Nat.le_trans hle hrank)
  obtain ⟨y, -, hy⟩ := exists_ranked (Histogram.rank_pos _ _) hrank
  rw [h.quantile_of_pos hq hx, h.quantile_of_pos hq' hy]
  exact ofMicros_mono (Layout.highest_cellOf_mono h.proper (hx.mono hy hle))

/-- No share at all is answered with the least number of the first cell. -/
theorem quantile_le_of_not_pos (h : Sampled r digits samples) {q' : Double}
    (hlength : samples.length < 2 ^ 64) (hq : Double.zero.lt q = false)
    (hq' : Double.zero.lt q' = true)
    (hrank : Histogram.rank (share q') samples.length ≤ samples.length) :
    (r.quantile q).nanos ≤ (r.quantile q').nanos := by
  obtain ⟨x, hmem, hx⟩ := exists_ranked Nat.one_pos h.length_pos
  obtain ⟨y, -, hy⟩ := exists_ranked (Histogram.rank_pos _ _) hrank
  rw [h.quantile_of_not_pos hlength hq hx, h.quantile_of_pos hq' hy]
  have hfirst := Layout.highest_cellOf_mono h.proper (hx.mono hy (Histogram.rank_pos _ _))
  exact ofMicros_mono (Nat.le_trans
    (Layout.lowest_le_highest h.proper h.precise (h.word x hmem)) hfirst)

/-- The percentiles of a report are in order. -/
theorem percentiles_mono (h : Sampled r digits samples) (hlength : samples.length < 2 ^ 64) :
    (r.quantile (.nearest false 95 100)).nanos ≤ (r.quantile (.nearest false 99 100)).nanos := by
  obtain ⟨hle, hrank⟩ := Histogram.rank_percentiles h.length_pos hlength
  exact h.quantile_mono (by decide) (by decide) hle hrank

end Sampled

/-- A recorder of samples in its range answers for a share with the sample of the rank
that the share has, up to the precision of the recorder: not with less, unless that
sample is the largest word, and not with more than a part of it of that many digits. A
greater rank has no lesser answer, and no answer is greater than the greatest or less
than that for no share at all. So the percentiles of a report are in order. -/
theorem quantiles_by_rank {limits : LatencyConfig} (hvalid : limits.validate = .ok ())
    (hword : limits.maxMicros ≤ wordMax) :
    ∃ template, make limits = .ok template ∧
      ∀ samples : List Nat, samples ≠ [] → samples.length < 2 ^ 64 →
        (∀ v ∈ samples, v ≤ limits.maxMicros) →
        let r := samples.foldl recordMicros template
        let rank := fun q => Histogram.rank (share q) samples.length
        (∀ q x, Double.zero.lt q = true → samples.mergeSort[rank q - 1]? = some x →
          ∃ v, r.quantile q = .ofMicros v ∧
            v ≤ x + x / 10 ^ limits.significantFigures ∧
            (x < 2 * 10 ^ limits.significantFigures → v = x) ∧
            (x ≠ wordMax → x ≤ v) ∧ (x = wordMax → v = wordMax - 1)) ∧
        (∀ q q', Double.zero.lt q = true → Double.zero.lt q' = true → rank q ≤ rank q' →
          rank q' ≤ samples.length → (r.quantile q).nanos ≤ (r.quantile q').nanos) ∧
        (∀ q q', Double.zero.lt q = false → Double.zero.lt q' = true →
          rank q' ≤ samples.length → (r.quantile q).nanos ≤ (r.quantile q').nanos) ∧
        (∀ q, (r.quantile q).nanos ≤ r.greatest.nanos) ∧
        (r.quantile (.nearest false 95 100)).nanos ≤ (r.quantile (.nearest false 99 100)).nanos ∧
        (r.quantile (.nearest false 99 100)).nanos ≤ r.greatest.nanos := by
  obtain ⟨l, hrange, hmake⟩ := LatencyConfig.make_of_validate hvalid
  refine ⟨⟨.empty l⟩, hmake, ?_⟩
  intro samples hne hlength hsamples r rank
  have hr : Sampled r limits.significantFigures samples := sampled_foldl hrange hword hsamples hne
  exact ⟨fun _ _ => hr.quantile_close, fun _ _ => hr.quantile_mono,
    fun _ _ => hr.quantile_le_of_not_pos hlength, hr.quantile_le_greatest,
    hr.percentiles_mono hlength, hr.quantile_le_greatest _⟩

/-- Three samples: the middle one is answered exactly, the last to three digits. -/
theorem quantiles_by_rank_three :
    (({} : LatencyConfig).validate = .ok () ∧ ({} : LatencyConfig).maxMicros ≤ wordMax) ∧
    ∃ template, make {} = .ok template ∧
      let r := [5, 1999, 70000].foldl recordMicros template
      r.quantile (.nearest false 1 2) = .ofMicros 1999 ∧
      ∃ v, r.quantile (.nearest false 99 100) = .ofMicros v ∧ 70000 ≤ v ∧ v ≤ 70070 := by
  have hvalid : ({} : LatencyConfig).validate = .ok () := rfl
  have hword : ({} : LatencyConfig).maxMicros ≤ wordMax := by decide
  obtain ⟨template, hmake, hsamples⟩ := quantiles_by_rank hvalid hword
  obtain ⟨hranks, -⟩ := hsamples [5, 1999, 70000] (by decide) (by decide) (by decide)
  have hsorted : [5, 1999, 70000].mergeSort = [5, 1999, 70000] :=
    List.mergeSort_of_pairwise (by decide)
  have hmiddle : Histogram.rank (share (.nearest false 1 2)) 3 = 2 := by decide +kernel
  have hlast : Histogram.rank (share (.nearest false 99 100)) 3 = 3 := by decide +kernel
  refine ⟨⟨hvalid, hword⟩, template, hmake, ?_, ?_⟩
  · obtain ⟨v, hv, -, hexact, -⟩ := hranks (.nearest false 1 2) 1999 (by decide)
      (by rw [hsorted]; exact congrArg (fun k => [5, 1999, 70000][k - 1]?) hmiddle)
    rw [hv, hexact (by decide)]
  · obtain ⟨v, hv, hmost, -, hleast, -⟩ := hranks (.nearest false 99 100) 70000 (by decide)
      (by rw [hsorted]; exact congrArg (fun k => [5, 1999, 70000][k - 1]?) hlast)
    exact ⟨v, hv, hleast (by decide), hmost⟩

/-- In the widest range, the quantile for the largest word is less than the only sample,
while the greatest is that sample. -/
theorem not_always_quantiles_by_rank :
    LatencyConfig.widest.validate = .ok () ∧
    ∃ template, make .widest = .ok template ∧
      let r := [wordMax].foldl recordMicros template
      Histogram.rank (share (.ofNat 1)) 1 = 1 ∧
      r.quantile (.ofNat 1) = .ofMicros (wordMax - 1) ∧ r.greatest = .ofMicros wordMax := by
  have hrank : Histogram.rank (share (.ofNat 1)) 1 = 1 := by decide +kernel
  have hrange : Layout.make LatencyConfig.widest.maxMicros LatencyConfig.widest.significantFigures
      = .ok ⟨11, 54, wordMax⟩ := by rfl
  have hr : Sampled ([wordMax].foldl recordMicros ⟨.empty ⟨11, 54, wordMax⟩⟩)
      LatencyConfig.widest.significantFigures [wordMax] :=
    sampled_foldl hrange (Nat.le_refl _) (List.forall_mem_singleton.mpr (Nat.le_refl _))
      (List.cons_ne_nil _ _)
  refine ⟨rfl, ⟨.empty ⟨11, 54, wordMax⟩⟩, by rfl, hrank, ?_, ?_⟩
  · have hx : Ranked [wordMax] (Histogram.rank (share (.ofNat 1)) [wordMax].length) wordMax := by
      rw [List.length_singleton, hrank]
      exact ⟨by decide, by decide⟩
    rw [hr.quantile_of_pos (by decide) hx, Layout.highest_cellOf_wordMax hr.proper]
  · decide +kernel

end Recorder

end StoreBench
