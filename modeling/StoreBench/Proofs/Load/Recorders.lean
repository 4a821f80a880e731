import StoreBench.Proofs.Load.Quantiles

/-!
# `StoreBench.Proofs.Load.Recorders`: recorders of one origin

`Recorder.Derived` holds of what becomes of a template: of the template itself, of
empty copies, of recorders after one more latency, and of those that another one was
merged into. It goes along with the list of all latencies that went in, so a derived
recorder has the layout of its template and has counted just that list
(`Derived.counted`). All there is to say of derived recorders follows from this.

`accepted_limits_work` says it for limits that the settings allow. The cells reach
beyond the greatest latency, no latency is counted outside of them, and none of the
cells that a mean, a quantile or a merge goes through lies outside. Two derived
recorders can be merged unless the range goes beyond half of the words and the
largest word went into the second one (`not_always_merged`).
-/

set_option autoImplicit false

namespace StoreBench

/-! ### Cells for every word -/

namespace Layout

variable {l : Layout} {greatest digits v : Nat}

/-- One group of cells is enough, or they reach no further than twice the greatest
number. -/
theorem reach_eq_or_le (h : make greatest digits = .ok l) :
    l.reach = 2 ^ l.bits ∨ l.reach ≤ 2 * greatest := by
  simp only [make] at h
  split at h
  · cases h
  split at h
  · cases h
  cases h
  generalize Nat.log2 (2 * 10 ^ digits - 1) = b
  have hpos := groupsFor_pos greatest 64 (2 ^ (b + 1))
  obtain ⟨-, hleast⟩ := groupsFor_spec greatest 64 (2 ^ (b + 1))
  simp only [reach]
  rcases hleast with hone | hleast
  · rw [hone]
    exact .inl rfl
  · have hpow : b + 1 - 1 + groupsFor greatest 64 (2 ^ (b + 1))
        = b + 1 + (groupsFor greatest 64 (2 ^ (b + 1)) - 1) := by omega
    rw [hpow, Nat.pow_add]
    exact .inr hleast

/-- Cells for words reach to the end of the words at most. -/
theorem reach_le_words (h : make greatest digits = .ok l) (hword : greatest ≤ wordMax) :
    l.reach ≤ 2 ^ 64 := by
  rcases reach_eq_or_le h with hone | htwice
  · have hbits := (precise_of_make h).bits_le
    rw [hone]
    exact Nat.le_trans hbits (by decide)
  · -- It is a power of two, so less than the next one after the words is not beyond them.
    have hpow : l.bits - 1 + l.groups < 65 := by
      refine (Nat.pow_lt_pow_iff_right (a := 2) (by decide)).mp ?_
      exact Nat.lt_of_le_of_lt htwice (by simp only [wordMax] at hword; omega)
    exact Nat.pow_le_pow_right (by decide) (by omega)

/-- What a word counts as has a cell. -/
theorem cellOf_counted_lt (hmade : l.Made) (hgreatest : l.greatest ≤ wordMax) (v : Nat) :
    l.cellOf (l.counted v) < l.size := by
  rw [counted]
  split
  · assumption
  · rw [cellOf_lt_size_iff hmade.toProper]
    have := hmade.greatest_lt
    omega

end Layout

/-- One digit, and a range of just more than half of the words. -/
def LatencyConfig.coarse : LatencyConfig := { maxMicros := 2 ^ 63, significantFigures := 1 }

namespace Recorder

/-- Recorders that come of a template, with the microseconds that went into each, all
of them words. -/
inductive Derived (template : Recorder) : Recorder → List Nat → Prop
  | template : Derived template template []
  | fresh {r : Recorder} {values : List Nat} (h : Derived template r values) :
      Derived template r.fresh []
  | recordMicros {r : Recorder} {values : List Nat} {v : Nat} (h : Derived template r values)
      (hv : v ≤ wordMax) : Derived template (r.recordMicros v) (v :: values)
  | record {r : Recorder} {values : List Nat} (h : Derived template r values) (s : Span) :
      Derived template (r.record s) (s.micros :: values)
  | merge {r s merged : Recorder} {values others : List Nat} (hr : Derived template r values)
      (hs : Derived template s others) (hmerge : r.merge s = .ok merged) :
      Derived template merged (values ++ others)

variable {limits : LatencyConfig} {l : Layout} {r s merged : Recorder} {values others : List Nat}

/-- Recorders of one layout are merged by adding up. -/
theorem histogram_of_merge (hlayout : r.histogram.layout = s.histogram.layout)
    (h : r.merge s = .ok merged) : merged.histogram = r.histogram.sum s.histogram := by
  rw [merge, Histogram.merge?_eq hlayout] at h
  split at h
  · rename_i summed hsome
    cases h
    split at hsome
    · exact (Option.some.inj hsome).symm
    · cases hsome
  · cases h

namespace Derived

section Made

variable (hrange : Layout.make limits.maxMicros limits.significantFigures = .ok l)
  (hword : limits.maxMicros ≤ wordMax)
include hrange hword

/-- A derived recorder has counted what went into it. -/
theorem counted (h : Derived ⟨.empty l⟩ r values) :
    r.histogram.layout = l ∧ r.histogram.Counts values ∧ ∀ v ∈ values, v ≤ wordMax := by
  obtain ⟨hmade, hgreatest⟩ := Layout.made_of_make hrange
  have hone {r : Recorder} {values : List Nat} {v : Nat} (hv : v ≤ wordMax)
      (ih : r.histogram.layout = l ∧ r.histogram.Counts values ∧ ∀ v ∈ values, v ≤ wordMax) :
      (r.recordMicros v).histogram.layout = l ∧
        (r.recordMicros v).histogram.Counts (v :: values) ∧ ∀ u ∈ v :: values, u ≤ wordMax := by
    obtain ⟨rfl, hcounts, hwords⟩ := ih
    exact ⟨rfl, hcounts.record hmade.toProper (hgreatest ▸ hword) hv,
      List.forall_mem_cons.mpr ⟨hv, hwords⟩⟩
  induction h with
  | template => exact ⟨rfl, Histogram.counts_empty l, nofun⟩
  | fresh h ih =>
      obtain ⟨rfl, -, -⟩ := ih
      exact ⟨rfl, Histogram.counts_empty _, nofun⟩
  | recordMicros h hv ih => exact hone hv ih
  | record h s ih => exact hone (Nat.min_le_right _ _) ih
  | merge hr hs hmerge ihr ihs =>
      obtain ⟨rfl, hcounts, hwords⟩ := ihr
      obtain ⟨hlayout, hothers, hwords'⟩ := ihs
      rw [histogram_of_merge hlayout.symm hmerge]
      exact ⟨rfl, hcounts.sum hothers hmade.toProper hlayout.symm,
        List.forall_mem_append.mpr ⟨hwords, hwords'⟩⟩

/-- Every cell in use is one of the layout. -/
theorem cell_lt (h : Derived ⟨.empty l⟩ r values) {entry : Nat × Nat}
    (hentry : entry ∈ r.histogram.counts.toList) : entry.1 < l.size := by
  obtain ⟨hmade, hgreatest⟩ := Layout.made_of_make hrange
  obtain ⟨rfl, hcounts, -⟩ := h.counted hrange hword
  obtain ⟨hpos, hcount⟩ := (hcounts.mem_entries_iff _ _).mp hentry
  rw [← hcount] at hpos
  obtain ⟨v, -, hcell⟩ := List.countP_pos_iff.mp hpos
  rw [← beq_iff_eq.mp hcell]
  exact Layout.cellOf_counted_lt hmade (hgreatest ▸ hword) v

/-- When two derived recorders can be merged. -/
theorem merge_eq (hr : Derived ⟨.empty l⟩ r values) (hs : Derived ⟨.empty l⟩ s others) :
    r.merge s = if limits.maxMicros < 2 ^ 63 ∨ wordMax ∉ others
      then .ok ⟨r.histogram.sum s.histogram⟩
      else .error (.internal "latency merge: OtherAddendValueExceedsRange") := by
  have hmade := (Layout.made_of_make hrange).1
  obtain ⟨rfl, -, -⟩ := hr.counted hrange hword
  obtain ⟨hlayout, hothers, hwords⟩ := hs.counted hrange hword
  -- Only the largest word counts like none of the cells, where these reach beyond the words.
  have hmergeable : (∀ v ∈ others, r.histogram.layout.highestLike (r.histogram.layout.counted v)
      ≤ r.histogram.layout.highest (r.histogram.layout.size - 1)) ↔
        limits.maxMicros < 2 ^ 63 ∨ wordMax ∉ others := by
    rw [Layout.highestLike_all_iff hmade hwords, LatencyConfig.reach_le_iff hrange]
    refine or_congr_right ⟨fun hbelow hlast => Nat.lt_irrefl _ (hbelow _ hlast), ?_⟩
    intro hnone v hv
    refine Nat.lt_of_le_of_ne (hwords v hv) ?_
    rintro rfl
    exact hnone hv
  rw [Recorder.merge, hothers.merge?_eq hlayout.symm]
  by_cases h : limits.maxMicros < 2 ^ 63 ∨ wordMax ∉ others
  · rw [if_pos h, if_pos (hmergeable.mpr h)]
  · rw [if_neg h, if_neg (mt hmergeable.mp h)]

end Made

end Derived

/-- Limits that the settings allow work. A recorder can be made of them, with cells
beyond the greatest latency and none beyond the words. All recorders that are derived
from it have these cells: each word is counted in one of them, and there are no counts
that a mean, a quantile or a merge would go through anywhere else. Two of them can be
merged, unless the range goes beyond half of the words and the largest word went into
the second. -/
theorem accepted_limits_work {limits : LatencyConfig} (hvalid : limits.validate = .ok ())
    (hword : limits.maxMicros ≤ wordMax) :
    ∃ template, make limits = .ok template ∧
      let l := template.histogram.layout
      limits.maxMicros < l.reach ∧ l.reach ≤ 2 ^ 64 ∧
      ∀ r values, Derived template r values →
        r.histogram.layout = l ∧
        (∀ v ≤ wordMax, l.cellOf (r.histogram.clamped v) < l.size) ∧
        (∀ entry ∈ r.histogram.counts.toList, entry.1 < l.size) ∧
        ∀ s others, Derived template s others →
          ((∃ merged, r.merge s = .ok merged) ↔ limits.maxMicros < 2 ^ 63 ∨ wordMax ∉ others) := by
  obtain ⟨l, hrange, hmake⟩ := LatencyConfig.make_of_validate hvalid
  obtain ⟨hmade, hgreatest⟩ := Layout.made_of_make hrange
  have hreach : limits.maxMicros < l.reach := by
    have := hmade.greatest_lt
    omega
  refine ⟨⟨.empty l⟩, hmake, hreach, Layout.reach_le_words hrange hword, ?_⟩
  intro r values hr
  obtain ⟨rfl, -, -⟩ := hr.counted hrange hword
  refine ⟨rfl, fun v _ => Layout.cellOf_counted_lt hmade (hgreatest ▸ hword) v,
    fun entry hentry => hr.cell_lt hrange hword hentry, ?_⟩
  intro s others hs
  rw [hr.merge_eq hrange hword hs]
  split
  · rename_i hcan
    exact ⟨fun _ => hcan, fun _ => ⟨_, rfl⟩⟩
  · rename_i hcannot
    exact ⟨nofun, fun hcan => absurd hcan hcannot⟩

/-- With the usual limits even the largest word can be merged, and into a recorder that
it went into already. -/
theorem accepted_limits_work_usual :
    (({} : LatencyConfig).validate = .ok () ∧ ({} : LatencyConfig).maxMicros ≤ wordMax) ∧
    ∃ template, make {} = .ok template ∧
      ∃ merged, (template.recordMicros wordMax).merge (template.fresh.recordMicros wordMax)
        = .ok merged := by
  have hvalid : ({} : LatencyConfig).validate = .ok () := rfl
  have hword : ({} : LatencyConfig).maxMicros ≤ wordMax := by decide
  obtain ⟨template, hmake, -, -, hderived⟩ := accepted_limits_work hvalid hword
  refine ⟨⟨hvalid, hword⟩, template, hmake, ?_⟩
  have hmerges := (hderived _ _ (.recordMicros .template (Nat.le_refl _))).2.2.2 _ _
    (.recordMicros (.fresh .template) (Nat.le_refl _))
  exact hmerges.mpr (.inl (by decide))

/-- With one digit and just more than half of the words for its range, a recorder that
the largest word went into is refused, although the settings allow these limits. -/
theorem not_always_merged :
    LatencyConfig.coarse.validate = .ok () ∧
    ∃ template, make .coarse = .ok template ∧
      ∃ s, Derived template s [wordMax] ∧ ∀ merged, template.merge s ≠ .ok merged := by
  have hvalid : LatencyConfig.coarse.validate = .ok () := rfl
  obtain ⟨l, hrange, hmake⟩ := LatencyConfig.make_of_validate hvalid
  have hs : Derived ⟨.empty l⟩ (fresh ⟨.empty l⟩ |>.recordMicros wordMax) [wordMax] :=
    .recordMicros (.fresh .template) (Nat.le_refl _)
  refine ⟨hvalid, _, hmake, _, hs, fun merged => ?_⟩
  rw [Derived.template.merge_eq hrange (by decide) hs, if_neg (by decide)]
  nofun

end Recorder

end StoreBench
