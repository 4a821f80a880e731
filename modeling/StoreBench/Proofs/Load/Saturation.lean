import StoreBench.Proofs.Load.Recorders
import StoreBench.Proofs.Load.Sharing

/-!
# `StoreBench.Proofs.Load.Saturation`: latencies beyond the range

The cells of a recorder reach beyond its range, up to a power of two. A latency beyond
all cells counts as the greatest of the range. One that is beyond the range and has a
cell all the same counts as itself.

All that is read off a recorder goes by what its latencies are reported as, each by
the greatest number that counts like it (`Histogram.Counts.report`). So the question
which latencies saturate is one about `Layout.report` alone, and `Layout.Bounded` has
the answer: those beyond all cells, and those in the cell of the greatest of the range
(`report_le_top_iff`). `Recorder.saturates_iff_bounded` puts this in terms of recorders.
-/

set_option autoImplicit false

namespace StoreBench

/-! ### What is reported -/

namespace Layout

variable {l : Layout} {u v : Nat}

/-- What a number is reported as: the greatest that counts like it. -/
def report (l : Layout) (v : Nat) : Nat := l.highestLike (l.counted v)

/-- What the greatest number of the range is reported as. -/
def top (l : Layout) : Nat := l.highestLike l.greatest

/-- A number is not above the top, or it is beyond all cells. -/
def Bounded (l : Layout) (v : Nat) : Prop := v ≤ l.top ∨ l.reach ≤ v

instance (l : Layout) (v : Nat) : Decidable (l.Bounded v) := inferInstanceAs (Decidable (_ ∨ _))

/-- A number with a cell is counted as itself. -/
theorem counted_of_lt (hproper : l.Proper) (h : v < l.reach) : l.counted v = v :=
  if_pos ((cellOf_lt_size_iff hproper v).mpr h)

/-- A number beyond the cells is counted as the greatest. -/
theorem counted_of_le (hproper : l.Proper) (h : l.reach ≤ v) : l.counted v = l.greatest :=
  if_neg ((cellOf_lt_size_iff hproper v).not.mpr (Nat.not_lt.mpr h))

section Made

variable (hmade : l.Made) (hgreatest : l.greatest ≤ wordMax)
include hmade hgreatest

/-- A number that something is reported as counts as itself. -/
theorem counted_report (hv : v ≤ wordMax) : l.counted (l.report v) = l.report v := by
  have hcell := cellOf_highestLike hmade.toProper (counted_le hgreatest hv)
  rw [counted, report, hcell, if_pos (cellOf_counted_lt hmade hgreatest v)]

/-- What something is reported as is reported as itself, so that nothing moves twice. -/
theorem report_report (hv : v ≤ wordMax) : l.report (l.report v) = l.report v := by
  rw [report, counted_report hmade hgreatest hv, report,
    highestLike_highestLike hmade.toProper (counted_le hgreatest hv)]

/-- Nothing above the top is reported just when the number is bounded. -/
theorem report_le_top_iff (hv : v ≤ wordMax) : l.report v ≤ l.top ↔ l.Bounded v := by
  have hproper := hmade.toProper
  rcases Nat.lt_or_ge v l.reach with hcell | hbeyond
  · rw [report, counted_of_lt hproper hcell]
    refine ⟨fun hle => .inl (Nat.le_trans (le_highestLike hproper hv) hle), fun hbounded => ?_⟩
    have htop : v ≤ l.top := hbounded.resolve_right (Nat.not_le.mpr hcell)
    rw [top, ← highestLike_highestLike hproper hgreatest]
    exact highestLike_mono hproper htop (highestLike_le _ _)
  · rw [report, counted_of_le hproper hbeyond]
    exact ⟨fun _ => .inr hbeyond, fun _ => Nat.le_refl _⟩

/-- Beyond the range, only the top itself is left then. -/
theorem report_eq_top_iff (hbeyond : l.greatest ≤ v) (hv : v ≤ wordMax) :
    l.report v = l.top ↔ l.Bounded v := by
  have hleast : l.top ≤ l.report v := by
    rw [report, counted]
    split
    · exact highestLike_mono hmade.toProper hbeyond hv
    · exact Nat.le_refl _
  rw [← report_le_top_iff hmade hgreatest hv]
  exact ⟨Nat.le_of_eq, fun hle => Nat.le_antisymm hle hleast⟩

/-- A larger number is reported as less just when it is beyond all cells and the other
one is not bounded. -/
theorem report_le_report_iff (h : u ≤ v) (hv : v ≤ wordMax) :
    l.report u ≤ l.report v ↔ l.Bounded u ∨ v < l.reach := by
  rcases Nat.lt_or_ge v l.reach with hcell | hbeyond
  · rw [report, report, counted_of_lt hmade.toProper hcell,
      counted_of_lt hmade.toProper (Nat.lt_of_le_of_lt h hcell)]
    exact ⟨fun _ => .inr hcell, fun _ => highestLike_mono hmade.toProper h hv⟩
  · have htop : l.report v = l.top :=
      congrArg l.highestLike (counted_of_le hmade.toProper hbeyond)
    rw [htop, report_le_top_iff hmade hgreatest (Nat.le_trans h hv)]
    exact ⟨.inl, fun hor => hor.resolve_right (Nat.not_lt.mpr hbeyond)⟩

end Made

end Layout

/-! ### Cells of a recorder -/

namespace Layout

/-- Larger numbers lie in cells that do not begin before. -/
theorem lowest_cellOf_mono {l : Layout} {v w : Nat} (hproper : l.Proper) (h : v ≤ w) :
    l.lowest (l.cellOf v) ≤ l.lowest (l.cellOf w) := by
  have hv := lowest_cellOf_le hproper v
  by_cases hbefore : l.lowest (l.cellOf w) ≤ v
  · -- Then both are in one cell.
    have hend := lt_lowest_add_width hproper w
    rw [cellOf_eq_of_mem hproper hbefore (by omega)]
  · omega

end Layout

namespace Histogram

/-- Counts that do not come to a target never reach it. -/
theorem cellAt_eq_none (entries : List (Nat × Nat)) {target passed : Nat}
    (h : passed + (entries.map Prod.snd).sum < target) : cellAt target passed entries = none := by
  induction entries generalizing passed with
  | nil => rfl
  | cons entry rest ih =>
      obtain ⟨cell, n⟩ := entry
      simp only [List.map_cons, List.sum_cons] at h
      rw [cellAt, if_neg (by omega), ih (by omega)]

/-- What is read off a histogram goes by what its numbers are reported as. -/
theorem Counts.report {h : Histogram} {values : List Nat} (hcounts : h.Counts values)
    (hmade : h.layout.Made) (hgreatest : h.layout.greatest ≤ wordMax)
    (hwords : ∀ v ∈ values, v ≤ wordMax) : h.Counts (values.map h.layout.report) where
  entry_iff cell n := by
    have hcount : h.layout.count (values.map h.layout.report) cell
        = h.layout.count values cell := by
      rw [Layout.count, Layout.count, List.countP_map]
      refine List.countP_congr fun v hv => ?_
      have hv := hwords v hv
      show (h.layout.cellOf (h.layout.counted (h.layout.report v)) == cell) = true ↔ _
      rw [Layout.counted_report hmade hgreatest hv, Layout.report,
        Layout.cellOf_highestLike hmade.toProper (Layout.counted_le hgreatest hv)]
    rw [hcount]
    exact hcounts.entry_iff cell n
  total_eq := by rw [hcounts.total_eq, List.length_map]
  largest_le := hcounts.largest_le
  greatest_le_iff m := by
    rw [hcounts.greatest_le_iff, List.forall_mem_map]
    refine forall₂_congr fun v hv => ?_
    show h.layout.report v ≤ m ↔ h.layout.report (h.layout.report v) ≤ m
    rw [Layout.report_report hmade hgreatest (hwords v hv)]

end Histogram

/-! ### Recorders -/

namespace Ranked

/-- Numbers of which no fewer are small have no greater number of a rank. -/
theorem le_of_countP_le {values others : List Nat} {k x y : Nat} (hx : Ranked values k x)
    (hy : Ranked others k y)
    (h : others.countP (fun v => v ≤ y) ≤ values.countP fun v => v ≤ y) : x ≤ y := by
  refine Nat.le_of_not_lt fun hlt => ?_
  have hle : values.countP (fun v => v ≤ y) ≤ values.countP fun v => v < x := by
    refine List.countP_mono_left fun v _ hv => ?_
    rw [decide_eq_true_iff] at hv ⊢
    omega
  have hbelow := hx.below
  have hwithin := hy.within
  omega

end Ranked

namespace Recorder

open Sampled (ofMicros_mono)

/-- Spans of microseconds compare as the numbers do. -/
theorem ofMicros_le_iff {m n : Nat} :
    (Span.ofMicros m).nanos ≤ (Span.ofMicros n).nanos ↔ m ≤ n :=
  Nat.mul_le_mul_right_iff (by decide)

/-- Where no fewer samples are small, no quantile is greater. -/
theorem Sampled.quantile_le_quantile {r s : Recorder} {digits : Nat} {samples others : List Nat}
    (hr : Sampled r digits samples) (hs : Sampled s digits others)
    (hlayout : r.histogram.layout = s.histogram.layout) (hlength : samples.length = others.length)
    (hfewer : ∀ m, others.countP (fun v => v ≤ m) ≤ samples.countP fun v => v ≤ m) (q : Double) :
    (r.quantile q).nanos ≤ (s.quantile q).nanos := by
  have hpos := Histogram.rank_pos (share q) samples.length
  rcases Nat.lt_or_ge samples.length (Histogram.rank (share q) samples.length) with hbeyond | hrank
  · -- A rank beyond all samples is not reached, and the answer is nothing.
    have hnone : Histogram.cellAt (Histogram.rank (share q) samples.length) 0
        r.histogram.counts.toList = none := by
      apply Histogram.cellAt_eq_none
      rw [hr.counts.sum_entries hr.inside, Nat.zero_add]
      exact hbeyond
    rw [quantile, hr.isEmpty_eq, if_neg Bool.false_ne_true, Histogram.quantile,
      hr.counts.total_eq, hnone]
    simp [Span.ofMicros]
  · obtain ⟨x, -, hx⟩ := exists_ranked hpos hrank
    have hother : Histogram.rank (share q) samples.length ≤ others.length := by omega
    obtain ⟨y, -, hy⟩ := exists_ranked hpos hother
    have hle : x ≤ y := hx.le_of_countP_le hy (hfewer y)
    rw [hlength] at hy
    rw [hr.quantile_eq hx, hs.quantile_eq hy, hlayout, ofMicros_le_iff]
    split
    · exact Layout.lowest_cellOf_mono hs.proper hle
    · exact Layout.highest_cellOf_mono hs.proper hle

variable {limits : LatencyConfig} {l : Layout} {r : Recorder} {values : List Nat} {u v : Nat}

namespace Derived

section Made

variable (hrange : Layout.make limits.maxMicros limits.significantFigures = .ok l)
  (hword : limits.maxMicros ≤ wordMax)
include hrange hword

/-- A derived recorder has counted what its latencies are reported as. -/
theorem reports (h : Derived ⟨.empty l⟩ r values) :
    r.histogram.layout = l ∧ r.histogram.Counts (values.map l.report) := by
  obtain ⟨hmade, hgreatest⟩ := Layout.made_of_make hrange
  obtain ⟨rfl, hcounts, hwords⟩ := h.counted hrange hword
  exact ⟨rfl, hcounts.report hmade (hgreatest ▸ hword) hwords⟩

/-- The greatest of a derived recorder, also when there is none. -/
theorem greatest_eq (h : Derived ⟨.empty l⟩ r values) :
    r.greatest = .ofMicros r.histogram.greatest := by
  obtain ⟨-, hcounts, -⟩ := h.counted hrange hword
  rw [greatest]
  split
  · rename_i hempty
    rw [isEmpty, size, hcounts.total_eq, beq_iff_eq, List.length_eq_zero_iff] at hempty
    subst hempty
    have hnone : r.histogram.greatest ≤ 0 :=
      (hcounts.greatest_le_iff 0).mpr (List.forall_mem_nil _)
    rw [Nat.le_zero.mp hnone]
    rfl
  · rfl

/-- The greatest latency is within a bound if all that is reported of the values is. -/
theorem greatest_le_iff (h : Derived ⟨.empty l⟩ r values) (m : Nat) :
    r.greatest.nanos ≤ (Span.ofMicros m).nanos ↔ ∀ v ∈ values, l.report v ≤ m := by
  obtain ⟨rfl, hcounts, -⟩ := h.counted hrange hword
  rw [h.greatest_eq hrange hword, ofMicros_le_iff]
  exact hcounts.greatest_le_iff m

/-- No quantile of a derived recorder is greater than the greatest. -/
theorem quantile_le_greatest (h : Derived ⟨.empty l⟩ r values) (q : Double) :
    (r.quantile q).nanos ≤ r.greatest.nanos := by
  obtain ⟨hmade, hgreatest⟩ := Layout.made_of_make hrange
  obtain ⟨rfl, hcounts, hwords⟩ := h.counted hrange hword
  rw [h.greatest_eq hrange hword, quantile]
  split
  · exact Nat.zero_le _
  · refine ofMicros_mono (hcounts.quantile_le_greatest hmade.toProper (fun v hv => ?_) _)
    exact Layout.counted_le (hgreatest ▸ hword) (hwords v hv)

/-- A derived recorder in terms of samples that have cells. -/
theorem sampled (h : Derived ⟨.empty l⟩ r values) (hne : values ≠ []) :
    Sampled r limits.significantFigures (values.map l.report) := by
  obtain ⟨hmade, hgreatest⟩ := Layout.made_of_make hrange
  obtain ⟨-, -, hwords⟩ := h.counted hrange hword
  obtain ⟨rfl, hcounts⟩ := h.reports hrange hword
  refine ⟨hcounts, hmade.toProper, Layout.precise_of_make hrange, ?_, ?_, by simpa using hne⟩
  · rw [List.forall_mem_map]
    exact fun v hv => Layout.counted_report hmade (hgreatest ▸ hword) (hwords v hv)
  · rw [List.forall_mem_map]
    exact fun v _ => Layout.highestLike_le _ _

/-- One more latency, which is recorded as what it is reported as. -/
theorem agrees_of_report (h : Derived ⟨.empty l⟩ r values) (hu : u ≤ wordMax) (hv : v ≤ wordMax)
    (heq : l.report u = l.report v) : (r.recordMicros u).Agrees (r.recordMicros v) := by
  obtain ⟨hlayout, hcounts⟩ := (h.recordMicros hu).reports hrange hword
  obtain ⟨hlayout', hcounts'⟩ := (h.recordMicros hv).reports hrange hword
  rw [List.map_cons, heq] at hcounts
  exact agrees_of_counts (hlayout.trans hlayout'.symm) hcounts hcounts'

/-- With one more latency that is reported as no less, nothing is reported as less. -/
theorem le_of_report (h : Derived ⟨.empty l⟩ r values) (hu : u ≤ wordMax) (hv : v ≤ wordMax)
    (hle : l.report u ≤ l.report v) :
    (∀ q, ((r.recordMicros u).quantile q).nanos ≤ ((r.recordMicros v).quantile q).nanos) ∧
    (r.recordMicros u).greatest.nanos ≤ (r.recordMicros v).greatest.nanos := by
  have hless := h.recordMicros hu
  have hmore := h.recordMicros hv
  constructor
  · intro q
    have hsampled := hless.sampled hrange hword (List.cons_ne_nil _ _)
    have hsampled' := hmore.sampled hrange hword (List.cons_ne_nil _ _)
    refine hsampled.quantile_le_quantile hsampled' rfl (by simp) (fun m => ?_) q
    simp only [List.map_cons, List.countP_cons, decide_eq_true_eq]
    split
    · rw [if_pos (by omega)]
    · exact Nat.add_le_add_left (Nat.zero_le _) _
  · have hall := (hmore.greatest_le_iff hrange hword _).mp (Nat.le_of_eq
      (congrArg Span.nanos (hmore.greatest_eq hrange hword)))
    obtain ⟨hlast, hrest⟩ := List.forall_mem_cons.mp hall
    rw [hmore.greatest_eq hrange hword, hless.greatest_le_iff hrange hword, List.forall_mem_cons]
    exact ⟨Nat.le_trans hle hlast, hrest⟩

/-- The greatest of one latency is what this is reported as. -/
theorem greatest_template (hv : v ≤ wordMax) :
    (Recorder.recordMicros ⟨.empty l⟩ v).greatest = .ofMicros (l.report v) := by
  have hone : Derived ⟨.empty l⟩ (Recorder.recordMicros ⟨.empty l⟩ v) [v] :=
    .recordMicros .template hv
  have hle (m : Nat) := hone.greatest_le_iff hrange hword m
  simp only [List.forall_mem_singleton, hone.greatest_eq hrange hword, ofMicros_le_iff] at hle
  rw [hone.greatest_eq hrange hword, Nat.le_antisymm ((hle _).mpr (Nat.le_refl _))
    ((hle _).mp (Nat.le_refl _))]

end Made

end Derived

/-- The latencies that saturate at the greatest of the range, and what depends on it.
They are those that are beyond all cells, and they are then recorded as the greatest of
the range is, and those that lie in its cell, which makes no difference to what is read
off. All others beyond the range count as themselves: a quantile or the greatest goes
above the top just with one of them, and such a latency is reported as more than a
longer one that saturates. -/
theorem saturates_iff_bounded {limits : LatencyConfig} (hvalid : limits.validate = .ok ())
    (hword : limits.maxMicros ≤ wordMax) :
    ∃ template, make limits = .ok template ∧
      let l := template.histogram.layout
      let top := Span.ofMicros (l.highestLike limits.maxMicros)
      (∀ r values v, Derived template r values → l.reach ≤ v →
        r.recordMicros v = r.recordMicros limits.maxMicros) ∧
      (∀ (r : Recorder) s, r.record s = r.recordMicros (min (s.nanos / 1000) wordMax)) ∧
      (∀ v, limits.maxMicros ≤ v → v ≤ wordMax →
        ((∀ r values, Derived template r values →
          (r.recordMicros v).Agrees (r.recordMicros limits.maxMicros)) ↔ l.Bounded v)) ∧
      (∀ r values, Derived template r values →
        (((∀ q, (r.quantile q).nanos ≤ top.nanos) ∧ r.greatest.nanos ≤ top.nanos) ↔
          ∀ v ∈ values, l.Bounded v)) ∧
      ∀ u v, u ≤ v → v ≤ wordMax →
        ((∀ r values, Derived template r values →
          (∀ q, ((r.recordMicros u).quantile q).nanos ≤ ((r.recordMicros v).quantile q).nanos) ∧
          (r.recordMicros u).greatest.nanos ≤ (r.recordMicros v).greatest.nanos) ↔
        (l.Bounded u ∨ v < l.reach)) := by
  obtain ⟨l, hrange, hmake⟩ := LatencyConfig.make_of_validate hvalid
  obtain ⟨hmade, hgreatest⟩ := Layout.made_of_make hrange
  have hgreatestWord : l.greatest ≤ wordMax := hgreatest ▸ hword
  have hcell : limits.maxMicros < l.reach := by
    have := hmade.greatest_lt
    omega
  have hlimit : l.report limits.maxMicros = l.top := by
    rw [Layout.report, Layout.counted_of_lt hmade.toProper hcell, Layout.top, hgreatest]
  have htop : l.highestLike limits.maxMicros = l.top := by rw [Layout.top, hgreatest]
  have hlayout : (Histogram.empty l).layout = l := rfl
  refine ⟨⟨.empty l⟩, hmake, ?_⟩
  simp only [hlayout, htop]
  refine ⟨?_, fun _ _ => rfl, ?_, ?_, ?_⟩
  · intro r values v hr hbeyond
    obtain ⟨hlayout, -, -⟩ := hr.counted hrange hword
    -- Both count as the greatest of the range, so they are recorded alike.
    have hsame : r.histogram.clamped v = r.histogram.clamped limits.maxMicros := by
      show r.histogram.layout.counted v = r.histogram.layout.counted limits.maxMicros
      rw [hlayout, Layout.counted_of_le hmade.toProper hbeyond,
        Layout.counted_of_lt hmade.toProper hcell, hgreatest]
    simp only [recordMicros, Histogram.record, Histogram.recordMany, hsame]
  · intro v hmore hv
    have heq := Layout.report_eq_top_iff hmade hgreatestWord (hgreatest ▸ hmore) hv
    constructor
    · intro hall
      have hgreater := (hall _ _ .template).greatest
      rw [Derived.greatest_template hrange hword hv, Derived.greatest_template hrange hword hword,
        hlimit] at hgreater
      exact heq.mp (Nat.le_antisymm (ofMicros_le_iff.mp (Nat.le_of_eq (congrArg _ hgreater)))
        (ofMicros_le_iff.mp (Nat.le_of_eq (congrArg _ hgreater.symm))))
    · intro hbounded r values hr
      exact hr.agrees_of_report hrange hword hv hword ((heq.mpr hbounded).trans hlimit.symm)
  · intro r values hr
    obtain ⟨-, -, hwords⟩ := hr.counted hrange hword
    have hiff : r.greatest.nanos ≤ (Span.ofMicros l.top).nanos ↔ ∀ v ∈ values, l.Bounded v := by
      rw [hr.greatest_le_iff hrange hword]
      exact forall₂_congr fun v hv =>
        Layout.report_le_top_iff hmade hgreatestWord (hwords v hv)
    rw [← hiff, and_iff_right_iff_imp]
    intro hmost q
    exact Nat.le_trans (hr.quantile_le_greatest hrange hword q) hmost
  · intro u v huv hv
    have hu := Nat.le_trans huv hv
    rw [← Layout.report_le_report_iff hmade hgreatestWord huv hv]
    constructor
    · intro hall
      have hle := (hall _ _ .template).2
      rwa [Derived.greatest_template hrange hword hu, Derived.greatest_template hrange hword hv,
        ofMicros_le_iff] at hle
    · intro hle r values hr
      exact hr.le_of_report hrange hword hu hv hle

/-- With the usual limits a latency of 68 seconds is beyond all cells: it is recorded as
one of a minute, and both of them are reported as the top. -/
theorem saturates_iff_bounded_usual :
    (({} : LatencyConfig).validate = .ok () ∧ ({} : LatencyConfig).maxMicros ≤ wordMax) ∧
    ∃ template, make {} = .ok template ∧
      template.recordMicros 68000000 = template.recordMicros 60000000 ∧
      ((template.recordMicros 68000000).recordMicros 60000000).greatest.nanos ≤ 60030975000 := by
  have hvalid : ({} : LatencyConfig).validate = .ok () := rfl
  have hword : ({} : LatencyConfig).maxMicros ≤ wordMax := by decide
  obtain ⟨template, hmake, hrecords, -, -, htop, -⟩ := saturates_iff_bounded hvalid hword
  obtain rfl : template = ⟨.empty ⟨11, 16, 60000000⟩⟩ := Except.ok.inj (hmake.symm.trans rfl)
  refine ⟨⟨hvalid, hword⟩, _, hmake, hrecords _ _ _ .template (by decide), ?_⟩
  have hr : Derived ⟨.empty ⟨11, 16, 60000000⟩⟩ _ [60000000, 68000000] :=
    .recordMicros (.recordMicros .template (v := 68000000) (by decide)) (by decide)
  exact ((htop _ _ hr).mpr (by decide)).2

/-- A latency of 65 seconds is beyond the usual range of a minute, and it is recorded as
itself. So it is reported as more than one of 100 seconds, which saturates. -/
theorem not_always_saturates :
    ({} : LatencyConfig).validate = .ok () ∧
    ∃ template, make {} = .ok template ∧
      (template.recordMicros 60000000).greatest = .ofMicros 60030975 ∧
      (template.recordMicros 65000000).greatest = .ofMicros 65011711 ∧
      (template.recordMicros 100000000).greatest = .ofMicros 60030975 := by
  have hvalid : ({} : LatencyConfig).validate = .ok () := rfl
  obtain ⟨l, hrange, hmake⟩ := LatencyConfig.make_of_validate hvalid
  obtain rfl : l = ⟨11, 16, 60000000⟩ := Except.ok.inj (hrange.symm.trans rfl)
  have hgreatest {v : Nat} (hv : v ≤ wordMax) :=
    Derived.greatest_template hrange (by decide) hv
  refine ⟨hvalid, _, hmake, ?_, ?_, ?_⟩
  · rw [hgreatest (by decide)]
    decide
  · rw [hgreatest (by decide)]
    decide
  · rw [hgreatest (by decide)]
    decide

end Recorder

end StoreBench
