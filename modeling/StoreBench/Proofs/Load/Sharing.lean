import StoreBench.Load.Pool
import StoreBench.Proofs.Load.Counts

/-!
# `StoreBench.Proofs.Load.Sharing`: work that is shared by workers

Each worker counts the attempts that it finishes in a tally and a recorder of its
own, which are merged into the common ones when it ends. What comes out is the same
as if one worker had done all the work: the tallies add up, and so do the counts of
the recorders, cell by cell (`Gathered.flush`). How the attempts are shared and in
which order the workers end makes no difference.

There is one exception. A recorder that cannot be merged is dropped while the tally
is kept. This is so for a time of the largest word of microseconds in a recorder
whose range goes beyond half of the words (`LatencyConfig.Holds`): then the greatest
number of the recorder is that word itself, and the greatest of the last cell is one
less (`not_always_shares_add_up`).
-/

set_option autoImplicit false

namespace StoreBench

/-- What is read off two recorders is the same. -/
structure Recorder.Agrees (r s : Recorder) : Prop where
  layout : r.histogram.layout = s.histogram.layout
  counts : r.histogram.counts = s.histogram.counts
  size : r.size = s.size
  greatest : r.greatest = s.greatest
  mean : r.mean = s.mean
  quantile : ∀ q, r.quantile q = s.quantile q

/-- All of it comes of the counts, the total and the greatest number. -/
theorem Recorder.agrees_of_eq {r s : Recorder} (hlayout : r.histogram.layout = s.histogram.layout)
    (hcounts : r.histogram.counts = s.histogram.counts)
    (htotal : r.histogram.total = s.histogram.total)
    (hgreatest : r.histogram.greatest = s.histogram.greatest) : r.Agrees s := by
  have hempty : r.isEmpty = s.isEmpty := by rw [isEmpty, isEmpty, size, size, htotal]
  refine ⟨hlayout, hcounts, htotal, ?_, ?_, fun q => ?_⟩
  · rw [greatest, greatest, hempty, hgreatest]
  · rw [mean, mean, hempty, Histogram.mean, Histogram.mean, hcounts, htotal, hlayout]
  · rw [quantile, quantile, hempty, Histogram.quantile, Histogram.quantile, hcounts, htotal,
      hlayout]

/-- Recorders of one layout that have counted the same numbers agree. -/
theorem Recorder.agrees_of_counts {r s : Recorder} {values : List Nat}
    (hlayout : r.histogram.layout = s.histogram.layout) (hr : r.histogram.Counts values)
    (hs : s.histogram.Counts values) : r.Agrees s := by
  obtain ⟨hcounts, htotal, hgreatest⟩ := hr.agrees hs hlayout
  exact agrees_of_eq hlayout hcounts htotal hgreatest

/-! ### One worker -/

/-- An attempt that was finished and counts, and how long it took. -/
structure Finished where
  success : Bool
  latency : Span
deriving DecidableEq, Repr, Inhabited

namespace Finished

/-- An attempt that is counted returned a success or an error. -/
def status (a : Finished) : Status := if a.success then .success else .error

/-- What attempts come to in a tally. -/
def tally (attempts : List Finished) : Tally where
  operations := attempts.countP Finished.success
  errors := attempts.countP fun a => !a.success

/-- What they come to in a recorder, one number each. -/
def micros (attempts : List Finished) : List Nat := attempts.map fun a => a.latency.micros

/-- Fewer attempts than words are added up without a carry. -/
theorem tally_add (attempts others : List Finished)
    (h : attempts.length + others.length < 2 ^ 64) :
    (tally attempts).add (tally others) = tally (attempts ++ others) := by
  have hsuccess := List.countP_le_length (p := success) (l := attempts ++ others)
  have hfailure := List.countP_le_length (p := fun a => !a.success) (l := attempts ++ others)
  rw [List.length_append] at hsuccess hfailure
  rw [tally, tally, tally, Tally.add]
  simp only [← List.countP_append]
  rw [Nat.mod_eq_of_lt (by omega), Nat.mod_eq_of_lt (by omega)]

end Finished

namespace Worker

/-- Counts an attempt that has taken so long since the worker began it. -/
def observe (w : Worker) (a : Finished) : Worker :=
  w.finish a.status ⟨w.began.nanos + a.latency.nanos⟩

/-- A worker that has finished these attempts, one after the other, from a fresh copy of
the recorder. -/
def after (template : Recorder) (attempts : List Finished) : Worker :=
  attempts.foldl observe { recorder := template.fresh }

/-- Each attempt adds one to the counter that it belongs to. -/
theorem tally_foldl (attempts : List Finished) (w : Worker) :
    (attempts.foldl observe w).tally
      = { w.tally with
          operations := w.tally.operations + (Finished.tally attempts).operations
          errors := w.tally.errors + (Finished.tally attempts).errors } := by
  induction attempts generalizing w with
  | nil => rfl
  | cons a rest ih =>
      rw [List.foldl_cons, ih]
      have hone : (w.observe a).tally = w.tally.observe a.status := rfl
      rw [hone, Finished.status]
      simp only [Finished.tally, List.countP_cons]
      cases a.success with
      | true =>
          simp only [if_true, Tally.observe, Bool.not_true, Bool.false_eq_true, if_false,
            Nat.add_zero, Nat.add_assoc, Nat.add_comm 1]
      | false =>
          simp only [if_true, Tally.observe, Bool.not_false, Bool.false_eq_true, if_false,
            Nat.add_zero, Nat.add_assoc, Nat.add_comm 1]

/-- A fresh worker has nothing else in its tally. -/
theorem tally_after (template : Recorder) (attempts : List Finished) :
    (after template attempts).tally = Finished.tally attempts := by
  rw [after, tally_foldl]
  simp only [Nat.zero_add]
  rfl

/-- Attempts that are observed one after the other add their latencies to the histogram. -/
theorem histogram_foldl (attempts : List Finished) (w : Worker) :
    (attempts.foldl observe w).recorder.histogram
      = (Finished.micros attempts).foldl Histogram.record w.recorder.histogram := by
  induction attempts generalizing w with
  | nil => rfl
  | cons a rest ih =>
      have hone : (w.observe a).recorder.histogram
          = w.recorder.histogram.record a.latency.micros := by
        rw [observe, finish, Nat.add_sub_cancel_left]
        rfl
      rw [List.foldl_cons, ih, hone]
      rfl

/-- The recorder of a worker has counted its times. -/
theorem counts_after {l : Layout} (hproper : l.Proper) (hgreatest : l.greatest ≤ wordMax)
    (attempts : List Finished) :
    (after ⟨.empty l⟩ attempts).recorder.histogram.layout = l ∧
    (after ⟨.empty l⟩ attempts).recorder.histogram.Counts (Finished.micros attempts) := by
  rw [after, histogram_foldl]
  refine Histogram.counts_of_empty hproper hgreatest ?_
  rw [Finished.micros, List.forall_mem_map]
  exact fun _ _ => Nat.min_le_right _ _

end Worker

/-! ### All workers -/

/-- The times of a share of the work can be merged: none is beyond the last cell. -/
def LatencyConfig.Holds (limits : LatencyConfig) (share : List Finished) : Prop :=
  limits.maxMicros < 2 ^ 63 ∨ ∀ a ∈ share, a.latency.micros < wordMax

instance (limits : LatencyConfig) (share : List Finished) : Decidable (limits.Holds share) :=
  inferInstanceAs (Decidable (_ ∨ _))

namespace Pool

/-- A pool with the attempts that were counted and those whose times were kept. -/
structure Gathered (l : Layout) (p : Pool) (attempts kept : List Finished) : Prop where
  totals : p.totals = Finished.tally attempts
  layout : p.latency.histogram.layout = l
  counts : p.latency.histogram.Counts (Finished.micros kept)

variable {limits : LatencyConfig} {l : Layout} {p : Pool} {attempts kept : List Finished}

/-- A new pool has gathered nothing. -/
theorem gathered_make (config : PoolConfig) (l : Layout) (signal : StopSignal) :
    Gathered l (make config ⟨.empty l⟩ signal) [] [] := ⟨rfl, rfl, Histogram.counts_empty l⟩

/-- The times of a share can be merged just when each of them counts like a cell. -/
theorem holds_iff (hrange : Layout.make limits.maxMicros limits.significantFigures = .ok l)
    (share : List Finished) : limits.Holds share ↔ ∀ v ∈ Finished.micros share,
      l.highestLike (l.counted v) ≤ l.highest (l.size - 1) := by
  have hwords : ∀ v ∈ Finished.micros share, v ≤ wordMax :=
    List.forall_mem_map.mpr fun a _ => Nat.min_le_right _ _
  rw [Layout.highestLike_all_iff (Layout.made_of_make hrange).1 hwords,
    LatencyConfig.reach_le_iff hrange, Finished.micros, List.forall_mem_map]
  rfl

section Flush

variable (hrange : Layout.make limits.maxMicros limits.significantFigures = .ok l)
  (hword : limits.maxMicros ≤ wordMax)

include hrange hword

/-- The times of a worker are merged just when they can be, and added up then. -/
theorem Gathered.merge_eq (hp : Gathered l p attempts kept) (share : List Finished) :
    p.latency.merge (Worker.after ⟨.empty l⟩ share).recorder = if limits.Holds share
      then .ok ⟨p.latency.histogram.sum (Worker.after ⟨.empty l⟩ share).recorder.histogram⟩
      else .error (.internal "latency merge: OtherAddendValueExceedsRange") := by
  obtain ⟨hmade, hgreatest⟩ := Layout.made_of_make hrange
  obtain ⟨hlayout, hcounts⟩ := Worker.counts_after hmade.toProper (hgreatest ▸ hword) share
  have hholds := holds_iff hrange share
  rw [Recorder.merge, hcounts.merge?_eq (hp.layout.trans hlayout.symm), hp.layout]
  by_cases hshare : limits.Holds share
  · rw [if_pos hshare, if_pos (hholds.mp hshare)]
  · rw [if_neg hshare, if_neg (mt hholds.mpr hshare)]

/-- So whether a merge succeeds depends on the share alone, not on what was merged before. -/
theorem Gathered.merges_iff (hp : Gathered l p attempts kept) (share : List Finished) :
    (∃ merged, p.latency.merge (Worker.after ⟨.empty l⟩ share).recorder = .ok merged)
      ↔ limits.Holds share := by
  rw [hp.merge_eq hrange hword]
  by_cases hshare : limits.Holds share
  · rw [if_pos hshare]
    exact ⟨fun _ => hshare, fun _ => ⟨_, rfl⟩⟩
  · rw [if_neg hshare]
    exact ⟨nofun, fun h => absurd h hshare⟩

/-- The common recorder agrees with that of one worker with the times that were kept. -/
theorem Gathered.agrees (hp : Gathered l p attempts kept) {others : List Finished}
    (hperm : kept.Perm others) :
    p.latency.Agrees (Worker.after ⟨.empty l⟩ others).recorder := by
  obtain ⟨hmade, hgreatest⟩ := Layout.made_of_make hrange
  obtain ⟨hlayout, hcounts⟩ := Worker.counts_after hmade.toProper (hgreatest ▸ hword) others
  exact Recorder.agrees_of_counts (hp.layout.trans hlayout.symm)
    (hp.counts.perm (hperm.map _)) hcounts

/-- A worker that ends adds its attempts, and its times if they can be merged. -/
theorem Gathered.flush (hp : Gathered l p attempts kept) (share : List Finished)
    (hlength : attempts.length + share.length < 2 ^ 64) :
    Gathered l (p.flush (Worker.after ⟨.empty l⟩ share)) (attempts ++ share)
      (kept ++ if limits.Holds share then share else []) := by
  obtain ⟨hmade, hgreatest⟩ := Layout.made_of_make hrange
  have hproper : p.latency.histogram.layout.Proper := hp.layout ▸ hmade.toProper
  obtain ⟨hlayout, hcounts⟩ := Worker.counts_after hmade.toProper (hgreatest ▸ hword) share
  have htotals : (p.flush (Worker.after ⟨.empty l⟩ share)).totals
      = Finished.tally (attempts ++ share) := by
    show p.totals.add (Worker.after ⟨.empty l⟩ share).tally = _
    rw [hp.totals, Worker.tally_after, Finished.tally_add _ _ hlength]
  have hlatency : (p.flush (Worker.after ⟨.empty l⟩ share)).latency = if limits.Holds share
      then ⟨p.latency.histogram.sum (Worker.after ⟨.empty l⟩ share).recorder.histogram⟩
      else p.latency := by
    -- A refused recorder leaves the common one as it is.
    rw [Pool.flush, hp.merge_eq hrange hword]
    by_cases hshare : limits.Holds share
    · rw [if_pos hshare, if_pos hshare]
    · rw [if_neg hshare, if_neg hshare]
  refine ⟨htotals, ?_, ?_⟩
  · rw [hlatency]
    split
    · exact hp.layout
    · exact hp.layout
  · rw [hlatency]
    split
    · rw [Finished.micros, List.map_append]
      exact hp.counts.sum hcounts hproper (hp.layout.trans hlayout.symm)
    · rw [List.append_nil]
      exact hp.counts

/-- When all workers end, one after the other, the pool gathers the attempts of all of
them. -/
theorem Gathered.flushAll (hp : Gathered l p attempts kept) {shares : List (List Finished)}
    (hlength : (attempts ++ shares.flatten).length < 2 ^ 64) :
    Gathered l ((shares.map (Worker.after ⟨.empty l⟩)).foldl Pool.flush p)
      (attempts ++ shares.flatten)
      (kept ++ (shares.filter fun share => limits.Holds share).flatten) := by
  induction shares generalizing p attempts kept with
  | nil => simpa using hp
  | cons share rest ih =>
      rw [List.flatten_cons, ← List.append_assoc] at hlength ⊢
      have hshare := hp.flush hrange hword share (by
        rw [List.length_append, List.length_append] at hlength
        omega)
      have hall := ih hshare hlength
      rw [List.map_cons, List.foldl_cons, List.filter_cons]
      split
      · rename_i hholds
        rw [if_pos (of_decide_eq_true hholds)] at hall
        rwa [List.flatten_cons, ← List.append_assoc]
      · rename_i hbeyond
        rwa [if_neg (mt decide_eq_true hbeyond), List.append_nil] at hall

end Flush

/-- Workers that share some attempts in any way and end in any order leave what one
worker leaves that has finished all of them: the same totals, and a recorder from
which the same is read off, with the same count in each cell. Where the recorder of
a worker cannot be merged, it is just the times of that worker that are missing. -/
theorem shares_add_up {limits : LatencyConfig} (hvalid : limits.validate = .ok ())
    (hword : limits.maxMicros ≤ wordMax) :
    ∃ template, Recorder.make limits = .ok template ∧
      ∀ (config : PoolConfig) (signal : StopSignal) (shares : List (List Finished))
        (attempts : List Finished),
        shares.flatten.Perm attempts → attempts.length < 2 ^ 64 →
        let flushed := fun shares : List (List Finished) =>
          (shares.map (Worker.after template)).foldl flush (make config template signal)
        (∀ earlier share later, shares = earlier ++ share :: later →
          ((∃ merged, (flushed earlier).latency.merge (Worker.after template share).recorder
            = .ok merged) ↔ limits.Holds share)) ∧
        (flushed shares).totals = (Worker.after template attempts).tally ∧
        (flushed shares).latency.Agrees (Worker.after template
          (shares.filter fun share => limits.Holds share).flatten).recorder ∧
        ((∀ share ∈ shares, limits.Holds share) →
          (flushed shares).latency.Agrees (Worker.after template attempts).recorder) := by
  obtain ⟨l, hrange, hmake⟩ := LatencyConfig.make_of_validate hvalid
  refine ⟨⟨.empty l⟩, hmake, ?_⟩
  intro config signal shares attempts hperm hlength flushed
  -- Whatever is flushed, the counts are of all attempts, and the times of those whose share
  -- can be merged.
  have hflushed (some : List (List Finished)) (hsome : some.flatten.length < 2 ^ 64) :
      Gathered l (flushed some) some.flatten
        (some.filter fun share => limits.Holds share).flatten :=
    (gathered_make config l signal).flushAll hrange hword hsome
  have hall := hflushed shares (hperm.length_eq ▸ hlength)
  refine ⟨?_, ?_, hall.agrees hrange hword (.refl _), ?_⟩
  · rintro earlier share later rfl
    have hearlier : earlier.flatten.length < 2 ^ 64 := by
      have hle := hperm.length_eq
      rw [List.flatten_append, List.length_append] at hle
      omega
    exact (hflushed earlier hearlier).merges_iff hrange hword share
  · rw [hall.totals, Worker.tally_after, Finished.tally, Finished.tally, hperm.countP_eq,
      hperm.countP_eq]
  · intro hholds
    have hkept : shares.filter (fun share => limits.Holds share) = shares :=
      List.filter_eq_self.mpr fun share hshare => decide_eq_true (hholds share hshare)
    rw [hkept] at hall
    exact hall.agrees hrange hword hperm

/-- Three attempts shared by two workers, the second of which ends first. -/
theorem shares_add_up_three :
    (({} : LatencyConfig).validate = .ok () ∧ ({} : LatencyConfig).maxMicros ≤ wordMax) ∧
    ∃ template, Recorder.make {} = .ok template ∧
      let p := (([[⟨true, .ofMicros 90⟩], [⟨true, .ofMicros 7⟩, ⟨false, .ofMillis 70000⟩]]
        : List (List Finished)).map (Worker.after template)).foldl flush
          (make { concurrency := 2 } template {})
      p.totals = { operations := 2, errors := 1 } ∧
      p.latency.Agrees (Worker.after template
        [⟨true, .ofMicros 7⟩, ⟨false, .ofMillis 70000⟩, ⟨true, .ofMicros 90⟩]).recorder := by
  have hvalid : ({} : LatencyConfig).validate = .ok () := rfl
  have hword : ({} : LatencyConfig).maxMicros ≤ wordMax := by decide
  obtain ⟨template, hmake, hshares⟩ := shares_add_up hvalid hword
  obtain ⟨-, htotals, -, hagrees⟩ := hshares { concurrency := 2 } {}
    [[⟨true, .ofMicros 90⟩], [⟨true, .ofMicros 7⟩, ⟨false, .ofMillis 70000⟩]]
    [⟨true, .ofMicros 7⟩, ⟨false, .ofMillis 70000⟩, ⟨true, .ofMicros 90⟩] (by decide) (by decide)
  refine ⟨⟨hvalid, hword⟩, template, hmake, ?_, hagrees fun share _ => .inl (by decide)⟩
  rw [htotals, Worker.tally_after]
  rfl

/-- In the widest range, the time of the largest word cannot be merged: its worker is
counted and its time is lost. -/
theorem not_always_shares_add_up :
    LatencyConfig.widest.validate = .ok () ∧
    ∃ template, Recorder.make .widest = .ok template ∧
      let w := Worker.after template [⟨true, .ofMicros wordMax⟩]
      let p := make { concurrency := 1 } template {}
      (∀ merged, p.latency.merge w.recorder ≠ .ok merged) ∧
      w.tally.operations = 1 ∧ w.recorder.size = 1 ∧
      (p.flush w).totals = w.tally ∧ (p.flush w).latency.size = 0 := by
  have hvalid : LatencyConfig.widest.validate = .ok () := rfl
  obtain ⟨l, hrange, hmake⟩ := LatencyConfig.make_of_validate hvalid
  have hmerge := (gathered_make { concurrency := 1 } l {}).merge_eq hrange (Nat.le_refl _)
    [⟨true, .ofMicros wordMax⟩]
  rw [if_neg (by decide)] at hmerge
  refine ⟨hvalid, _, hmake, fun merged => ?_, rfl, rfl, rfl, ?_⟩
  · rw [hmerge]
    nofun
  · rw [flush, hmerge]
    rfl

end Pool

end StoreBench
