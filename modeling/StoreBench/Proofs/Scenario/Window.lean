import StoreBench.Proofs.Document.Grouping
import StoreBench.Proofs.Scenario.Ingestion
import StoreBench.Proofs.Time.Chronology

/-!
# `StoreBench.Proofs.Scenario.Window`: the events of a time window

The totals of an event stream are over the events after a time. A document store
compares the texts of the instants for that, which comes to the same as comparing
the instants to the microsecond, as their texts are in the order of time
(`selects_later`). So the answer is the one that the same query without a
condition gives where only these events are stored, and that one is known: a row for
each region of these events, with the sum of their metric (`totals_of_records`).
`timestamps_sort` is both together.
-/

set_option autoImplicit false

namespace StoreBench

/-- Texts compare as their characters do, from the first on. -/
theorem compare_text_eq_gt_iff (a b : String) : compare a b = .gt ↔ b < a := by
  change String.compare a b = .gt ↔ b < a
  rw [String.compare, compareOfLessAndEq_eq_gt String.le_antisymm String.le_total String.not_le]

/-- A text comes first in a comparison when it is smaller, which is how collections
order their keys. -/
theorem compare_text_eq_lt_iff (a b : String) : compare a b = .lt ↔ a < b :=
  Std.OrientedCmp.gt_iff_lt.symm.trans (compare_text_eq_gt_iff b a)

/-- A query with a condition reads the documents that meet it, as the query
without one reads a collection of only these. -/
theorem Documents.groupSum_filter (docs : Documents) (filter : Filter) (groupBy sumField : String) :
    docs.groupSum filter groupBy sumField
      = Documents.groupSum (docs.filter fun _ doc => filter.selects doc) .all groupBy sumField := by
  simp only [groupSum, matching_all, Std.ExtTreeMap.toList_filter]
  rfl

/-- The documents that a filter selects are those of the records that it selects. -/
theorem Documents.Records.filter {α : Type} {entry : α → String × Json} {docs : Documents}
    {records : List α} (h : docs.Records entry records) (filter : Filter) :
    Records entry (docs.filter fun _ doc => filter.selects doc)
      (records.filter fun r => filter.selects (entry r).2) where
  nodup := (List.filter_sublist.map _).nodup h.nodup
  mem_iff key doc := by
    rw [Std.ExtTreeMap.getElem?_filter', Option.filter_eq_some_iff, h.mem_iff]
    simp only [List.mem_filter]
    constructor
    · rintro ⟨⟨r, hr, hentry⟩, hselects⟩
      exact ⟨r, ⟨hr, by rw [hentry]; exact hselects⟩, hentry⟩
    · rintro ⟨r, ⟨hr, hselects⟩, hentry⟩
      rw [hentry] at hselects
      exact ⟨⟨r, hr, hentry⟩, hselects⟩

namespace Scenario.Stream

/-- An event under its identity, as it is stored. -/
def eventEntry (event : Event) : String × Json :=
  (event.id, .obj [("_id", .str event.id), ("event_timestamp", .ofInstant event.instant),
    ("metric_value", .ofDouble event.metric), ("product_id", .str event.product),
    ("region", .str event.region), ("user_id", .str event.user)])

/-- An event is inserted as its entry. Its identity is in the document already. -/
theorem insert_eq (event : Event) :
    Events.document.insert event = .on Events.table (.insertOne (eventEntry event).2) :=
  insert_document event

/-- After the cutoff, to the microsecond. What is less is not in the text. -/
def isLater (cutoff : Instant) (event : Event) : Bool :=
  decide (cutoff.truncated.Before event.instant.truncated)

/-- The condition that the totals put on an event. -/
def window (cutoff : Instant) : Filter := [("event_timestamp", .gt (.ofInstant cutoff))]

/-- The condition of the window selects the events after the cutoff, since the texts are
in the order of time. -/
theorem selects_later {cutoff : Instant} {event : Event} (hcutoff : cutoff.Dated)
    (hevent : event.instant.Dated) :
    (window cutoff).selects (eventEntry event).2 = isLater cutoff event := by
  have hfield : (eventEntry event).2.lookup "event_timestamp" = some (.ofInstant event.instant) :=
    rfl
  have hcompare : (Json.ofInstant event.instant).compare? (Json.ofInstant cutoff)
      = some (compare event.instant.microText cutoff.microText) := by
    simp only [Json.ofInstant, Json.compare?]
  rw [Bool.eq_iff_iff, isLater, decide_eq_true_iff, ← Instant.microText_lt_iff hcutoff hevent]
  simp only [window, Filter.selects, List.all_cons, List.all_nil, Bool.and_true, hfield,
    Predicate.holds, Option.bind_some, hcompare, beq_iff_eq, Option.some.injEq]
  exact compare_text_eq_gt_iff _ _

/-- What the query for the totals answers: the groups over what the window selects, and
no change. -/
theorem query_totals {s : Server} (hconnected : s.connected = true) (cutoff : Instant) :
    s.query (Events.document.totals cutoff) = (s, .ok
      ((s.store.docs Events.table).groupSum (window cutoff) "region" "metric_value")) := by
  simp only [Server.query, Server.checkConnected, hconnected, if_true]
  rfl

/-! ### The totals -/

/-- The sum of the metric over events, in their order. A metric that is no finite number
is stored as none, and adds nothing. -/
def metricSum (events : List Event) : Double :=
  events.foldl (fun sum event => sum.add (if event.metric.isFinite then event.metric else .zero))
    .zero

/-- The row of a region: its name, and the sum over the events in it. -/
def regionRow (events : List Event) (region : String) : Row :=
  .ofPairs [("_id", .text region),
    ("total", .float (metricSum (events.filter fun event => event.region = region)))]

/-- These rows are the totals of events: one for each region that an event is in, in the
order of the regions. As a sum of doubles depends on the order of its summands, the
events are summed up in the order of their identities, under which they are stored. -/
def Totals (events : List Event) (rows : List Row) : Prop :=
  ∃ (sorted : List Event) (regions : List String), sorted.Perm events ∧
    sorted.Pairwise (fun a b => a.id < b.id) ∧ regions.Pairwise (· < ·) ∧
    (∀ region, region ∈ regions ↔ ∃ event ∈ events, event.region = region) ∧
    rows = regions.map (regionRow sorted)

open Documents (groupValue amount total labelled firsts)

/-- What an event adds to its region is its metric. One that is not finite is written as
null and adds nothing. -/
theorem amount_eventEntry (event : Event) : amount "metric_value" (eventEntry event)
    = if event.metric.isFinite then event.metric else .zero := by
  have hfield : (eventEntry event).2.lookup "metric_value" = some (.ofDouble event.metric) := rfl
  rw [amount, hfield, Option.bind_some, Json.ofDouble]
  split <;> rfl

/-- The documents in the group of a region are those of its events, and their total is
the sum over these. -/
theorem total_labelled (events : List Event) (region : String) :
    total "metric_value" (labelled "region" region (events.map eventEntry))
      = metricSum (events.filter fun event => event.region = region) := by
  have hgroup : labelled "region" region (events.map eventEntry)
      = (events.filter fun event => event.region = region).map eventEntry := by
    rw [labelled, List.filter_map]
    rfl
  simp only [hgroup, total, List.foldl_map, amount_eventEntry, metricSum]

/-- Where events are stored, and nothing else is, the answer has their totals. -/
theorem totals_of_records {docs : Documents} {events : List Event}
    (h : docs.Records eventEntry events) :
    Totals events (docs.rows (.groupSum .all "region" "metric_value")) := by
  obtain ⟨sorted, hsorted, hperm⟩ := exists_map_of_perm h.toList_perm
  -- The documents are listed in the order of their keys, which are the identities.
  have hkeys : sorted.Pairwise fun a b => a.id < b.id := by
    have hordered := Std.ExtTreeMap.ordered_keys_toList (t := docs)
    rw [hsorted, List.pairwise_map] at hordered
    exact hordered.imp fun hlt => (compare_text_eq_lt_iff _ _).mp hlt
  let groups := firsts "region" "metric_value" (sorted.map eventEntry)
  have hgroups : ∀ first ∈ groups, ∃ event ∈ sorted, eventEntry event = first := fun first hfirst =>
    List.mem_map.mp (Documents.mem_of_mem_firsts hfirst)
  refine ⟨sorted, groups.map fun first => (groupValue "region" first).label, hperm, hkeys, ?_, ?_,
    ?_⟩
  · refine List.pairwise_map.mpr ((Documents.firsts_ordered "region" "metric_value" _).imp ?_)
    intro a b hlt
    exact (compare_text_eq_lt_iff _ _).mp hlt
  · intro region
    simp only [← hperm.mem_iff, List.mem_map]
    constructor
    · rintro ⟨first, hfirst, rfl⟩
      obtain ⟨event, hevent, rfl⟩ := hgroups first hfirst
      exact ⟨event, hevent, rfl⟩
    · rintro ⟨event, hevent, rfl⟩
      have hgrouped : ∃ first ∈ groups,
          (groupValue "region" (eventEntry event)).label = (groupValue "region" first).label :=
        Documents.exists_mem_firsts "metric_value" (List.mem_map_of_mem hevent)
      obtain ⟨first, hfirst, hlabel⟩ := hgrouped
      exact ⟨first, hfirst, hlabel.symm⟩
  · rw [Documents.rows, Documents.groupSum_eq, Documents.matching_all, hsorted, List.map_map]
    refine List.map_congr_left fun first hfirst => ?_
    obtain ⟨event, -, rfl⟩ := hgroups first hfirst
    rw [Documents.groupRow, total_labelled]
    rfl

/-- Instants of the years 0 to 9999 are written so that their texts sort like the
instants cut off to the microsecond, and are the same just when these are. So, events
being stored as they are inserted, the totals after a cutoff sum up just the events
that are later than it, to the microsecond: the answer has one row for each region of
these events, with the sum of their metric. It is what the store answers to the same
query without a condition if it holds only these events. -/
theorem timestamps_sort :
    (∀ a b : Instant, a.Dated → b.Dated →
      (a.microText < b.microText ↔ a.truncated.Before b.truncated) ∧
      (a.microText = b.microText ↔ a.truncated = b.truncated)) ∧
    (∀ event : Event, Events.document.insert event
      = .on Events.table (.insertOne (eventEntry event).2)) ∧
    ∀ (s : Server) (events : List Event) (cutoff : Instant), s.connected = true →
      (s.store.docs Events.table).Records eventEntry events →
      (∀ event ∈ events, event.instant.Dated) → cutoff.Dated →
      ∃ (later : Documents) (rows : List Row),
        later.Records eventEntry (events.filter (isLater cutoff)) ∧
        s.query (Events.document.totals cutoff) = (s, .ok rows) ∧
        rows = later.rows (.groupSum .all "region" "metric_value") ∧
        Totals (events.filter (isLater cutoff)) rows := by
  refine ⟨fun a b ha hb => ⟨Instant.microText_lt_iff ha hb, Instant.microText_eq_iff ha hb⟩,
    insert_eq, ?_⟩
  intro s events cutoff hconnected hrecords hevents hcutoff
  have hlater := hrecords.filter (window cutoff)
  rw [List.filter_congr fun event hevent => selects_later hcutoff (hevents event hevent)] at hlater
  refine ⟨_, _, hlater, ?_, rfl, totals_of_records hlater⟩
  rw [query_totals hconnected, Documents.groupSum_filter]
  rfl

/-- The middle of the leap second at the end of 2016. -/
def leap : Event := ⟨"e1", ⟨1483228799, 1500000999⟩, "u1", "p1", "eu", .zero⟩

/-- Just after it, in the first second of the year, and in another region. -/
def after : Event := ⟨"e2", ⟨1483228800, 0⟩, "u1", "p1", "us", .ofNat 7⟩

/-- A store of these two events and no others. -/
def leapStore : Server where
  connected := true
  store := Store.install {} Events.table
    ((Std.ExtTreeMap.insert ∅ (eventEntry leap).1 (eventEntry leap).2).insert
      (eventEntry after).1 (eventEntry after).2)

/-- The cutoff is the leap second, so that only the event after it is in the window. -/
theorem timestamps_sort_leap :
    leap.instant.Dated ∧ after.instant.Dated ∧ leapStore.connected = true ∧
    (leapStore.store.docs Events.table).Records eventEntry [after, leap] ∧
    leap.instant.microText < after.instant.microText ∧
    leapStore.query (Events.document.totals leap.instant)
      = (leapStore, .ok [.ofPairs [("_id", .text "us"), ("total", .float (.ofNat 7))]]) := by
  have hleap : leap.instant.Dated := ⟨by decide, by decide, by decide⟩
  have hafter : after.instant.Dated := ⟨by decide, by decide, by decide⟩
  have hevents : ∀ event ∈ [after, leap], event.instant.Dated := by
    simp only [List.forall_mem_cons, hafter, hleap, true_and]
    nofun
  have hrecords : (leapStore.store.docs Events.table).Records eventEntry [after, leap] := by
    have hnone : Documents.Records eventEntry ∅ [] := Documents.records_of_size_eq_zero _ rfl
    have hdocs : leapStore.store.docs Events.table = _ :=
      (Store.docs_install {} _ _ _).trans (if_pos rfl)
    rw [hdocs]
    exact (hnone.insert rfl).insert rfl
  refine ⟨hleap, hafter, rfl, hrecords, ?_, ?_⟩
  · exact (timestamps_sort.1 _ _ hleap hafter).1.mpr (by decide)
  · have hlater : [after, leap].filter (isLater leap.instant) = [after] := by decide
    obtain ⟨-, rows, -, hquery, -, sorted, regions, hsorted, -, hregions, hmem, rfl⟩ :=
      timestamps_sort.2.2 leapStore [after, leap] leap.instant rfl hrecords hevents hleap
    rw [hlater] at hsorted hmem
    obtain rfl := List.perm_singleton.mp hsorted
    -- There is one region, as there is one event.
    have hone : regions.Perm ["us"] := by
      refine (List.perm_ext_iff_of_nodup (hregions.imp String.ne_of_lt)
        (List.nodup_singleton _)).mpr fun region => (hmem region).trans ?_
      simp only [List.mem_singleton, exists_eq_left]
      exact eq_comm
    obtain rfl := List.perm_singleton.mp hone
    rw [hquery]
    rfl

end Scenario.Stream

end StoreBench
