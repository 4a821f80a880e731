import StoreBench.Load.Report
import StoreBench.Proofs.Json.Fractional

/-!
# `StoreBench.Proofs.Load.Report`: reports that are written and read back

A report is written field by field. The counts and the two rates are read back as
they are, a span as its whole microseconds, and the last two fields are left out when
they say nothing, which is what a reader then takes them to say. So a report comes
back in microseconds (`Report.inMicros`), and such a report is written as the same
text again (`Report.survives_writing`).

The fields that are always there fill a draft in their order. What the other two add
to it is said for each of them alone (`Report.fills_panicked`,
`Report.fills_stopCause`).
-/

set_option autoImplicit false

namespace StoreBench

open Json (Reads Fills)

/-- A cause is read from its name, which no other cause has. -/
theorem StopCause.reads (c : StopCause) : Reads read (Json.write (.str c.name)) c where
  starts := Json.starts_writeString c.name
  read rest _ := by
    have hskip : Json.skipBlanks ('"' :: (c.name.toList.flatMap Json.escapeChar ++ '"' :: rest))
        = '"' :: (c.name.toList.flatMap Json.escapeChar ++ '"' :: rest) := rfl
    rw [Json.write, Json.writeString_append, read, Json.readChoice]
    simp only [hskip, Json.readParsed, Json.readStringBody_written, Text.ok_bind]
    cases c <;> rfl

/-- What is left of a length of time in whole microseconds, of which there are no more
than the largest word. -/
def Span.inMicros (s : Span) : Span := ⟨min (s.nanos / 1000) (2 ^ 64 - 1) * 1000⟩

/-- What is less than a microsecond is not in the number of them. -/
theorem Span.micros_inMicros (s : Span) : s.inMicros.micros = s.micros := by
  simp only [inMicros, micros]
  omega

/-- The number of microseconds is a word, as it is cut to one. -/
theorem Span.micros_lt (s : Span) : s.micros < 2 ^ 64 := by
  simp only [micros]
  omega

namespace Report

/-- The report with its spans in whole microseconds. -/
def inMicros (r : Report) : Report :=
  { r with
    p95Latency := r.p95Latency.inMicros
    p99Latency := r.p99Latency.inMicros
    averageLatency := r.averageLatency.inMicros
    totalTime := r.totalTime.inMicros }

/-- The counts fit their words, and the rates are numbers. -/
structure Representable (r : Report) : Prop where
  operations : r.operations < 2 ^ 64
  errors : r.errors < 2 ^ 64
  throughput : r.throughput.isFinite = true
  errorRate : r.errorRate.isFinite = true
  transientRetries : r.transientRetries < 2 ^ 64
  panickedWorkers : r.panickedWorkers < 2 ^ 64

/-! ### Writing -/

/-- Nothing that is written of a report is lost by its microseconds. -/
theorem toJson_inMicros (r : Report) : r.inMicros.toJson = r.toJson := by
  simp only [toJson, inMicros, Span.micros_inMicros]
  rfl

/-! ### Reading -/

/-- A word of a report is read from its digits. -/
theorem reads_word {n : Nat} (h : n < 2 ^ 64) :
    Reads (Json.readNat .u64) (Json.write (.int n)) n :=
  Json.reads_int rfl h (by simp only [Json.IntRange.u64]; omega)

section Draft

variable {d : Draft}

/-- The number of workers that panicked, which is left out when there is none. -/
theorem fills_panicked (hneeds : fields.find? (fun f => f.required && !f.isSet d) = none)
    (hunset : d.panickedWorkers = none) {n : Nat} (hn : n < 2 ^ 64) :
    ∃ after : Draft, after.finish = { d.finish with panickedWorkers := n } ∧
      Fills fields d
        (Json.writeFields (if n = 0 then [] else [("panicked_workers", .int n)])) after := by
  split
  · next hzero =>
      refine ⟨d, ?_, .done hneeds⟩
      simp only [Draft.finish, hunset, hzero, Option.getD_none]
  · exact ⟨{ d with panickedWorkers := some n }, rfl,
      .field _ rfl (Option.isSome_eq_false_iff.mpr (Option.isNone_iff_eq_none.mpr hunset))
        ((reads_word hn).field _ _ _ _ _) (.done hneeds)⟩

/-- The cause of the stop, which is left out when there is none. What is written after
it is the same in both cases. -/
theorem fills_stopCause (hneeds : fields.find? (fun f => f.required && !f.isSet d) = none)
    (hcause : d.stopCause = none) (hpanicked : d.panickedWorkers = none)
    (cause : Option StopCause) {n : Nat} (hn : n < 2 ^ 64) :
    ∃ after : Draft, after.finish = { d.finish with stopCause := cause, panickedWorkers := n } ∧
      Fills fields d (Json.writeFields ((cause.map fun c => ("stop_cause", Json.str c.name)).toList
        ++ if n = 0 then [] else [("panicked_workers", .int n)])) after := by
  cases cause with
  | none =>
      obtain ⟨after, hafter, hfills⟩ := fills_panicked hneeds hpanicked hn
      refine ⟨after, ?_, hfills⟩
      rw [hafter]
      simp only [Draft.finish, hcause, Option.getD_none]
  | some c =>
      obtain ⟨after, hafter, hfills⟩ :=
        fills_panicked (d := { d with stopCause := some (some c) }) hneeds hpanicked hn
      have hreads : Reads (Json.readOption StopCause.read) _ (some c) :=
        (StopCause.reads c).some nofun
      exact ⟨after, hafter,
        .field _ rfl (Option.isSome_eq_false_iff.mpr (Option.isNone_iff_eq_none.mpr hcause))
          (hreads.field _ _ _ _ _) hfills⟩

end Draft

variable {r : Report}

/-- The written fields of a report fill a draft of the report in microseconds. -/
theorem fills_toJson (h : r.Representable) :
    ∃ (written : List (String × Json)) (after : Draft), r.toJson = .obj written ∧
      after.finish = r.inMicros ∧ Fills fields {} (Json.writeFields written) after := by
  obtain ⟨after, hafter, hfills⟩ := fills_stopCause
    (d := ⟨some r.operations, some r.errors, some r.throughput, some r.errorRate,
      some r.p95Latency.micros, some r.p99Latency.micros, some r.averageLatency.micros,
      some r.totalTime.micros, some r.dataIntegrity, some r.transientRetries, none, none⟩)
    rfl rfl rfl r.stopCause h.panickedWorkers
  refine ⟨_, after, rfl, hafter,
    .field _ rfl rfl ((reads_word h.operations).field _ _ _ _ _) <|
    .field _ rfl rfl ((reads_word h.errors).field _ _ _ _ _) <|
    .field _ rfl rfl ((Json.reads_ofDouble h.throughput).field _ _ _ _ _) <|
    .field _ rfl rfl ((Json.reads_ofDouble h.errorRate).field _ _ _ _ _) <|
    .field _ rfl rfl ((reads_word r.p95Latency.micros_lt).field _ _ _ _ _) <|
    .field _ rfl rfl ((reads_word r.p99Latency.micros_lt).field _ _ _ _ _) <|
    .field _ rfl rfl ((reads_word r.averageLatency.micros_lt).field _ _ _ _ _) <|
    .field _ rfl rfl ((reads_word r.totalTime.micros_lt).field _ _ _ _ _) <|
    .field _ rfl rfl ((Json.reads_bool r.dataIntegrity).field _ _ _ _ _) <|
    .field _ rfl rfl ((reads_word h.transientRetries).field _ _ _ _ _) hfills⟩

/-- A report is read from its text as the report in microseconds. -/
theorem ofJsonText_toJson (h : r.Representable) :
    ofJsonText r.toJson.render = .ok r.inMicros := by
  obtain ⟨written, after, hwritten, hafter, hfills⟩ := fills_toJson h
  rw [ofJsonText, hwritten, Json.render, Json.write, (hfills.reads_record "RunResult").readText]
  exact congrArg _ hafter

/-! ### Reports survive -/

/-- What is read from the text of a report is the report with each of its spans in
whole microseconds, and it is written as the same text. The cause of the stop and the
number of workers that panicked are those of the report, also when they were left out. -/
theorem survives_writing (r : Report) (h : r.Representable) :
    ∃ back, ofJsonText r.toJson.render = .ok back ∧ back = r.inMicros ∧
      back.toJson.render = r.toJson.render ∧ back.stopCause = r.stopCause ∧
      back.panickedWorkers = r.panickedWorkers :=
  ⟨r.inMicros, ofJsonText_toJson h, rfl, by rw [toJson_inMicros], rfl, rfl⟩

/-- A span that ends within a microsecond, one of more microseconds than a word can
count, a rate that has no short decimal, and no more than one of the last two fields. -/
def uneven : Report where
  operations := 2 ^ 64 - 1
  errors := 0
  throughput := ⟨0x3fd5555555555555⟩
  errorRate := ⟨0x8000000000000000⟩
  p95Latency := ⟨1999⟩
  p99Latency := ⟨2 ^ 64 * 1000⟩
  averageLatency := ⟨999⟩
  totalTime := ⟨2000000000⟩
  dataIntegrity := false
  stopCause := some .terminalConditionMet

/-- Each latency is read back in whole microseconds, and the one that is beyond a word
as the largest word. -/
theorem survives_writing_uneven :
    uneven.Representable ∧ ofJsonText uneven.toJson.render = .ok
      { uneven with
        p95Latency := ⟨1000⟩, p99Latency := ⟨(2 ^ 64 - 1) * 1000⟩, averageLatency := ⟨0⟩ } := by
  have huneven : uneven.Representable :=
    ⟨by decide, by decide, by decide, by decide, by decide, by decide⟩
  obtain ⟨back, hback, rfl, -⟩ := survives_writing uneven huneven
  exact ⟨huneven, hback⟩

end Report

end StoreBench
