import StoreBench.Proofs.Json.Reading
import StoreBench.Proofs.Time.Span
import StoreBench.Settings.Document

/-!
# `StoreBench.Proofs.Settings.Document`: settings that are written and read back

Each group of settings is a record whose written fields fill it, in the order in
which they are written (`Json.Fills`). A group is read where its fields are, so the
lemmas follow the structure of the settings from the inside out, up to the whole of
the settings.

The numbers have to be such that the words which hold them do, and lengths of time
have to be spans. A number of retries that is not set is written as null, and comes
back as not set.
-/

set_option autoImplicit false

namespace StoreBench

open Json (Reads Fills)

/-- A length of time is read from its text, which humans can read as well. The bound is
that of what such a text can tell, as the reader adds up its parts in words. -/
theorem Span.reads {s : Span} (h : s.nanos < Span.limit) : Reads Span.read (s.toJson.write) s where
  starts := Json.starts_writeString s.text
  read rest hrest := by
    have hstring := (Json.reads_writeString s.text).read rest hrest
    rw [Span.toJson, Json.write, Span.read, hstring, Text.ok_bind]
    simp only [Span.ofText_text h]

/-! ### The groups -/

namespace Addresses

/-- Addresses are texts, so nothing needs to fit anything. -/
theorem reads (a : Addresses) : Reads read a.toJson.write a := by
  have hfills : Fills fields {} (Json.writeFields
      [("memory", .str a.memory), ("sqlite", .str a.sqlite), ("postgres", .str a.postgres)])
      ⟨some a.memory, some a.sqlite, some a.postgres⟩ :=
    .field _ rfl rfl ((Json.reads_writeString a.memory).field _ _ _ _ _) <|
    .field _ rfl rfl ((Json.reads_writeString a.sqlite).field _ _ _ _ _) <|
    .field _ rfl rfl ((Json.reads_writeString a.postgres).field _ _ _ _ _) <| .done rfl
  exact (hfills.reads_record "DatabasesConfig").map fun d : Draft =>
    (⟨d.memory.getD "", d.sqlite.getD "", d.postgres.getD ""⟩ : Addresses)

end Addresses

namespace UsualRun

/-- The usual run is read back: its duration from a text, and the number of its workers,
which has to be a word. -/
theorem reads {r : UsualRun} (hduration : r.duration.nanos < Span.limit)
    (hconcurrency : r.concurrency < 2 ^ 64) : Reads read r.toJson.write r := by
  have hnumber : Reads (Json.readNat .usize) _ r.concurrency :=
    Json.reads_int rfl hconcurrency (by simp only [Json.IntRange.usize]; omega)
  have hfills : Fills fields {} (Json.writeFields
      [("default_duration", r.duration.toJson), ("default_concurrency", .int r.concurrency)])
      ⟨some r.duration, some r.concurrency⟩ :=
    .field _ rfl rfl ((Span.reads hduration).field _ _ _ _ _) <|
    .field _ rfl rfl (hnumber.field _ _ _ _ _) <| .done rfl
  exact (hfills.reads_record "BenchmarkSettings").map fun d : Draft =>
    (⟨d.duration.getD .zero, d.concurrency.getD 0⟩ : UsualRun)

end UsualRun

namespace LatencyConfig

/-- The bounds of latencies are words, the precision a small one. -/
theorem reads {c : LatencyConfig} (hmax : c.maxMicros < 2 ^ 64)
    (hfigures : c.significantFigures < 2 ^ 8) : Reads read c.toJson.write c := by
  have hmicros : Reads (Json.readNat .u64) _ c.maxMicros :=
    Json.reads_int rfl hmax (by simp only [Json.IntRange.u64]; omega)
  have hnumber : Reads (Json.readNat .u8) _ c.significantFigures :=
    Json.reads_int rfl (by omega) (by simp only [Json.IntRange.u8]; omega)
  have hfills : Fills fields {} (Json.writeFields
      [("max_micros", .int c.maxMicros), ("significant_figures", .int c.significantFigures)])
      ⟨some c.maxMicros, some c.significantFigures⟩ :=
    .field _ rfl rfl (hmicros.field _ _ _ _ _) <|
    .field _ rfl rfl (hnumber.field _ _ _ _ _) <| .done rfl
  exact (hfills.reads_record "LatencyConfig").map fun d : Draft =>
    (⟨d.maxMicros.getD 0, d.significantFigures.getD 0⟩ : LatencyConfig)

end LatencyConfig

namespace RetryPolicy

/-- A limit of retries is read as it was set, or as not set. -/
theorem reads_maxRetries (limit : Option Nat) :
    (∀ n, limit = some n → n < 2 ^ 32) → Reads (Json.readOption (Json.readNat .u32))
      (Json.write (match limit with | some n => .int n | none => .null)) limit := by
  intro h
  cases limit with
  | none => exact Json.reads_none _
  | some n =>
      have hn := h n rfl
      refine (Json.reads_int rfl (by omega) (by simp only [Json.IntRange.u32]; omega)).some ?_
      -- Null begins with a letter, and a number does not.
      obtain ⟨c, cs, htext, hc⟩ := Json.intText_eq_cons n
      rw [Json.write, htext, List.head?_cons, ne_eq, Option.some.injEq]
      rintro rfl
      rcases hc with hsign | hdigit
      · cases hsign
      · cases hdigit

/-- A policy without a bound on retries writes null in its place, which is read as no
bound again. -/
theorem reads {p : RetryPolicy} (hretries : ∀ n, p.maxRetries = some n → n < 2 ^ 32)
    (hbackoff : p.backoff.nanos < Span.limit) : Reads read p.toJson.write p := by
  have hfills : Fills fields {} (Json.writeFields
      [ ("max_retries", match p.maxRetries with | some n => .int n | none => .null),
        ("backoff", p.backoff.toJson) ]) ⟨some p.maxRetries, some p.backoff⟩ :=
    .field _ rfl rfl ((reads_maxRetries _ hretries).field _ _ _ _ _) <|
    .field _ rfl rfl ((Span.reads hbackoff).field _ _ _ _ _) <| .done rfl
  exact (hfills.reads_record "RetryConfig").map fun d : Draft =>
    (⟨d.maxRetries.getD none, d.backoff.getD .zero⟩ : RetryPolicy)

end RetryPolicy

namespace Settings

/-- What the words and the lengths of time of the settings can be. The settings that a
run can load are all of this kind, as they were read into words before. -/
structure Representable (s : Settings) : Prop where
  duration : s.run.duration.nanos < Span.limit
  concurrency : s.run.concurrency < 2 ^ 64
  grace : s.engine.grace.nanos < Span.limit
  maxMicros : s.engine.latency.maxMicros < 2 ^ 64
  significantFigures : s.engine.latency.significantFigures < 2 ^ 8
  maxRetries : ∀ n, s.engine.retry.maxRetries = some n → n < 2 ^ 32
  backoff : s.engine.retry.backoff.nanos < Span.limit

variable {s : Settings}

/-- The settings of the engine are read back, each of its three parts by the lemma for
that part. -/
theorem reads_engine (h : s.Representable) :
    Reads EngineConfig.read s.engine.toJson.write s.engine := by
  have hlatency := LatencyConfig.reads h.maxMicros h.significantFigures
  have hretry := RetryPolicy.reads h.maxRetries h.backoff
  have hfills : Fills EngineConfig.fields {} (Json.writeFields
      [("shutdown_grace", s.engine.grace.toJson), ("latency", s.engine.latency.toJson),
        ("retry", s.engine.retry.toJson)])
      ⟨some s.engine.grace, some s.engine.latency, some s.engine.retry⟩ :=
    .field _ rfl rfl ((Span.reads h.grace).field _ _ _ _ _) <|
    .field _ rfl rfl (hlatency.field _ _ _ _ _) <|
    .field _ rfl rfl (hretry.field _ _ _ _ _) <| .done rfl
  exact (hfills.reads_record "EngineConfig").map fun d : EngineConfig.Draft =>
    (⟨d.grace.getD .zero, d.latency.getD {}, d.retry.getD {}⟩ : EngineConfig)

/-- All settings are read back from their document, part by part. -/
theorem reads (h : s.Representable) : Reads read s.toJson.write s := by
  have hrun := UsualRun.reads h.duration h.concurrency
  have hfills : Fills fields {} (Json.writeFields
      [("databases", s.addresses.toJson), ("benchmark_settings", s.run.toJson),
        ("engine", s.engine.toJson)])
      ⟨some s.addresses, some s.run, some s.engine⟩ :=
    .field _ rfl rfl ((Addresses.reads s.addresses).field _ _ _ _ _) <|
    .field _ rfl rfl (hrun.field _ _ _ _ _) <|
    .field _ rfl rfl ((reads_engine h).field _ _ _ _ _) <| .done rfl
  exact (hfills.reads_record "BenchConfig").map fun d : Draft =>
    (⟨d.addresses.getD {}, d.run.getD {}, d.engine.getD {}⟩ : Settings)

/-- Settings are read back from the document that they are written as, and every
length of time from its text. Settings are representable when each number fits the type of
its field, so all settings that a program can hold are. A limit of retries that is left
open is written as null, and is left open again by what is read. -/
theorem survive_document :
    (∀ s : Settings, s.Representable → ofJsonText s.toJson.render = .ok s) ∧
    ∀ span : Span, span.nanos < Span.limit → Span.ofText span.text = .ok span := by
  refine ⟨fun s h => ?_, fun span h => Span.ofText_text h⟩
  rw [ofJsonText, Json.render, (reads h).readText]
  rfl

/-- The greatest words and lengths of time, an address with a quote and a control
character in it, and no limit of retries. -/
def extreme : Settings where
  addresses := { sqlite := "file:\"a\\b\"\u0001?mode=rw" }
  run := ⟨⟨Span.limit - 1⟩, 2 ^ 64 - 1⟩
  engine := ⟨⟨1⟩, ⟨2 ^ 64 - 1, 2 ^ 8 - 1⟩, ⟨none, ⟨Span.limit - 1⟩⟩⟩

/-- The largest words, the longest duration and no bound on retries survive together, so
no bound of the theorem is out of reach. -/
theorem survive_document_extreme :
    extreme.Representable ∧ ofJsonText extreme.toJson.render = .ok extreme ∧
    Span.ofText extreme.run.duration.text = .ok extreme.run.duration := by
  have hextreme : extreme.Representable :=
    ⟨by decide, by decide, by decide, by decide, by decide, nofun, by decide⟩
  exact ⟨hextreme, survive_document.1 extreme hextreme, survive_document.2 _ hextreme.duration⟩

end Settings

end StoreBench
