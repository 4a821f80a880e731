import StoreBench.Proofs.Json.Reading
import StoreBench.Proofs.Settings.Merging
import StoreBench.Settings.Layers

/-!
# `StoreBench.Proofs.Settings.Leaves`: settings one by one

Settings are a record of records. Taken one by one, each has a place in a tree
(`Setting.path`), a type (`Setting.kind`) and a value (`Settings.scalar`). No place is inside
another. The values make up the record (`Settings.eq_of_scalar`), and values of the right
types make one (`Settings.exists_scalar`).

A tree that shows the value of each setting at its place is read as the record
(`Layers.toSettings_shown`). That is shown group by group, as the readers go. Only the number
of retries may be missing, which then is left open.
-/

set_option autoImplicit false

namespace StoreBench

/-! ### Single settings -/

/-- The value of a single setting. `absent` is the value of one that is left open, as
the number of retries may be. -/
inductive Scalar
  | text (s : String)
  | span (s : Span)
  | word (n : Nat)
  | absent
deriving DecidableEq, Repr, Inhabited

/-- The settings, each by itself. One for each leaf of the record, whatever group it is
in. -/
inductive Setting
  | memory | sqlite | postgres
  | duration | concurrency
  | grace | maxMicros | figures | maxRetries | backoff
deriving DecidableEq, Repr, Inhabited

/-- What a single setting may be: a text, a length of time, or a word of so many bits, which
may be left open. -/
inductive Kind
  | text
  | span
  | word (bits : Nat)
  | optional (bits : Nat)
deriving DecidableEq, Repr, Inhabited

namespace Setting

/-- The names of the groups that a setting is in, and its own. -/
def path : Setting → List String
  | memory => ["databases", "memory"]
  | sqlite => ["databases", "sqlite"]
  | postgres => ["databases", "postgres"]
  | duration => ["benchmark_settings", "default_duration"]
  | concurrency => ["benchmark_settings", "default_concurrency"]
  | grace => ["engine", "shutdown_grace"]
  | maxMicros => ["engine", "latency", "max_micros"]
  | figures => ["engine", "latency", "significant_figures"]
  | maxRetries => ["engine", "retry", "max_retries"]
  | backoff => ["engine", "retry", "backoff"]

/-- The type of a setting. The sizes of the words are those of the fields that they are
read into. -/
def kind : Setting → Kind
  | memory | sqlite | postgres => .text
  | duration | grace | backoff => .span
  | concurrency | maxMicros => .word 64
  | figures => .word 8
  | maxRetries => .optional 32

/-- No setting is inside another, so that one can be given without touching the rest. -/
theorem eq_of_prefix {a b : Setting} (h : a.path <+: b.path) : a = b := by
  cases a <;> cases b <;> first | rfl | exact absurd h (by decide)

end Setting

/-- One of the settings. With `Setting.path` it says what the record is as a tree. -/
def Settings.scalar (s : Settings) : Setting → Scalar
  | .memory => .text s.addresses.memory
  | .sqlite => .text s.addresses.sqlite
  | .postgres => .text s.addresses.postgres
  | .duration => .span s.run.duration
  | .concurrency => .word s.run.concurrency
  | .grace => .span s.engine.grace
  | .maxMicros => .word s.engine.latency.maxMicros
  | .figures => .word s.engine.latency.significantFigures
  | .maxRetries => s.engine.retry.maxRetries.elim .absent .word
  | .backoff => .span s.engine.retry.backoff

/-- Settings are the same if each of them is. -/
theorem Settings.eq_of_scalar {s t : Settings}
    (h : ∀ setting, s.scalar setting = t.scalar setting) : s = t := by
  obtain ⟨⟨memory, sqlite, postgres⟩, ⟨duration, concurrency⟩,
    ⟨grace, ⟨maxMicros, figures⟩, ⟨maxRetries, backoff⟩⟩⟩ := s
  obtain ⟨⟨memory', sqlite', postgres'⟩, ⟨duration', concurrency'⟩,
    ⟨grace', ⟨maxMicros', figures'⟩, ⟨maxRetries', backoff'⟩⟩⟩ := t
  cases h .memory
  cases h .sqlite
  cases h .postgres
  cases h .duration
  cases h .concurrency
  cases h .grace
  cases h .maxMicros
  cases h .figures
  cases h .backoff
  have hretries := h .maxRetries
  cases maxRetries <;> cases maxRetries' <;> cases hretries <;> rfl

/-- What a setting of some kind is when it is one. -/
def Kind.Has : Kind → Scalar → Prop
  | .text, a => ∃ s, a = .text s
  | .span, a => ∃ s, a = .span s
  | .word _, a => ∃ n, a = .word n
  | .optional _, a => ∃ n : Option Nat, a = n.elim .absent .word

/-- Settings can be put together from values of the right kinds. So layers can be merged
setting by setting, and the record is there at the end. -/
theorem Settings.exists_scalar {values : Setting → Scalar}
    (h : ∀ setting : Setting, setting.kind.Has (values setting)) :
    ∃ s : Settings, ∀ setting, s.scalar setting = values setting := by
  obtain ⟨memory, hmemory⟩ := h .memory
  obtain ⟨sqlite, hsqlite⟩ := h .sqlite
  obtain ⟨postgres, hpostgres⟩ := h .postgres
  obtain ⟨duration, hduration⟩ := h .duration
  obtain ⟨concurrency, hconcurrency⟩ := h .concurrency
  obtain ⟨grace, hgrace⟩ := h .grace
  obtain ⟨maxMicros, hmaxMicros⟩ := h .maxMicros
  obtain ⟨figures, hfigures⟩ := h .figures
  obtain ⟨maxRetries, hmaxRetries⟩ := h .maxRetries
  obtain ⟨backoff, hbackoff⟩ := h .backoff
  refine ⟨⟨⟨memory, sqlite, postgres⟩, ⟨duration, concurrency⟩,
    ⟨grace, ⟨maxMicros, figures⟩, ⟨maxRetries, backoff⟩⟩⟩, fun setting => ?_⟩
  cases setting
  case memory => exact hmemory.symm
  case sqlite => exact hsqlite.symm
  case postgres => exact hpostgres.symm
  case duration => exact hduration.symm
  case concurrency => exact hconcurrency.symm
  case grace => exact hgrace.symm
  case maxMicros => exact hmaxMicros.symm
  case figures => exact hfigures.symm
  case maxRetries => exact hmaxRetries.symm
  case backoff => exact hbackoff.symm

/-! ### Reading a tree -/

namespace Tree

variable {α : Type} {t group : Tree} {name : String} {path : List String} {read : Tree → Read α}
  {a : α}

/-- A value can be read at a path. -/
def Shows (t : Tree) (path : List String) (read : Tree → Read α) (a : α) : Prop :=
  ∃ leaf, t.find? path = some leaf ∧ read leaf = .ok a

/-- What is shown below an entry is shown by the entry. -/
theorem Shows.exists_entry (h : t.Shows (name :: path) read a) :
    ∃ group, t.entries.lookup name = some group ∧ group.Shows path read a := by
  obtain ⟨leaf, hfind, hread⟩ := h
  obtain ⟨group, hgroup, hleaf⟩ := Option.bind_eq_some_iff.mp hfind
  exact ⟨group, hgroup, leaf, hleaf, hread⟩

/-- Seen from the entry, what the tree shows below it. Names occur once on the way down,
as `lookup` takes the first. -/
theorem Shows.of_entry (hgroup : t.entries.lookup name = some group)
    (h : t.Shows (name :: path) read a) : group.Shows path read a := by
  obtain ⟨other, hother, hshows⟩ := h.exists_entry
  cases hgroup.symm.trans hother
  exact hshows

/-- An entry that can be read is shown under its name. -/
theorem Shows.entry (hgroup : t.entries.lookup name = some group) (h : read group = .ok a) :
    t.Shows [name] read a :=
  ⟨group, by rw [find?, hgroup]; rfl, h⟩

/-- A tree that shows something below it is a table. -/
theorem Shows.parts (h : t.Shows (name :: path) read a) (title : String) :
    t.parts title = .ok (.named t.entries) := by
  obtain ⟨group, hgroup, -⟩ := h.exists_entry
  cases t with
  | table origin entries => rfl
  | leaf origin value => cases hgroup
  | list origin items => cases hgroup

/-- A field whose name shows a value is read as it. The position only matters for lists,
which name nothing. -/
theorem Shows.field (h : t.Shows [name] read a) (i : Nat) :
    (Parts.named t.entries).field i name read = .ok (some a) := by
  obtain ⟨group, hgroup, leaf, hleaf, hread⟩ := h.exists_entry
  cases hleaf
  simp only [Parts.field, hgroup, hread]
  rfl

/-- A reader that is another one with a constructor around it shows what the other one
does. -/
theorem Shows.of_map {β : Type} {f : α → β} (hf : Function.Injective f)
    (h : t.Shows path (fun t => (read t).map f) (f a)) : t.Shows path read a := by
  obtain ⟨leaf, hleaf, hread⟩ := h
  refine ⟨leaf, hleaf, ?_⟩
  change (read leaf).map f = _ at hread
  cases hvalue : read leaf with
  | error flaw =>
      rw [hvalue] at hread
      cases hread
  | ok b =>
      rw [hvalue] at hread
      rw [hf (Except.ok.inj hread)]

/-- A word of fewer bits is read as the same number where the reader asks for no size. -/
theorem toNat_of_toWord {bits n : Nat} (h : t.toWord bits = .ok n) : t.toNat = .ok n := by
  rw [toWord] at h
  cases hnat : t.toNat with
  | error flaw =>
      rw [hnat] at h
      cases h
  | ok m =>
      rw [hnat, Text.ok_bind] at h
      split at h
      · exact h
      · cases h

/-- A field that is not there is left to whoever asks for it, who may have a default. -/
theorem field_missing (h : t.find? [name] = none) (i : Nat) (read : Tree → Read α) :
    (Parts.named t.entries).field i name read = .ok none := by
  have hentry : t.entries.lookup name = none := by
    cases hentry : t.entries.lookup name with
    | none => rfl
    | some group =>
        rw [find?, hentry] at h
        cases h
  simp only [Parts.field, hentry]

end Tree

namespace Layers

variable {t : Tree}

/-- The addresses are read, if each of them is shown. -/
theorem toAddresses_shown {a : Addresses} (hmemory : t.Shows ["memory"] Tree.toText a.memory)
    (hsqlite : t.Shows ["sqlite"] Tree.toText a.sqlite)
    (hpostgres : t.Shows ["postgres"] Tree.toText a.postgres) : toAddresses t = .ok a := by
  simp only [toAddresses, hmemory.parts, hmemory.field, hsqlite.field, hpostgres.field,
    Text.ok_bind, Tree.Parts.need]
  rfl

/-- So are the settings of a run. -/
theorem toUsualRun_shown {r : UsualRun} (hduration : t.Shows ["default_duration"] toSpan r.duration)
    (hconcurrency : t.Shows ["default_concurrency"] Tree.toNat r.concurrency) :
    toUsualRun t = .ok r := by
  simp only [toUsualRun, hduration.parts, hduration.field, hconcurrency.field, Text.ok_bind,
    Tree.Parts.need]
  rfl

/-- The settings of latencies are read off a tree that shows their two numbers. -/
theorem toLatency_shown {c : LatencyConfig}
    (hmicros : t.Shows ["max_micros"] Tree.toNat c.maxMicros)
    (hfigures : t.Shows ["significant_figures"] (Tree.toWord 8) c.significantFigures) :
    toLatency t = .ok c := by
  simp only [toLatency, hmicros.parts, hmicros.field, hfigures.field, Text.ok_bind,
    Tree.Parts.need]
  rfl

/-- The number of retries may be left open. -/
def ShowsRetries (t : Tree) (path : List String) (n : Option Nat) : Prop :=
  t.Shows path (Tree.toOption (Tree.toWord 32)) n ∨ t.find? path = none ∧ n = none

/-- The settings of retries are read off a tree that shows them. The number of retries
may be missing. -/
theorem toRetry_shown {p : RetryPolicy} (hretries : ShowsRetries t ["max_retries"] p.maxRetries)
    (hbackoff : t.Shows ["backoff"] toSpan p.backoff) : toRetry t = .ok p := by
  obtain ⟨maxRetries, backoff⟩ := p
  rcases hretries with hretries | ⟨hmissing, hnone⟩
  · simp only [toRetry, hbackoff.parts, hretries.field, hbackoff.field, Text.ok_bind]
    rfl
  · cases hnone
    simp only [toRetry, hbackoff.parts, Tree.field_missing hmissing, hbackoff.field, Text.ok_bind]
    rfl

/-- The settings of the engine hold two groups of their own. Both are there, as
something is shown in each of them that cannot be missing. -/
theorem toEngine_shown {c : EngineConfig} (hgrace : t.Shows ["shutdown_grace"] toSpan c.grace)
    (hmicros : t.Shows ["latency", "max_micros"] Tree.toNat c.latency.maxMicros)
    (hfigures : t.Shows ["latency", "significant_figures"] (Tree.toWord 8)
      c.latency.significantFigures)
    (hretries : ShowsRetries t ["retry", "max_retries"] c.retry.maxRetries)
    (hbackoff : t.Shows ["retry", "backoff"] toSpan c.retry.backoff) : toEngine t = .ok c := by
  obtain ⟨latency, hlatency, hmicros⟩ := hmicros.exists_entry
  obtain ⟨retry, hretry, hbackoff⟩ := hbackoff.exists_entry
  have hretries : ShowsRetries retry ["max_retries"] c.retry.maxRetries := by
    refine hretries.imp (Tree.Shows.of_entry hretry) (And.imp_left fun hmissing => ?_)
    rwa [Tree.find?, hretry] at hmissing
  have hlatency := Tree.Shows.entry hlatency (toLatency_shown hmicros (hfigures.of_entry hlatency))
  have hretry := Tree.Shows.entry hretry (toRetry_shown hretries hbackoff)
  simp only [toEngine, hgrace.parts, hgrace.field, hlatency.field, hretry.field, Text.ok_bind,
    Tree.Parts.need]
  rfl

end Layers

/-- Reading a setting of some kind. These are the readers of the record, made to give
values of one type. -/
def Kind.read : Kind → Tree → Tree.Read Scalar
  | .text, t => t.toText.map .text
  | .span, t => (Layers.toSpan t).map .span
  | .word bits, t => (t.toWord bits).map .word
  | .optional bits, t => (t.toOption (Tree.toWord bits)).map fun n => n.elim .absent .word

/-- A tree shows a setting, which may be missing if it is left open. -/
def Tree.ShowsSetting (t : Tree) (setting : Setting) (value : Scalar) : Prop :=
  t.Shows setting.path setting.kind.read value
    ∨ t.find? setting.path = none ∧ setting = .maxRetries ∧ value = .absent

namespace Layers

/-- A tree that shows all settings is read as these. -/
theorem toSettings_shown {t : Tree} {s : Settings}
    (h : ∀ setting, t.ShowsSetting setting (s.scalar setting)) : toSettings t = .ok s := by
  have hshows (setting : Setting) (hne : setting ≠ .maxRetries) :
      t.Shows setting.path setting.kind.read (s.scalar setting) :=
    (h setting).resolve_right fun hmissing => hne hmissing.2.1
  have htext {path : List String} {a : String} (h : t.Shows path (Kind.read .text) (.text a)) :
      t.Shows path Tree.toText a := Tree.Shows.of_map (fun _ _ => Scalar.text.inj) h
  have hspan {path : List String} {a : Span} (h : t.Shows path (Kind.read .span) (.span a)) :
      t.Shows path toSpan a := Tree.Shows.of_map (fun _ _ => Scalar.span.inj) h
  have hword {path : List String} {bits n : Nat}
      (h : t.Shows path (Kind.read (.word bits)) (.word n)) : t.Shows path (Tree.toWord bits) n :=
    Tree.Shows.of_map (fun _ _ => Scalar.word.inj) h
  have hnat {path : List String} {n : Nat} (h : t.Shows path (Kind.read (.word 64)) (.word n)) :
      t.Shows path Tree.toNat n := (hword h).imp fun _ => And.imp_right Tree.toNat_of_toWord
  have hretries : ShowsRetries t ["engine", "retry", "max_retries"] s.engine.retry.maxRetries := by
    have hopen : Function.Injective fun n : Option Nat => n.elim Scalar.absent .word := by
      intro n m hnm
      cases n <;> cases m <;> cases hnm <;> rfl
    exact (h .maxRetries).imp (Tree.Shows.of_map hopen) fun hmissing =>
      ⟨hmissing.1, hopen hmissing.2.2⟩
  -- Each group is reached by one of its settings, and the others are found there too.
  obtain ⟨databases, hdatabases, hmemory⟩ := (htext (hshows .memory nofun)).exists_entry
  obtain ⟨run, hrun, hduration⟩ := (hspan (hshows .duration nofun)).exists_entry
  obtain ⟨engine, hengine, hgrace⟩ := (hspan (hshows .grace nofun)).exists_entry
  have haddresses := Tree.Shows.entry hdatabases (toAddresses_shown hmemory
    ((htext (hshows .sqlite nofun)).of_entry hdatabases)
    ((htext (hshows .postgres nofun)).of_entry hdatabases))
  have husual := Tree.Shows.entry hrun (toUsualRun_shown hduration
    ((hnat (hshows .concurrency nofun)).of_entry hrun))
  have hconfig := Tree.Shows.entry hengine (toEngine_shown hgrace
    ((hnat (hshows .maxMicros nofun)).of_entry hengine)
    ((hword (hshows .figures nofun)).of_entry hengine)
    (hretries.imp (Tree.Shows.of_entry hengine) (And.imp_left fun hmissing => by
      rwa [Tree.find?, hengine] at hmissing))
    ((hspan (hshows .backoff nofun)).of_entry hengine))
  simp only [toSettings, haddresses.parts, haddresses.field, husual.field, hconfig.field,
    Text.ok_bind]
  rfl

end Layers

end StoreBench
