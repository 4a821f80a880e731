import Mathlib.Data.Option.Basic
import StoreBench.Proofs.Settings.Values

/-!
# `StoreBench.Proofs.Settings.Layers`: which layer has the last word

A document is a list of assignments (`Layers.assignments`), and so are the variables. What is
asked of them is that they assign to settings only, and values of the right types
(`Layers.IsTyped`, `Layers.AreTyped`). Any number of settings may be left out.

In what formats the documents are written makes no difference. The surroundings say which
formats there are and how they are read; all that counts of a file is that one of them has the
ending of its name, and finds the document in it (`Layers.Present`).

A layer `Sets` settings to values if its items are not in the way of any setting and the last
of them for a setting has the value. The defaults, the documents and the variables all do. A
layer that is merged over others has its own values and theirs elsewhere (`Sets.merge`), so
`Documents.finds_mergeAll` finds each setting with the value of the last layer that has one.

`Settings.load_by_layers` takes this to the settings that are loaded. They are as assigned but
for very large numbers (`keptWhole`, `Settings.not_always_as_set`).
-/

set_option autoImplicit false

namespace StoreBench

/-! ### Documents -/

namespace Json

mutual

/-- The values of a document with their paths. An object without entries is one of them. -/
def leaves : Json → List (List String × Json)
  | .obj fields => if fields.isEmpty then [([], .obj [])] else leavesOf fields
  | value => [([], value)]

/-- The values in the fields of an object, with the name of each field before the paths
of what is found in it. -/
def leavesOf : Fields → List (List String × Json)
  | [] => []
  | (name, value) :: rest =>
    (leaves value).map (fun leaf => (name :: leaf.1, leaf.2)) ++ leavesOf rest

end

end Json

mutual

/-- The items of a document as a tree are its leaves, each with where it came from. -/
theorem items_ofJson (origin : Origin) (value : Json) : Tree.items (Tree.ofJson origin value)
    = (Json.leaves value).map fun leaf => (leaf.1, Tree.ofJson origin leaf.2) := by
  match value with
  | .obj [] => rfl
  | .obj (field :: rest) => exact itemsOf_ofFields origin (field :: rest)
  | .arr _ | .null | .bool _ | .int _ | .float _ | .str _ => rfl

/-- The items of the fields of a document as a tree are the leaves of these fields, each
with where it came from. -/
theorem itemsOf_ofFields (origin : Origin) (fields : Fields) :
    Tree.itemsOf (Tree.ofFields origin fields)
      = (Json.leavesOf fields).map fun leaf => (leaf.1, Tree.ofJson origin leaf.2) := by
  match fields with
  | [] => rfl
  | (name, value) :: rest =>
    rw [Tree.ofFields, Tree.itemsOf, items_ofJson origin value, itemsOf_ofFields origin rest,
      Json.leavesOf, List.map_append, List.map_map, List.map_map]
    rfl

end

namespace Layers

/-- What a document sets, in its order: values with their paths. A name at the top may be a
path of its own. -/
def assignments (fields : Fields) : List (List String × Json) :=
  fields.flatMap fun field =>
    (Json.leaves field.2).map fun leaf => (Tree.pathOf field.1 ++ leaf.1, leaf.2)

/-- A document as a layer assigns its leaves, each under the path that it is found at. -/
theorem sourceItems_ofFields (origin : Origin) (fields : Fields) :
    Tree.sourceItems (Tree.ofFields origin fields)
      = (assignments fields).map fun item => (item.1, Tree.ofJson origin item.2) := by
  induction fields with
  | nil => rfl
  | cons field rest ih =>
      rw [Tree.sourceItems] at ih
      rw [Tree.ofFields, Tree.sourceItems, List.flatMap_cons, ih, assignments, assignments,
        List.flatMap_cons, List.map_append, items_ofJson, Tree.placed, List.map_map, List.map_map]
      rfl

/-- A document sets nothing but settings, each to a value of its type. Objects without entries
may stand where the groups are. -/
def IsTyped (fields : Fields) : Prop :=
  ∀ item ∈ assignments fields,
    (∃ setting : Setting, item.1 = setting.path ∧ (setting.kind.ofJson? id item.2).isSome)
      ∨ item.2 = .obj [] ∧ ∃ setting : Setting, item.1 <+: setting.path ∧ item.1 ≠ setting.path

/-- What a document sets a setting to, if it does, where `whole` says what becomes of whole
numbers. -/
def inDocument? (whole : Nat → Nat) (fields : Fields) (setting : Setting) : Option Scalar :=
  (last? setting.path (assignments fields)).bind (setting.kind.ofJson? whole)

/-! ### Variables -/

/-- The name of the variable for a setting, in small letters. -/
def variableName (setting : Setting) : String := "dbbench__" ++ "__".intercalate setting.path

/-- The variables that begin as those for settings do are such variables, and set the setting
to a value of its type. -/
def AreTyped (environment : List (String × String)) : Prop :=
  ∀ v ∈ environment, "dbbench__".toList <+: (lowered v.1).toList →
    ∃ setting : Setting, lowered v.1 = variableName setting ∧ (setting.kind.ofText? id v.2).isSome

/-- What the variables set a setting to, if they do, where `whole` says what becomes of whole
numbers. -/
def inVariables? (whole : Nat → Nat) (environment : List (String × String)) (setting : Setting) :
    Option Scalar :=
  (last? (variableName setting) (environment.map fun v => (lowered v.1, v.2))).bind
    (setting.kind.ofText? whole)

/-! ### Layers -/

/-- Settings at one place are one setting. -/
theorem path_inj {a b : Setting} : a.path = b.path ↔ a = b :=
  ⟨fun h => Setting.eq_of_prefix (h ▸ List.prefix_rfl), fun h => h ▸ rfl⟩

/-- The value of one setting is not in the way of another. -/
theorem apart_setting {t : Tree} (ht : t.isTable = false) (a b : Setting) :
    Tree.Apart a.path (b.path, t) := by
  by_cases heq : b = a
  · exact .inl ⟨congrArg Setting.path heq, ht⟩
  · exact .inr (.inr ⟨fun h => heq (Setting.eq_of_prefix h),
      fun h => heq (Setting.eq_of_prefix h).symm⟩)

/-- An empty group is in the way of no setting, as it sets nothing and takes nothing
away. -/
theorem apart_group {path : List String} {t : Tree} (ht : t.isTable = true) {b : Setting}
    (hpath : path <+: b.path) (hne : path ≠ b.path) (a : Setting) :
    Tree.Apart a.path (path, t) := by
  have hbelow (h : a.path <+: path) : False := by
    cases Setting.eq_of_prefix (h.trans hpath)
    exact hne (hpath.eq_of_length_le h.length_le)
  by_cases habove : path <+: a.path
  · refine .inr (.inl ⟨habove, ?_, ht⟩)
    rintro rfl
    exact hbelow List.prefix_rfl
  · exact .inr (.inr ⟨habove, hbelow⟩)

/-- What is found for a setting: the value it has, or nothing if it has none. -/
def Finds (setting : Setting) (found : Option Tree) (value : Option Scalar) : Prop :=
  Option.Rel setting.kind.Holds found value

/-- What a later layer finds is found, and otherwise what the layers before it do. -/
theorem Finds.or {setting : Setting} {found found' : Option Tree} {value value' : Option Scalar}
    (h : Finds setting found value) (h' : Finds setting found' value') :
    Finds setting (found.or found') (value.or value') := by
  cases h with
  | some h => exact .some h
  | none => exact h'

/-- A source sets settings to these values, and nothing else. -/
structure Sets (source : List (String × Tree)) (values : Setting → Option Scalar) : Prop where
  apart : ∀ setting : Setting, ∀ item ∈ Tree.sourceItems source, Tree.Apart setting.path item
  finds : ∀ setting, Finds setting (last? setting.path (Tree.sourceItems source)) (values setting)

/-- A source is merged over what was there. -/
theorem Sets.merge {source : List (String × Tree)} {values before : Setting → Option Scalar}
    {t : Tree} (h : Sets source values)
    (ht : ∀ setting, Finds setting (t.find? setting.path) (before setting)) (setting : Setting) :
    Finds setting ((t.merge source).find? setting.path)
      ((values setting).or (before setting)) := by
  rw [Tree.find?_merge t (h.apart setting)]
  exact (h.finds setting).or (ht setting)

/-- A document is a layer, if it sets nothing but settings, each to a value of its type. -/
theorem sets_ofFields (origin : Origin) {fields : Fields} (h : IsTyped fields) :
    Sets (Tree.ofFields origin fields) (inDocument? keptWhole fields) where
  apart setting item hitem := by
    rw [sourceItems_ofFields] at hitem
    obtain ⟨⟨path, value⟩, hmem, rfl⟩ := List.mem_map.mp hitem
    -- Each assignment is that of a setting, or an empty group.
    rcases h _ hmem with ⟨other, hpath, hvalue⟩ | ⟨hvalue, other, hpath, hne⟩
    · rw [← Kind.isSome_ofJson? keptWhole] at hvalue
      obtain ⟨a, ha⟩ := Option.isSome_iff_exists.mp hvalue
      cases hpath
      exact apart_setting (Kind.holds_ofJson origin (Setting.bits_le other) ha).isTable setting
        other
    · cases hvalue
      exact apart_group rfl hpath hne setting
  finds setting := by
    rw [sourceItems_ofFields, last?_map, inDocument?]
    cases hlast : last? setting.path (assignments fields) with
    | none => exact .none
    | some value =>
        rcases h _ (mem_of_last? hlast) with ⟨other, hpath, hvalue⟩ | ⟨-, other, hpath, hne⟩
        · cases path_inj.mp hpath
          rw [← Kind.isSome_ofJson? keptWhole] at hvalue
          obtain ⟨a, ha⟩ := Option.isSome_iff_exists.mp hvalue
          rw [Option.bind_some, ha]
          exact .some (Kind.holds_ofJson origin (Setting.bits_le setting) ha)
        · exact absurd (path_inj.mpr (Setting.eq_of_prefix hpath)) hne

/-- An entry that is a value is an item. -/
theorem sourceItems_cons {key : String} {t : Tree} (ht : t.isTable = false)
    (rest : List (String × Tree)) :
    Tree.sourceItems ((key, t) :: rest) = (Tree.pathOf key, t) :: Tree.sourceItems rest := by
  rw [Tree.sourceItems, List.flatMap_cons, Tree.items_value ht, Tree.placed, List.map_singleton,
    List.append_nil]
  rfl

/-- The path that the name of a variable stands for. -/
theorem pathOf_variableName (setting : Setting) : Tree.pathOf (String.ofList
    (dotted ((variableName setting).toList.drop "dbbench__".toList.length))) = setting.path := by
  cases setting <;> decide +kernel

/-- The variable of a setting begins like all of them do, so that it is picked out of
the environment. -/
theorem prefix_variableName (setting : Setting) :
    "dbbench__".toList <+: (variableName setting).toList := by
  cases setting <;> decide +kernel

/-- No two settings go by one variable. -/
theorem variableName_inj {a b : Setting} : variableName a = variableName b ↔ a = b := by
  refine ⟨fun h => path_inj.mp ?_, fun h => h ▸ rfl⟩
  rw [← pathOf_variableName a, h, pathOf_variableName]

/-- A variable for a setting makes an entry there. -/
theorem exists_variableEntry {v : String × String} {setting : Setting}
    (h : lowered v.1 = variableName setting) : ∃ key, Tree.pathOf key = setting.path
      ∧ variableEntry? v = some (key, .leaf (some "the environment") (variableValue v.2)) := by
  refine ⟨_, pathOf_variableName setting, ?_⟩
  rw [ variableEntry?, h, if_pos (List.isPrefixOf_iff_prefix.mpr (prefix_variableName setting))]

/-- A variable that begins otherwise is not a setting's, whatever it holds. -/
theorem variableEntry_other {v : String × String}
    (h : ¬"dbbench__".toList <+: (lowered v.1).toList) : variableEntry? v = none := by
  rw [ variableEntry?, if_neg (mt List.isPrefixOf_iff_prefix.mp h)]

/-- The items of the variables are those for settings, in their order. -/
theorem sourceItems_variables {environment : List (String × String)} (h : AreTyped environment) :
    (∀ item ∈ Tree.sourceItems (variableEntries environment),
        ∃ setting : Setting, item.1 = setting.path ∧ item.2.isTable = false)
      ∧ ∀ setting : Setting, last? setting.path (Tree.sourceItems (variableEntries environment))
        = (last? (variableName setting) (environment.map fun v => (lowered v.1, v.2))).map
          fun text => .leaf (some "the environment") (variableValue text) := by
  induction environment with
  | nil => exact ⟨nofun, fun _ => rfl⟩
  | cons v rest ih =>
      obtain ⟨hv, hrest⟩ := List.forall_mem_cons.mp h
      obtain ⟨hitems, hlast⟩ := ih hrest
      -- A variable that begins as those for settings do is one of them.
      by_cases hprefix : "dbbench__".toList <+: (lowered v.1).toList
      · obtain ⟨other, hname, -⟩ := hv hprefix
        obtain ⟨key, hpath, hentry⟩ := exists_variableEntry hname
        have hmore : Tree.sourceItems (variableEntries (v :: rest))
            = (other.path, .leaf (some "the environment") (variableValue v.2))
              :: Tree.sourceItems (variableEntries rest) := by
          rw [variableEntries, List.filterMap_cons, hentry]
          dsimp only
          rw [sourceItems_cons rfl, hpath]
          rfl
        rw [hmore]
        refine ⟨List.forall_mem_cons.mpr ⟨⟨other, rfl, rfl⟩, hitems⟩, fun setting => ?_⟩
        have hsame : other.path = setting.path ↔ lowered v.1 = variableName setting := by
          rw [hname, path_inj, variableName_inj]
        rw [last?, hlast, List.map_cons, last?, Option.map_or]
        simp only [hsame]
        split <;> rfl
      · -- Any other makes no entry.
        have hless : variableEntries (v :: rest) = variableEntries rest := by
          rw [variableEntries, List.filterMap_cons, variableEntry_other hprefix]
          rfl
        rw [hless]
        refine ⟨hitems, fun setting => ?_⟩
        have hname : lowered v.1 ≠ variableName setting := fun hname =>
          hprefix (hname ▸ prefix_variableName setting)
        rw [hlast, List.map_cons, last?, if_neg hname, Option.or_none]

/-- The variables are one. They name settings by their paths, and the case of their
letters is not told apart. -/
theorem sets_variables {environment : List (String × String)} (h : AreTyped environment) :
    Sets (variableEntries environment) (inVariables? keptWhole environment) where
  apart setting item hitem := by
    obtain ⟨other, hpath, htable⟩ := (sourceItems_variables h).1 item hitem
    obtain ⟨path, t⟩ := item
    cases hpath
    exact apart_setting htable setting other
  finds setting := by
    rw [(sourceItems_variables h).2, inVariables?]
    cases hlast : last? (variableName setting) (environment.map fun v => (lowered v.1, v.2)) with
    | none => exact .none
    | some text =>
        obtain ⟨v, hv, hitem⟩ := List.mem_map.mp (mem_of_last? hlast)
        obtain ⟨hname, rfl⟩ := Prod.mk.inj hitem
        obtain ⟨other, hother, hvalue⟩ := h v hv (hname ▸ prefix_variableName setting)
        cases variableName_inj.mp (hname.symm.trans hother)
        rw [← Kind.isSome_ofText? keptWhole] at hvalue
        obtain ⟨a, ha⟩ := Option.isSome_iff_exists.mp hvalue
        rw [Option.bind_some, ha]
        exact .some (Kind.holds_ofText _ (Setting.bits_le setting) ha)

/-! ### Defaults -/

/-- The settings that have a default. Only the number of retries has none, which stands
for no limit. -/
def default? (setting : Setting) : Option Scalar :=
  if setting = .maxRetries then none else some (({} : Settings).scalar setting)

/-- The entry of a default has the name of its setting, and the default. -/
structure IsDefault (setting : Setting) (entry : String × Tree) : Prop where
  path : Tree.pathOf entry.1 = setting.path
  holds : setting.kind.Holds entry.2 (({} : Settings).scalar setting)

/-- The defaults, assignment by assignment. -/
theorem isDefault_defaults : List.Forall₂ IsDefault
    [.memory, .sqlite, .postgres, .duration, .concurrency, .grace, .maxMicros, .figures, .backoff]
    defaults := by
  have hword {bits n : Nat} (hbits : n < 2 ^ bits) (hn : n < 2 ^ 63) :
      (Kind.word bits).Holds (.leaf none (.int n)) (.word n) := by
    have hholds := (Kind.holds_numeral none hbits).1
    rwa [numeral, if_pos hn, keptWhole, if_pos hn] at hholds
  have hspan {s : Span} (hs : s.nanos < Span.limit) :
      Kind.span.Holds (.leaf none (.str s.text)) (.span s) :=
    Kind.holds_span none (Span.ofText_text hs)
  refine .cons ⟨by decide +kernel, Kind.holds_text none _⟩ <|
    .cons ⟨by decide +kernel, Kind.holds_text none _⟩ <|
    .cons ⟨by decide +kernel, Kind.holds_text none _⟩ <|
    .cons ⟨by decide +kernel, hspan (by decide +kernel)⟩ <|
    .cons ⟨by decide +kernel, hword (by decide) (by decide)⟩ <|
    .cons ⟨by decide +kernel, hspan (by decide +kernel)⟩ <|
    .cons ⟨by decide +kernel, hword (by decide) (by decide)⟩ <|
    .cons ⟨by decide +kernel, hword (by decide) (by decide)⟩ <|
    .cons ⟨by decide +kernel, hspan (by decide +kernel)⟩ .nil

/-- A source of which each entry is the default of a setting. -/
theorem sets_of_isDefault {settings : List Setting} {source : List (String × Tree)}
    (h : List.Forall₂ IsDefault settings source) : Sets source fun setting =>
      if setting ∈ settings then some (({} : Settings).scalar setting) else none := by
  induction h with
  | nil => exact ⟨fun _ => nofun, fun _ => .none⟩
  | @cons other entry others rest hentry _ ih =>
      have hitems : Tree.sourceItems (entry :: rest)
          = (other.path, entry.2) :: Tree.sourceItems rest := by
        rw [sourceItems_cons hentry.holds.isTable, hentry.path]
      refine ⟨fun setting => ?_, fun setting => ?_⟩
      · rw [hitems, List.forall_mem_cons]
        exact ⟨apart_setting hentry.holds.isTable setting other, ih.apart setting⟩
      · have hrest := ih.finds setting
        rw [hitems, last?]
        by_cases heq : other = setting
        · subst heq
          rw [if_pos rfl, if_pos List.mem_cons_self]
          -- The last assignment counts, and here all are of the same default.
          by_cases hmem : other ∈ others
          · rw [if_pos hmem] at hrest
            exact hrest.or (.some hentry.holds)
          · rw [if_neg hmem] at hrest
            exact hrest.or (.some hentry.holds)
        · have hmem : setting ∈ other :: others ↔ setting ∈ others := by
            rw [List.mem_cons, or_iff_right (Ne.symm heq)]
          rw [if_neg (mt path_inj.mp heq), Option.or_none]
          simp only [hmem]
          exact hrest

/-- So the defaults are a layer as well, and the first of all. -/
theorem sets_defaults : Sets defaults default? := by
  have hsets := sets_of_isDefault isDefault_defaults
  refine ⟨hsets.apart, fun setting => ?_⟩
  have hfinds := hsets.finds setting
  cases setting <;> exact hfinds

/-! ### Files -/

section Files

variable {around : Surroundings} {name : String} {fields : Fields}

/-- There is a file of a name in one of the formats, and the reader of its format finds a
document with these fields in it. -/
def Present (around : Surroundings) (name : String) (fields : Fields) : Prop :=
  ∃ f, find around name = .ok f ∧ f.format.parse f.content = .ok (.obj fields)

/-- There is no file of a name in any of the formats, or one that can be read. -/
def Held (around : Surroundings) (name : String) (fields : Fields) : Prop :=
  (∃ flaw, find around name = .error flaw) ∧ fields = [] ∨ Present around name fields

/-- The entries of a file are those of the document in it, whatever its format. -/
theorem read_parsed {f : Found} (h : f.format.parse f.content = .ok (.obj fields)) :
    f.read = .ok (Tree.ofFields (some f.path) fields) := by
  rw [Found.read, h]
  rfl

/-- A file that is asked for is read if it is there. -/
theorem requiredFile_present (h : Present around name fields) :
    ∃ origin, requiredFile around name = .ok (Tree.ofFields origin fields) := by
  obtain ⟨f, hfind, hparse⟩ := h
  refine ⟨some f.path, ?_⟩
  rw [requiredFile, hfind, Text.ok_bind]
  exact read_parsed hparse

/-- A file that may be missing is read if it is there, and else stands for an empty one. -/
theorem optionalFile_held (h : Held around name fields) :
    ∃ origin, optionalFile around name = .ok (Tree.ofFields origin fields) := by
  rcases h with ⟨⟨flaw, hfind⟩, rfl⟩ | ⟨f, hfind, hparse⟩
  · refine ⟨none, ?_⟩
    rw [optionalFile, hfind]
    rfl
  · refine ⟨some f.path, ?_⟩
    rw [optionalFile, hfind]
    exact read_parsed hparse

end Files

/-- The documents of the layers: those of the files that there are, in whatever formats they
are, each of them with settings of the right types, and empty ones in the place of others. -/
structure Documents (around : Surroundings) (explicit : Option String) where
  usual : Fields
  named : Fields
  asked : Fields
  usual_held : Held around usualName usual
  named_held : match around.environment.lookup nameVariable with
    | some name => Held around name named
    | none => named = []
  asked_held : match explicit with
    | some name => Present around name asked
    | none => asked = []
  usual_typed : IsTyped usual
  named_typed : IsTyped named
  asked_typed : IsTyped asked

namespace Documents

variable {around : Surroundings} {explicit : Option String}

/-- The value of a setting in the last of the layers that sets it, where `whole` says what
becomes of whole numbers. -/
def chosen? (d : Documents around explicit) (whole : Nat → Nat) (setting : Setting) :
    Option Scalar :=
  (inVariables? whole around.environment setting).or <|
    (inDocument? whole d.asked setting).or <|
      (inDocument? whole d.named setting).or (inDocument? whole d.usual setting)

/-- The layers, each file by itself. The first that cannot be read is what the load is
refused for. -/
theorem layers_bind (around : Surroundings) (explicit : Option String) :
    Settings.layers around explicit = (do
      let usual ← optionalFile around usualName
      let named ← (around.environment.lookup nameVariable).elim (.ok [])
        (optionalFile around)
      let asked ← explicit.elim (.ok []) (requiredFile around)
      .ok [defaults, usual, named, asked, variableEntries around.environment]) := by
  rw [Settings.layers]
  cases around.environment.lookup nameVariable <;> cases explicit <;> rfl

/-- With documents in the files, the layers are these and nothing is refused. -/
theorem layers_eq (d : Documents around explicit) : ∃ usual named asked,
    Settings.layers around explicit = .ok [defaults, Tree.ofFields usual d.usual,
      Tree.ofFields named d.named, Tree.ofFields asked d.asked,
      variableEntries around.environment] := by
  obtain ⟨usual, husual⟩ := optionalFile_held d.usual_held
  obtain ⟨named, hnamed⟩ : ∃ origin, (around.environment.lookup nameVariable).elim (.ok [])
      (optionalFile around) = .ok (Tree.ofFields origin d.named) := by
    have hheld := d.named_held
    cases hname : around.environment.lookup nameVariable with
    | some name =>
        rw [hname] at hheld
        exact optionalFile_held hheld
    | none =>
        rw [hname] at hheld
        exact ⟨none, by rw [hheld]; rfl⟩
  obtain ⟨asked, hasked⟩ : ∃ origin, explicit.elim (.ok []) (requiredFile around)
      = .ok (Tree.ofFields origin d.asked) := by
    have hheld := d.asked_held
    cases explicit with
    | some name => exact requiredFile_present hheld
    | none => exact ⟨none, by rw [hheld]; rfl⟩
  refine ⟨usual, named, asked, ?_⟩
  rw [layers_bind, husual, Text.ok_bind, hnamed, Text.ok_bind, hasked, Text.ok_bind]

/-- Of the merged layers, each setting has the value of the last that sets it. -/
theorem finds_mergeAll (d : Documents around explicit) (h : AreTyped around.environment)
    (usual named asked : Origin) (setting : Setting) :
    Finds setting ((mergeAll [defaults, Tree.ofFields usual d.usual,
        Tree.ofFields named d.named, Tree.ofFields asked d.asked,
        variableEntries around.environment]).find? setting.path)
      ((d.chosen? keptWhole setting).or (default? setting)) := by
  have hempty (setting : Setting) : Finds setting (Tree.empty.find? setting.path) none := by
    cases setting <;> exact .none
  have hlayers := (sets_variables h).merge ((sets_ofFields asked d.asked_typed).merge
    ((sets_ofFields named d.named_typed).merge ((sets_ofFields usual d.usual_typed).merge
      (sets_defaults.merge hempty)))) setting
  simp only [chosen?, Option.or_assoc, Option.or_none] at hlayers ⊢
  exact hlayers

end Documents

end Layers

namespace Settings

open Layers

variable {around : Surroundings} {explicit : Option String}

/-- A tree where each setting is found, with its default if nobody chose it, is read. -/
theorem exists_toSettings {t : Tree} {chosen? : Setting → Option Scalar}
    (h : ∀ setting, Finds setting (t.find? setting.path)
      ((chosen? setting).or (default? setting))) :
    ∃ merged : Settings, (∀ setting, merged.scalar setting
        = (chosen? setting).getD (({} : Settings).scalar setting))
      ∧ toSettings t = .ok merged := by
  -- Only a number of retries is found nowhere.
  have hvalue (setting : Setting) : (∃ leaf, t.find? setting.path = some leaf
        ∧ setting.kind.Holds leaf ((chosen? setting).getD (({} : Settings).scalar setting)))
      ∨ t.find? setting.path = none ∧ setting = .maxRetries
        ∧ (chosen? setting).getD (({} : Settings).scalar setting) = .absent := by
    have hfound := h setting
    have hsome {a : Scalar} (hfound : Finds setting (t.find? setting.path) (some a)) :
        ∃ leaf, t.find? setting.path = some leaf ∧ setting.kind.Holds leaf a := by
      cases hleaf : t.find? setting.path with
      | none => rw [hleaf] at hfound; cases hfound
      | some leaf =>
          rw [hleaf] at hfound
          cases hfound with
          | some hholds => exact ⟨leaf, rfl, hholds⟩
    cases hchosen : chosen? setting with
    | some a =>
        rw [hchosen] at hfound
        exact .inl (hsome hfound)
    | none =>
        rw [hchosen, Option.none_or, default?] at hfound
        by_cases hretries : setting = .maxRetries
        · rw [if_pos hretries] at hfound
          refine .inr ⟨?_, hretries, by rw [hretries]; rfl⟩
          cases hleaf : t.find? setting.path with
          | none => rfl
          | some leaf => rw [hleaf] at hfound; cases hfound
        · rw [if_neg hretries] at hfound
          exact .inl (hsome hfound)
  obtain ⟨merged, hmerged⟩ := exists_scalar fun setting => by
    rcases hvalue setting with ⟨leaf, -, hholds⟩ | ⟨-, rfl, habsent⟩
    · exact hholds.has
    · exact ⟨none, habsent⟩
  refine ⟨merged, hmerged, toSettings_shown fun setting => ?_⟩
  rw [hmerged]
  exact (hvalue setting).imp_left fun ⟨leaf, hleaf, hholds⟩ => ⟨leaf, hleaf, hholds.read⟩

/-- Settings that are read are loaded if they are valid. -/
theorem ofTree_read {t : Tree} {s : Settings} (h : toSettings t = .ok s) :
    ofTree t = s.validate.map fun _ => s := by
  rw [ofTree, h]
  cases hvalid : s.validate with
  | error e => simp only [Except.mapError, Text.ok_bind, hvalid]; rfl
  | ok => simp only [Except.mapError, Text.ok_bind, hvalid]; rfl

/-- The settings of all layers are loaded if they are valid. -/
theorem load_merged (d : Documents around explicit) (h : AreTyped around.environment) :
    ∃ merged : Settings, (∀ setting, merged.scalar setting
        = (d.chosen? keptWhole setting).getD (({} : Settings).scalar setting))
      ∧ load around explicit = merged.validate.map fun _ => merged := by
  obtain ⟨usual, named, asked, hlayers⟩ := d.layers_eq
  obtain ⟨merged, hmerged, hread⟩ := exists_toSettings (d.finds_mergeAll h usual named asked)
  refine ⟨merged, hmerged, ?_⟩
  rw [load, hlayers]
  exact ofTree_read hread

/-- Settings are layered one by one. Let each file that is there be readable, in whatever
formats the files are, and let every layer set what it does to values of the right types. Then
each setting has the value of the last layer that sets it, and its default if there is none,
whatever else the layers set. A number that is too large for a signed word is the nearest
fractional number of all, rounded. The settings are loaded just when they are valid as a
whole. -/
theorem load_by_layers (d : Documents around explicit) (h : AreTyped around.environment) :
    ∃! merged : Settings, (∀ setting, merged.scalar setting
        = (d.chosen? keptWhole setting).getD (({} : Settings).scalar setting))
      ∧ load around explicit = merged.validate.map fun _ => merged := by
  obtain ⟨merged, hmerged, hload⟩ := load_merged d h
  refine ⟨merged, ⟨hmerged, hload⟩, fun other hother => eq_of_scalar fun setting => ?_⟩
  rw [hother.1, hmerged]

section Example

/-- The usual file, which sets the grace and the number of retries. -/
def usualText : String :=
  "\x7b\"engine\": \x7b\"retry\": \x7b\"max_retries\": 3\x7d,"
    ++ " \"shutdown_grace\": \"2s\"\x7d\x7d"

/-- The file that the environment names, which sets the grace again. -/
def namedText : String := "\x7b\"engine\": \x7b\"shutdown_grace\": \"4s\"\x7d\x7d"

/-- The file that is asked for, in another format, with names that are paths. -/
def askedText : String := "benchmark_settings.default_concurrency = 8\n"
  ++ "benchmark_settings.default_duration = \"1m\"\n"

/-- Another format, of which this reader knows a single text. -/
def toml : FileFormat where
  endings := ["toml"]
  parse text :=
    if text = askedText then
      .ok (.obj [("benchmark_settings",
        .obj [("default_concurrency", .int 8), ("default_duration", .str "1m")])])
    else .error "expected the text above"

/-- Three files in two formats, one of them named by a variable and one to be asked for, and a
variable for a setting. -/
def fourLayers : Surroundings where
  files := [("config/dbbench.json", usualText), ("ci.json", namedText), ("run.toml", askedText)]
  environment := [("PATH", "/bin"), ("DBBENCH_CONFIG", "ci"),
    ("DBBENCH__BENCHMARK_SETTINGS__DEFAULT_CONCURRENCY", "16")]
  formats := [toml, .json]

/-- What the parsers make of the three files. -/
def fourDocuments : Documents fourLayers (some "run") where
  usual := [("engine", .obj
    [("retry", .obj [("max_retries", .int 3)]), ("shutdown_grace", .str "2s")])]
  named := [("engine", .obj [("shutdown_grace", .str "4s")])]
  asked := [("benchmark_settings",
    .obj [("default_concurrency", .int 8), ("default_duration", .str "1m")])]
  usual_held := .inr ⟨⟨"config/dbbench.json", usualText, .json⟩, by with_unfolding_all rfl, rfl⟩
  named_held := .inr ⟨⟨"ci.json", namedText, .json⟩, by with_unfolding_all rfl, rfl⟩
  asked_held := ⟨⟨"run.toml", askedText, toml⟩, by with_unfolding_all rfl, rfl⟩
  usual_typed := by
    show ∀ item ∈ [(Setting.maxRetries.path, Json.int 3), (Setting.grace.path, Json.str "2s")], _
    rw [List.forall_mem_cons, List.forall_mem_singleton]
    exact ⟨.inl ⟨.maxRetries, rfl, by decide +kernel⟩, .inl ⟨.grace, rfl, by decide +kernel⟩⟩
  named_typed := by
    show ∀ item ∈ [(Setting.grace.path, Json.str "4s")], _
    rw [List.forall_mem_singleton]
    exact .inl ⟨.grace, rfl, by decide +kernel⟩
  asked_typed := by
    show ∀ item ∈ [(Setting.concurrency.path, Json.int 8),
      (Setting.duration.path, Json.str "1m")], _
    rw [List.forall_mem_cons, List.forall_mem_singleton]
    exact ⟨.inl ⟨.concurrency, rfl, by decide +kernel⟩,
      .inl ⟨.duration, rfl, by decide +kernel⟩⟩

/-- All four layers at once: each setting has the value of the last layer that gives it. -/
theorem load_by_layers_four : load fourLayers (some "run") = .ok {
    run := { duration := .ofSeconds 60, concurrency := 16 }
    engine := { grace := .ofSeconds 4, retry := { maxRetries := some 3 } } } := by
  have htyped : AreTyped fourLayers.environment := by
    simp only [AreTyped, fourLayers, List.forall_mem_cons]
    refine ⟨fun h => absurd h (by decide +kernel), fun h => absurd h (by decide +kernel), ?_, nofun⟩
    exact fun _ => ⟨.concurrency, by decide +kernel, by decide +kernel⟩
  obtain ⟨merged, ⟨hmerged, hload⟩, -⟩ := load_by_layers fourDocuments htyped
  have heq : merged = {
      run := { duration := .ofSeconds 60, concurrency := 16 }
      engine := { grace := .ofSeconds 4, retry := { maxRetries := some 3 } } } := by
    refine eq_of_scalar fun setting => (hmerged setting).trans ?_
    cases setting <;> decide +kernel
  rw [hload, heq]
  rfl

/-- A variable that sets a number beyond the signed words. -/
def largeWord : Surroundings where
  environment := [("DBBENCH__ENGINE__LATENCY__MAX_MICROS", "9223372036854775809")]

/-- No file is there, so nothing is parsed. -/
def noDocuments : Documents largeWord none where
  usual := []
  named := []
  asked := []
  usual_held := .inl ⟨⟨_, by with_unfolding_all rfl⟩, rfl⟩
  named_held := rfl
  asked_held := rfl
  usual_typed := nofun
  named_typed := nofun
  asked_typed := nofun

/-- A setting does not always have just the value that it was set to. -/
theorem not_always_as_set : ¬∀ (around : Surroundings) (explicit : Option String)
    (d : Documents around explicit), AreTyped around.environment → ∃ merged : Settings,
      (∀ setting, merged.scalar setting
        = (d.chosen? id setting).getD (({} : Settings).scalar setting))
      ∧ load around explicit = merged.validate.map fun _ => merged := by
  intro h
  have htyped : AreTyped largeWord.environment := by
    simp only [AreTyped, largeWord, List.forall_mem_cons]
    exact ⟨fun _ => ⟨.maxMicros, by decide +kernel, by decide +kernel⟩, nofun⟩
  have hload : load largeWord none
      = .ok { engine := { latency := { maxMicros := 2 ^ 63 } } } := by decide +kernel
  obtain ⟨merged, hmerged, hvalid⟩ := h largeWord none noDocuments htyped
  have heq : merged = { engine := { latency := { maxMicros := 2 ^ 63 } } } := by
    rw [hload] at hvalid
    cases hcheck : merged.validate with
    | error e => rw [hcheck] at hvalid; cases hvalid
    | ok =>
        rw [hcheck] at hvalid
        exact (Except.ok.inj hvalid).symm
  have hmicros := hmerged .maxMicros
  rw [heq] at hmicros
  exact absurd hmicros (by decide +kernel)

end Example

end Settings

end StoreBench
