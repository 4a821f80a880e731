import Mathlib.Data.List.MinMax
import StoreBench.Proofs.Sql.Removal
import StoreBench.Proofs.Sql.Select

/-!
# `StoreBench.Proofs.Sql.Reset`: what a reset removes

A reset lists the tables whose names are not like `sqlite_%`, and removes them one by one.
In that pattern the underscore stands for any character, so it passes over every name that
goes on behind `sqlite` (`Reserved`, `Server.like_reserved`). And a name with a quote in it
does not come through the text of its removal: what is removed instead is shorter
(`Server.mem_of_removal`).

`Server.reset_removes_all` says when nothing is left. One removal is looked at first, for
a store that is free and for one that somebody writes to. Of several removals,
`Server.dropAll_plain` has the names without quotes, which all go. `Server.mem_of_dropAll` has
the longest of the other names, which stays: no removal has room for it.
-/

set_option autoImplicit false

namespace StoreBench.Sql

/-! ### Names -/

/-- Names mean one table if they are equally long in bytes and the same in small
letters. -/
theorem sameName_iff {a b : String} :
    sameName a b = true ↔ a.utf8ByteSize = b.utf8ByteSize ∧ Text.lowered a = Text.lowered b := by
  rw [sameName, Bool.or_eq_true, Bool.and_eq_true]
  simp only [beq_iff_eq, or_iff_right_iff_imp]
  rintro rfl
  exact ⟨rfl, rfl⟩

/-- Which of two names is compared with which does not matter to whether they mean one
table. -/
theorem sameName_symm {a b : String} (h : sameName a b = true) : sameName b a = true := by
  rw [sameName_iff] at h ⊢
  exact ⟨h.1.symm, h.2.symm⟩

/-- Names that mean the table of a third name mean one table. -/
theorem sameName_trans {a b c : String} (hab : sameName a b = true) (hbc : sameName b c = true) :
    sameName a c = true := by
  rw [sameName_iff] at hab hbc ⊢
  exact ⟨hab.1.trans hbc.1, hab.2.trans hbc.2⟩

/-- Names that mean one table are the same in small letters. -/
theorem map_toLower_of_sameName {a b : String} (h : sameName a b = true) :
    a.toList.map Char.toLower = b.toList.map Char.toLower :=
  String.ofList_injective (sameName_iff.mp h).2

/-- Names that are the same are equally long. -/
theorem length_of_sameName {a b : String} (h : sameName a b = true) :
    a.toList.length = b.toList.length := by
  rw [← List.length_map Char.toLower, map_toLower_of_sameName h, List.length_map]

/-- No letter becomes a quote, so that the case of a name says nothing about quotes in
it. -/
theorem toLower_eq_quote (c : Char) : (c.toLower == '"') = (c == '"') := by
  rw [Bool.eq_iff_iff, beq_iff_eq, beq_iff_eq]
  by_cases h : c.val ≥ 'A'.val ∧ c.val ≤ 'Z'.val
  · refine iff_of_false (fun hlower => ?_) fun hc => ?_
    · have hsmall : c.toLower = _ := dif_pos h
      rw [hsmall] at hlower
      have hval : c.val + ('a'.val - 'A'.val) = '"'.val := congrArg Char.val hlower
      have hnat := congrArg UInt32.toNat hval
      rw [UInt32.toNat_add] at hnat
      simp [UInt32.le_iff_toNat_le] at h hnat
      omega
    · subst hc
      exact absurd h (by decide)
  · have hsame : c.toLower = c := dif_neg h
    rw [hsame]

/-- Names that are the same have the same number of quotes in them. -/
theorem count_quote_of_sameName {a b : String} (h : sameName a b = true) :
    a.toList.count '"' = b.toList.count '"' := by
  have hcount (cs : List Char) : (cs.map Char.toLower).count '"' = cs.count '"' := by
    rw [List.count_eq_countP, List.countP_map, List.count_eq_countP]
    exact congrArg (List.countP · cs) (funext toLower_eq_quote)
  rw [← hcount a.toList, map_toLower_of_sameName h, hcount]

/-- A name that goes on behind the letters `sqlite`, in either case. -/
def Reserved (name : String) : Prop :=
  "sqlite".toList <+: name.toList.map Char.toLower ∧ 6 < name.toList.length

instance (name : String) : Decidable (Reserved name) := inferInstanceAs (Decidable (_ ∧ _))

/-- A reserved name is reserved in any case. -/
theorem reserved_of_sameName {a b : String} (h : sameName a b = true) (ha : Reserved a) :
    Reserved b := by
  rw [Reserved, map_toLower_of_sameName h, length_of_sameName h] at ha
  exact ha

namespace Server

/-- Letters match themselves, in either case. The wildcards are what is left out. -/
theorem like_append {letters : List Char} (h : ∀ c ∈ letters, c ≠ '%' ∧ c ≠ '_')
    (pattern cs : List Char) : like (letters ++ pattern) cs = true ↔
      letters.map Char.toLower <+: cs.map Char.toLower
        ∧ like pattern (cs.drop letters.length) = true := by
  induction letters generalizing cs with
  | nil => simp
  | cons l letters ih =>
      obtain ⟨⟨hpercent, hany⟩, hletters⟩ := List.forall_mem_cons.mp h
      cases cs with
      | nil => simp [like]
      | cons c cs =>
          simp [like, hany, ih hletters, and_assoc]

/-- A percent sign matches any text, an empty one too. -/
theorem like_percent (cs : List Char) : like ['%'] cs = true := by
  induction cs with
  | nil => simp [like]
  | cons c cs ih => simp [like, ih]

/-- The pattern of the names that the store keeps for itself. -/
theorem like_reserved (name : String) :
    like "sqlite_%".toList name.toList = true ↔ Reserved name := by
  have hpattern : "sqlite_%".toList = "sqlite".toList ++ ['_', '%'] := by decide +kernel
  have hlower : "sqlite".toList.map Char.toLower = "sqlite".toList := by decide +kernel
  have hlength : "sqlite".toList.length = 6 := by decide +kernel
  have hletters : ∀ c ∈ "sqlite".toList, c ≠ '%' ∧ c ≠ '_' := by simp
  have hrest (cs : List Char) : like ['_', '%'] cs = true ↔ 0 < cs.length := by
    cases cs with
    | nil => simp [like]
    | cons c cs => simp [like, like_percent]
  rw [hpattern, like_append hletters, hlower, hrest, List.length_drop, hlength, Reserved]
  exact and_congr_right fun _ => Nat.sub_pos_iff_lt

/-! ### One removal -/

variable {s : Server} {t : Table} {text name : String} {names : List String}

/-- A transaction begins with the database as it is. -/
theorem begin_eq (s : Server) :
    ∃ count idle, s.begin = ({ lastCount := count }, { s with idle := idle }) := by
  unfold begin
  split
  · exact ⟨_, _, rfl⟩
  · exact ⟨0, s.idle, rfl⟩

/-- What cannot be read changes no table, and is answered with why it cannot. -/
theorem autocommit_flaw {flaw : Flaw} (h : Instruction.ofText text = [.error flaw]) :
    (s.autocommit text []).1.database = s.database
      ∧ (s.autocommit text []).2 = .error flaw := by
  obtain ⟨count, idle, hbegin⟩ := s.begin_eq
  rw [autocommit, hbegin, h]
  exact ⟨rfl, rfl⟩

/-- Without the table, its removal has nothing to do, and needs no lock. -/
theorem autocommit_absent (h : Instruction.ofText text = [.ok (.dropTable name true)])
    (habsent : s.database.table? name = none) :
    (s.autocommit text []).1.database = s.database
      ∧ (s.autocommit text []).1.locked = s.locked
      ∧ (s.autocommit text []).2.isOk = true := by
  obtain ⟨count, idle, hbegin⟩ := s.begin_eq
  rw [autocommit, hbegin, h]
  simp [OpenTransaction.runEach, OpenTransaction.run, Instruction.looks, Instruction.writes,
    Database.run, habsent, goOn, keep, release, Except.map, Except.isOk, Except.toBool]

/-- A table is not removed while somebody else writes. -/
theorem autocommit_locked (h : Instruction.ofText text = [.ok (.dropTable name true)])
    (hpresent : s.database.table? name = some t) (hlocked : s.locked = true) :
    (s.autocommit text []).1.database = s.database
      ∧ (s.autocommit text []).2 = .error .locked := by
  obtain ⟨count, idle, hbegin⟩ := s.begin_eq
  rw [autocommit, hbegin, h]
  simp [OpenTransaction.runEach, OpenTransaction.run, OpenTransaction.lock, Instruction.looks,
    Instruction.writes, Database.run, hpresent, hlocked, release]

/-- Otherwise the tables of that name are gone, and nothing stays locked. -/
theorem autocommit_present (h : Instruction.ofText text = [.ok (.dropTable name true)])
    (hpresent : s.database.table? name = some t) (hlocked : s.locked = false) :
    (s.autocommit text []).1.database.tables
        = s.database.tables.filter (fun other => !sameName other.name name)
      ∧ (s.autocommit text []).1.locked = false
      ∧ (s.autocommit text []).2.isOk = true := by
  have hname : sameName t.name name = true := by simpa using List.find?_some hpresent
  have hother (other : Table) : sameName other.name t.name = sameName other.name name := by
    rw [Bool.eq_iff_iff]
    exact ⟨fun h => sameName_trans h hname, fun h => sameName_trans h (sameName_symm hname)⟩
  obtain ⟨count, idle, hbegin⟩ := s.begin_eq
  rw [autocommit, hbegin, h]
  simp [OpenTransaction.runEach, OpenTransaction.run, OpenTransaction.lock, Instruction.writes,
    Database.run, hpresent, hlocked, hother, goOn, keep, release, Except.map, Except.isOk,
    Except.toBool]

/-- An unlocked store removes the tables of a name, if there are any. -/
theorem autocommit_unlocked (h : Instruction.ofText text = [.ok (.dropTable name true)])
    (hlocked : s.locked = false) :
    (s.autocommit text []).1.database.tables
        = s.database.tables.filter (fun other => !sameName other.name name)
      ∧ (s.autocommit text []).1.locked = false
      ∧ (s.autocommit text []).2.isOk = true := by
  cases htable : s.database.table? name with
  | some t => exact autocommit_present h htable hlocked
  | none =>
      obtain ⟨hdatabase, hlock, hok⟩ := autocommit_absent h htable
      refine ⟨?_, hlock.trans hlocked, hok⟩
      rw [hdatabase, List.filter_eq_self.mpr]
      intro other hother
      simpa using List.find?_eq_none.mp htable other hother

/-- A removal takes away at most the tables of its name. -/
theorem mem_of_autocommit (h : Instruction.ofText text = [.ok (.dropTable name true)])
    (ht : t ∈ s.database.tables) (hname : sameName t.name name = false) :
    t ∈ (s.autocommit text []).1.database.tables := by
  cases hlocked : s.locked with
  | false =>
      rw [(autocommit_unlocked h hlocked).1]
      exact List.mem_filter.mpr ⟨ht, by rw [hname]; rfl⟩
  | true =>
      cases htable : s.database.table? name with
      | some other => rwa [(autocommit_locked h htable hlocked).1]
      | none => rwa [(autocommit_absent h htable).1]

/-- The longest table with a quote in its name is not removed: what stands between the
quotes of a text with a quote in it is shorter than the name, or has no quote. -/
theorem mem_of_removal (ht : t ∈ s.database.tables) (hquote : '"' ∈ t.name.toList)
    (hlong : '"' ∈ name.toList → name.toList.length ≤ t.name.toList.length)
    (hsemi : ';' ∉ name.toList) :
    t ∈ (s.autocommit (Token.removal name) []).1.database.tables := by
  have hcount : 0 < t.name.toList.count '"' := List.count_pos_iff.mpr hquote
  by_cases hname : '"' ∈ name.toList
  · rcases Instruction.ofText_removal_cases hsemi with ⟨flaw, htext⟩ | ⟨cs, htext, hlength⟩
    · rwa [(autocommit_flaw htext).1]
    · refine mem_of_autocommit htext ht (Bool.eq_false_iff.mpr fun hsame => ?_)
      have hequal := length_of_sameName hsame
      have hquotes := count_quote_of_sameName hsame
      rw [String.toList_ofList] at hequal hquotes
      have := hlong hname
      omega
  · refine mem_of_autocommit (Instruction.ofText_removal hname) ht
      (Bool.eq_false_iff.mpr fun hsame => ?_)
    rw [count_quote_of_sameName hsame, List.count_eq_zero.mpr hname] at hcount
    exact absurd hcount (Nat.lt_irrefl 0)

/-! ### Several removals -/

/-- The tables are dropped one by one, and the first statement that fails is the last. -/
theorem dropAll_cons (s : Server) (name : String) (names : List String) :
    s.dropAll (name :: names) = match (s.autocommit (Token.removal name) []).2 with
      | .ok _ => (s.autocommit (Token.removal name) []).1.dropAll names
      | .error flaw => ((s.autocommit (Token.removal name) []).1, .error flaw) := by
  unfold Token.removal
  rw [dropAll]
  generalize s.autocommit _ [] = one
  rcases one with ⟨server, result⟩
  cases result <;> rfl

/-- Names without quotes are all removed, and with them any table that goes by one of
them. -/
theorem dropAll_plain (hquote : ∀ n ∈ names, '"' ∉ n.toList) (hlocked : s.locked = false) :
    (s.dropAll names).2 = .ok ()
      ∧ (s.dropAll names).1.database.tables
        = s.database.tables.filter fun t => names.all fun n => !sameName t.name n := by
  induction names generalizing s with
  | nil => exact ⟨rfl, (List.filter_true _).symm⟩
  | cons name names ih =>
      obtain ⟨hname, hnames⟩ := List.forall_mem_cons.mp hquote
      obtain ⟨htables, hlock, hok⟩ := autocommit_unlocked (Instruction.ofText_removal hname) hlocked
      obtain ⟨hrest, hleft⟩ := ih hnames hlock
      rw [dropAll_cons]
      cases hone : (s.autocommit (Token.removal name) []).2 with
      | error flaw => rw [hone] at hok; cases hok
      | ok answers =>
          refine ⟨hrest, hleft.trans ?_⟩
          rw [htables, List.filter_filter]
          simp only [List.all_cons, Bool.and_comm]

/-- No table is removed while somebody else writes. -/
theorem dropAll_locked (hquote : '"' ∉ t.name.toList) (hlocked : s.locked = true)
    (ht : t ∈ s.database.tables) : (s.dropAll (t.name :: names)).2 = .error .locked := by
  have hpresent : (s.database.table? t.name).isSome = true :=
    List.find?_isSome.mpr ⟨t, ht, sameName_self _⟩
  obtain ⟨other, hother⟩ := Option.isSome_iff_exists.mp hpresent
  rw [dropAll_cons, (autocommit_locked (Instruction.ofText_removal hquote) hother hlocked).2]

/-- The longest table with a quote in its name outlasts all removals. -/
theorem mem_of_dropAll (ht : t ∈ s.database.tables) (hquote : '"' ∈ t.name.toList)
    (hlong : ∀ n ∈ names, '"' ∈ n.toList → n.toList.length ≤ t.name.toList.length)
    (hsemi : ∀ n ∈ names, ';' ∉ n.toList) : t ∈ (s.dropAll names).1.database.tables := by
  induction names generalizing s with
  | nil => exact ht
  | cons name names ih =>
      obtain ⟨hfirst, hlong⟩ := List.forall_mem_cons.mp hlong
      obtain ⟨hname, hsemi⟩ := List.forall_mem_cons.mp hsemi
      have hone := mem_of_removal ht hquote hfirst hname
      have hrest := ih hone hlong hsemi
      rw [dropAll_cons]
      generalize s.autocommit (Token.removal name) [] = one at hone hrest ⊢
      rcases one with ⟨server, answers | flaw⟩
      · exact hone
      · exact hrest

/-! ### A whole reset -/

/-- The tables that are removed are those whose names are not reserved. -/
theorem mem_ownTables : name ∈ s.ownTables ↔
    (∃ t ∈ s.database.tables, t.name = name) ∧ ¬Reserved name := by
  rw [ownTables, List.mem_filter, List.mem_map, Bool.not_eq_true', ← Bool.not_eq_true,
    like_reserved]

/-- A reset drops the tables that it takes for its own. -/
theorem reset_eq (hconnected : s.isConnected = true) :
    s.reset = ((s.dropAll s.ownTables).1, (s.dropAll s.ownTables).2.mapError Flaw.toError) := by
  rw [reset, if_pos hconnected]

/-- Without quotes in the names that are not reserved, their tables are removed. -/
theorem reset_plain (hconnected : s.isConnected = true) (hlocked : s.locked = false)
    (h : ∀ t ∈ s.database.tables, Reserved t.name ∨ '"' ∉ t.name.toList) :
    s.reset.2 = .ok ()
      ∧ s.reset.1.database.tables = s.database.tables.filter fun t => Reserved t.name := by
  have hquote : ∀ n ∈ s.ownTables, '"' ∉ n.toList := by
    intro n hn
    obtain ⟨⟨t, ht, rfl⟩, hreserved⟩ := mem_ownTables.mp hn
    exact (h t ht).resolve_left hreserved
  obtain ⟨hok, htables⟩ := dropAll_plain hquote hlocked
  rw [reset_eq hconnected, hok]
  refine ⟨rfl, htables.trans (List.filter_congr fun t ht => ?_)⟩
  rw [Bool.eq_iff_iff, List.all_eq_true, decide_eq_true_iff]
  constructor
  · intro hall
    by_contra hreserved
    have hself := hall t.name (mem_ownTables.mpr ⟨⟨t, ht, rfl⟩, hreserved⟩)
    rw [sameName_self] at hself
    cases hself
  · intro hreserved n hn
    obtain ⟨-, hown⟩ := mem_ownTables.mp hn
    rw [Bool.not_eq_true', ← Bool.not_eq_true]
    exact fun hsame => hown (reserved_of_sameName hsame hreserved)

/-- Of the tables with some property, one has the longest name. -/
theorem exists_longest {tables : List Table} (p : Table → Prop) [DecidablePred p]
    (ht : t ∈ tables) (hp : p t) : ∃ longest ∈ tables, p longest
      ∧ ∀ t ∈ tables, p t → t.name.toList.length ≤ longest.name.toList.length := by
  have hmem {t : Table} (ht : t ∈ tables) (hp : p t) : t ∈ tables.filter fun t => p t :=
    List.mem_filter.mpr ⟨ht, decide_eq_true hp⟩
  cases hlongest : (tables.filter fun t => p t).argmax fun t => t.name.toList.length with
  | none =>
      have hnone := hmem ht hp
      rw [List.argmax_eq_none.mp hlongest] at hnone
      cases hnone
  | some longest =>
      obtain ⟨hin, hholds⟩ := List.mem_filter.mp (List.argmax_mem hlongest)
      refine ⟨longest, hin, of_decide_eq_true hholds, fun other hother hp => ?_⟩
      exact List.le_of_mem_argmax (f := fun t : Table => t.name.toList.length) (hmem hother hp)
        hlongest

/-- Of the tables to be removed, the longest with a quote in its name stays. -/
theorem reset_tables_ne_nil (hconnected : s.isConnected = true)
    (hsemi : ∀ t ∈ s.database.tables, ';' ∉ t.name.toList) (ht : t ∈ s.database.tables)
    (hown : ¬Reserved t.name) (hquote : '"' ∈ t.name.toList) :
    s.reset.1.database.tables ≠ [] := by
  obtain ⟨longest, hlongest, ⟨-, hin⟩, hlong⟩ := exists_longest
    (fun t => ¬Reserved t.name ∧ '"' ∈ t.name.toList) ht ⟨hown, hquote⟩
  have hstays : longest ∈ (s.dropAll s.ownTables).1.database.tables := by
    refine mem_of_dropAll hlongest hin (fun n hn hquote => ?_) fun n hn => ?_
    · obtain ⟨⟨other, hother, rfl⟩, hreserved⟩ := mem_ownTables.mp hn
      exact hlong other hother ⟨hreserved, hquote⟩
    · obtain ⟨⟨other, hother, rfl⟩, -⟩ := mem_ownTables.mp hn
      exact hsemi other hother
  rw [reset_eq hconnected]
  exact List.ne_nil_of_mem hstays

/-- A reset that has nothing to remove succeeds and changes nothing. -/
theorem reset_nothing (hconnected : s.isConnected = true) (hown : s.ownTables = []) :
    s.reset = (s, .ok ()) := by
  rw [reset_eq hconnected, hown]
  rfl

/-- A reset that succeeds while somebody else writes had nothing to remove. -/
theorem ownTables_of_locked (hconnected : s.isConnected = true) (hlocked : s.locked = true)
    (h : ∀ t ∈ s.database.tables, Reserved t.name ∨ '"' ∉ t.name.toList)
    (hok : s.reset.2 = .ok ()) : s.ownTables = [] := by
  rw [List.eq_nil_iff_forall_not_mem]
  cases hown : s.ownTables with
  | nil => exact fun _ hn => nomatch hn
  | cons name names =>
      obtain ⟨⟨t, ht, rfl⟩, hreserved⟩ := mem_ownTables.mp (hown ▸ List.mem_cons_self)
      have hquote := (h t ht).resolve_left hreserved
      rw [reset_eq hconnected, hown, dropAll_locked hquote hlocked ht] at hok
      cases hok

/-- A reset that removes everything. A connected store that nobody writes to removes, when
no name to be removed has a quote in it, the tables of all names that are not reserved.
So it is left without tables if no name is reserved and none has a quote in it, and, as
long as no name has a semicolon in it, in no other case. -/
theorem reset_removes_all (s : Server) (hconnected : s.isConnected = true) :
    (s.locked = false → (∀ t ∈ s.database.tables, Reserved t.name ∨ '"' ∉ t.name.toList) →
      s.reset.2 = .ok ()
        ∧ s.reset.1.database.tables = s.database.tables.filter fun t => Reserved t.name)
    ∧ ((∀ t ∈ s.database.tables, ';' ∉ t.name.toList) →
      (s.reset.2 = .ok () ∧ s.reset.1.database.tables = [] ↔
        (s.locked = false ∨ s.database.tables = [])
          ∧ ∀ t ∈ s.database.tables, ¬Reserved t.name ∧ '"' ∉ t.name.toList)) := by
  refine ⟨reset_plain hconnected, fun hsemi => ⟨fun ⟨hok, hempty⟩ => ?_, fun ⟨hfree, hall⟩ => ?_⟩⟩
  · -- A name that is not dropped as it stands leaves its table behind.
    have hquote : ∀ t ∈ s.database.tables, Reserved t.name ∨ '"' ∉ t.name.toList := by
      intro t ht
      by_contra hcon
      rw [not_or, not_not] at hcon
      exact reset_tables_ne_nil hconnected hsemi ht hcon.1 hcon.2 hempty
    cases hlocked : s.locked with
    | false =>
        obtain ⟨-, htables⟩ := reset_plain hconnected hlocked hquote
        rw [htables, List.filter_eq_nil_iff] at hempty
        have hown : ∀ t ∈ s.database.tables, ¬Reserved t.name := by simpa using hempty
        exact ⟨.inl rfl, fun t ht => ⟨hown t ht, (hquote t ht).resolve_left (hown t ht)⟩⟩
    | true =>
        -- A locked database drops nothing.
        rw [reset_nothing hconnected (ownTables_of_locked hconnected hlocked hquote hok)] at hempty
        exact ⟨.inr hempty, fun t ht => nomatch hempty ▸ ht⟩
  · rcases hfree with hfree | hnone
    · obtain ⟨hok, htables⟩ := reset_plain hconnected hfree fun t ht => .inr (hall t ht).2
      refine ⟨hok, htables.trans (List.filter_eq_nil_iff.mpr fun t ht => ?_)⟩
      simpa using (hall t ht).1
    · have hown : s.ownTables = [] := by
        rw [ownTables, hnone]
        rfl
      rw [reset_nothing hconnected hown]
      exact ⟨rfl, hnone⟩

/-- A store with an open file and tables of these names in it. -/
def withTables (names : List String) : Server :=
  { path := some "bench.db", idle := [0]
    database := { tables := names.map fun name => ⟨name, [], [], ∅, ∅⟩ } }

/-- Two of three tables go, one of them with a semicolon in its name; a table with a quote
in its name stays, or is an error. -/
theorem reset_removes_all_shop :
    (withTables ["orders", "order lines; new", "sqlites"]).reset.1.database.tables.map Table.name
        = ["sqlites"]
      ∧ ¬((withTables ["12\" shelves"]).reset.2 = .ok ()
        ∧ (withTables ["12\" shelves"]).reset.1.database.tables = []) := by
  have hnames : ∀ t ∈ (withTables ["orders", "order lines; new", "sqlites"]).database.tables,
      Reserved t.name ∨ '"' ∉ t.name.toList := by
    simp only [withTables, List.map_cons, List.map_nil, List.forall_mem_cons]
    decide +kernel
  have hsemi : ∀ t ∈ (withTables ["12\" shelves"]).database.tables, ';' ∉ t.name.toList := by
    simp only [withTables, List.map_cons, List.map_nil, List.forall_mem_cons]
    decide +kernel
  constructor
  · rw [((reset_removes_all _ rfl).1 rfl hnames).2]
    decide +kernel
  · rw [(reset_removes_all _ rfl).2 hsemi]
    rintro ⟨-, hall⟩
    exact (hall _ List.mem_cons_self).2 (by decide +kernel)

/-- The names of the store itself begin with `sqlite_`. A reset leaves more than these. -/
theorem not_always_removes_all : ¬∀ s : Server, s.isConnected = true → s.locked = false →
    (∀ t ∈ s.database.tables, ¬"sqlite_".toList <+: t.name.toList.map Char.toLower) →
    s.reset.2 = .ok () ∧ s.reset.1.database.tables = [] := by
  intro h
  have hnames : ∀ t ∈ (withTables ["sqlites"]).database.tables,
      ¬"sqlite_".toList <+: t.name.toList.map Char.toLower := by
    simp only [withTables, List.map_cons, List.map_nil, List.forall_mem_cons]
    decide +kernel
  have hplain : ∀ t ∈ (withTables ["sqlites"]).database.tables,
      Reserved t.name ∨ '"' ∉ t.name.toList := by
    simp only [withTables, List.map_cons, List.map_nil, List.forall_mem_cons]
    decide +kernel
  obtain ⟨-, hempty⟩ := h (withTables ["sqlites"]) rfl rfl hnames
  rw [(reset_plain rfl rfl hplain).2, List.filter_eq_nil_iff] at hempty
  exact hempty _ List.mem_cons_self (by decide +kernel)

end Server

end StoreBench.Sql
