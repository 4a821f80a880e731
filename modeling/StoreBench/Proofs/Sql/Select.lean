import Mathlib.Data.List.FinRange
import Mathlib.Data.List.ProdSigma
import StoreBench.Proofs.Document.Records
import StoreBench.Sql.Client

/-!
# `StoreBench.Proofs.Sql.Select`: what a selection finds

A selection without an order of its own goes through four stages. It joins its sources
from the left, keeps the rows that meet its condition, forms groups of them if it
wants any, and evaluates its columns on each row or group. `Database.joinSources_cons`
is one step of the first stage: the rows that there are, each beside each row of the
next table, as far as the two may be joined. `Database.select_eq` is all of them
together, for whatever the groups come to, and `Database.select_plain` is the case
without groups.

The rows stand for items of some type, so that what is selected is said of the items.
`Server.answer_select` takes it to a client that sends the text of the selection.
Instructions can be compared, which tells what a text reads as.
-/

set_option autoImplicit false

namespace StoreBench

/-- Of a list of items, those that pass a test which does not fail on any of them. -/
theorem filterM_map_ok {α β ε : Type} {p : β → Except ε Bool} {f : α → β} {q : α → Bool}
    (items : List α) (h : ∀ a ∈ items, p (f a) = .ok (q a)) :
    (items.map f).filterM p = .ok ((items.filter q).map f) := by
  have haux (kept : List β) : (items.map f).filterAuxM p kept
      = .ok (((items.filter q).map f).reverse ++ kept) := by
    induction items generalizing kept with
    | nil => rfl
    | cons a rest ih =>
        obtain ⟨hfirst, hrest⟩ := List.forall_mem_cons.mp h
        simp only [List.map_cons, List.filterAuxM, hfirst, bind, Except.bind, ih hrest]
        cases hkeep : q a with
        | true => simp [hkeep]
        | false => simp [hkeep]
  simp only [List.filterM, haux, bind, Except.bind, List.append_nil, List.reverse_reverse]
  rfl

/-- What is done for each item succeeds if it does for all of them. -/
theorem forM_ok {α ε : Type} {f : α → Except ε Unit} {items : List α}
    (h : ∀ a ∈ items, f a = .ok ()) : items.forM f = .ok () := by
  induction items with
  | nil => rfl
  | cons a rest ih =>
      obtain ⟨hfirst, hrest⟩ := List.forall_mem_cons.mp h
      simp only [List.forM, hfirst, bind, Except.bind, ih hrest]

namespace Sql

/-! ### Comparing instructions -/

namespace Expr

mutual

/-- Whether two expressions are the same. Equality is not derived for expressions, as
lists of them are nested in one another. -/
def same : Expr → Expr → Bool
  | literal c, literal c' => c == c'
  | param i, param i' => i == i'
  | column source name, column source' name' => source == source' && name == name'
  | quoted name, quoted name' => name == name'
  | binary op a b, binary op' a' b' => op == op' && same a a' && same b b'
  | negate a, negate a' | not a, not a' => same a a'
  | isNull a negated, isNull a' negated' => same a a' && negated == negated'
  | isIn a choices, isIn a' choices' => same a a' && sameAll choices choices'
  | cast a type, cast a' type' => same a a' && type == type'
  | countRows, countRows => true
  | call function args, call function' args' => function == function' && sameAll args args'
  | _, _ => false

/-- Whether two lists of expressions are the same, item by item. -/
def sameAll : List Expr → List Expr → Bool
  | [], [] => true
  | a :: as, b :: bs => same a b && sameAll as bs
  | _, _ => false

end

mutual

/-- That is equality. The proof goes through both expressions at once, together with the
one for lists. -/
theorem same_iff (a b : Expr) : same a b = true ↔ a = b := by
  cases a <;> cases b <;> simp [same, same_iff, sameAll_iff, and_assoc]

/-- Lists of expressions are found to be the same when they are equal, expression by
expression. -/
theorem sameAll_iff (as bs : List Expr) : sameAll as bs = true ↔ as = bs := by
  cases as <;> cases bs <;> simp [sameAll, same_iff, sameAll_iff]

end

instance : DecidableEq Expr := fun a b => decidable_of_iff _ (same_iff a b)

end Expr

deriving instance DecidableEq for Selected, Source
deriving instance DecidableEq for Select
deriving instance DecidableEq for Instruction

/-! ### References to columns -/

/-- A name means itself. Names are compared without regard to case, which changes both
sides alike. -/
theorem sameName_self (name : String) : sameName name name = true := by
  rw [sameName, beq_self_eq_true, Bool.true_or]

/-- No two columns of a row go by the same name and the same table. -/
def Distinct {n : Nat} (row : Fin n → Bound) : Prop :=
  ∀ i j, sameName (row j).name (row i).name = true →
    sameName (row j).source (row i).source = true → j = i

namespace Distinct

variable {n : Nat} {row : Fin n → Bound} (h : Distinct row)

include h

/-- A reference to a column means this column and no other, as no two columns of a row
have one name in one source. -/
theorem candidates (i : Fin n) :
    candidates (List.ofFn row) (some (row i).source) (row i).name = [row i] := by
  have hmeant : (fun j => sameName (row j).name (row i).name
      && (some (row i).source).all fun source => sameName (row j).source source)
        = fun j => j == i := by
    funext j
    rw [Option.all_some, Bool.eq_iff_iff, Bool.and_eq_true, beq_iff_eq]
    constructor
    · rintro ⟨hname, hsource⟩
      exact h i j hname hsource
    · rintro rfl
      exact ⟨sameName_self _, sameName_self _⟩
  have hone : (List.finRange n).filter (fun j => j == i) = [i] := by
    rw [List.filter_beq, (List.nodup_finRange n).count, if_pos (List.mem_finRange i)]
    rfl
  rw [Sql.candidates, List.ofFn_eq_map, List.filter_map]
  exact congrArg (List.map row) ((congrArg (List.filter · (List.finRange n)) hmeant).trans hone)

/-- Its value is that of the cell. -/
theorem eval (i : Fin n) (params : List Cell) (group : List (List Bound)) :
    Expr.eval ⟨params, List.ofFn row, group⟩ (.column (some (row i).source) (row i).name)
      = .ok (row i).cell := by
  rw [Expr.eval, h.candidates]

/-- Its affinity is that of the column, which decides how it is compared. -/
theorem affinity (i : Fin n) :
    Expr.affinity (List.ofFn row) (.column (some (row i).source) (row i).name)
      = (row i).affinity := by
  rw [Expr.affinity, h.candidates]

/-- A column stands in the row that is bound, so the selection is not refused for it. -/
theorem check (i : Fin n) (grouped : Bool) :
    Expr.check (List.ofFn row) grouped (.column (some (row i).source) (row i).name) = .ok () := by
  rw [Expr.check, h.candidates]

end Distinct

namespace Table

/-- The columns of a table have these names and affinities, in this order. All of the
binding of rows depends on nothing else of a table. -/
def Typed (t : Table) (columns : List (String × Affinity)) : Prop :=
  t.columns.map (fun c => (c.name, Affinity.ofType c.type)) = columns

/-- They have these names, and all of them are of texts, as in tables whose columns are
declared by a length. -/
structure OfTexts (t : Table) (names : List String) : Prop where
  names_eq : t.columns.map Column.name = names
  texts : ∀ c ∈ t.columns, Affinity.ofType c.type = .text

variable {t : Table} {columns : List (String × Affinity)} {names : List String}

/-- A row that is bound has each cell under the name of its column and of its source. -/
theorem Typed.bind (h : t.Typed columns) (knownAs : String) (cells : List Cell) :
    t.bind knownAs cells
      = (columns.zip cells).map fun place => ⟨knownAs, place.1.1, place.1.2, place.2⟩ := by
  rw [Table.bind, ← h, List.zip_map_left, List.map_map]
  rfl

/-- A row that is not there, of which only names and affinities are known. Selections
are checked against it before any row is read. -/
theorem Typed.blank (h : t.Typed columns) (knownAs : String) :
    t.blank knownAs = columns.map fun c => ⟨knownAs, c.1, c.2, .null⟩ := by
  rw [Table.blank, h.bind, ← h, List.zip_map', List.map_map, List.map_map]
  rfl

/-- Columns of texts have the affinity of texts. -/
theorem OfTexts.typed (h : t.OfTexts names) : t.Typed (names.map fun name => (name, .text)) := by
  rw [Typed, ← h.names_eq, List.map_map]
  refine List.map_congr_left fun c hc => ?_
  rw [h.texts c hc]
  rfl

end Table

namespace Expr

variable {row : List Bound} {grouped : Bool} {op : Operator} {a b : Expr} {es : List Expr}

/-- An expression of two parts is accepted where both are. -/
theorem check_binary (ha : a.check row grouped = .ok ()) (hb : b.check row grouped = .ok ()) :
    (binary op a b).check row grouped = .ok () := by
  rw [check, ha]
  exact hb

/-- A list of expressions is accepted where each of them is. -/
theorem checkAll_ok (h : ∀ e ∈ es, e.check row grouped = .ok ()) :
    checkAll row grouped es = .ok () := by
  induction es with
  | nil => rw [checkAll]
  | cons e rest ih =>
      obtain ⟨hfirst, hrest⟩ := List.forall_mem_cons.mp h
      rw [checkAll, hfirst]
      exact ih hrest

/-- Expressions are evaluated one by one, and the first that fails ends it. Here none
does. -/
theorem evalAll_cons {env : Env} {e : Expr} {c : Cell} {cs : List Cell} (he : e.eval env = .ok c)
    (hes : evalAll env es = .ok cs) : evalAll env (e :: es) = .ok (c :: cs) := by
  rw [evalAll, he, hes]
  rfl

/-- Two texts are compared as they are, unless a number is wanted on either side, where
a text may be turned into one. -/
theorem holds_equal_text {env : Env} {s t : String}
    (ha : a.eval env = .ok (.text s)) (hb : b.eval env = .ok (.text t))
    (hleft : (a.affinity env.row).isNumeric = false)
    (hright : (b.affinity env.row).isNumeric = false) :
    holds env (some (.binary .equal a b)) = .ok (decide (s = t)) := by
  have hkeeps (affinity : Affinity) (h : affinity.isNumeric = false) (s : String) :
      affinity.convert (.text s) = .text s := by
    cases affinity with
    | text | none => rfl
    | integer | real | numeric => cases h
  -- Without a number on either side no text is made a number.
  have hsides : (Affinity.forComparison (a.affinity env.row) (b.affinity env.row)).1.isNumeric
        = false ∧
      (Affinity.forComparison (a.affinity env.row) (b.affinity env.row)).2.isNumeric = false := by
    simp only [Affinity.forComparison, hleft, hright, Bool.false_and, Bool.false_eq_true, if_false]
    split
    · exact ⟨rfl, rfl⟩
    · split <;> exact ⟨rfl, rfl⟩
  have hsame : (compare s t == .eq) = decide (s = t) := by
    rw [Bool.eq_iff_iff, beq_iff_eq, decide_eq_true_iff, Std.compare_eq_iff_eq]
  simp only [holds, eval, ha, hb, bind, Except.bind, Operator.isComparison, if_true,
    hkeeps _ hsides.1, hkeeps _ hsides.2, Operator.apply]
  show Except.ok (Cell.ofBool (compare s t == .eq)).isTrue = _
  rw [hsame]
  cases decide (s = t) <;> rfl

end Expr

/-! ### Running a selection -/

namespace Database

variable {d : Database} {params : List Cell} {α β : Type}

/-- The columns of two tables without a row are those of one after those of the other. -/
theorem blankRow_pair {first second : Source} {t u : Table} (ht : d.table first.table = .ok t)
    (hu : d.table second.table = .ok u) :
    d.blankRow [first, second] = .ok (t.blank first.knownAs ++ u.blank second.knownAs) := by
  simp only [blankRow, List.mapM_cons, List.mapM_nil, ht, hu]
  exact congrArg Except.ok (congrArg (_ ++ ·) (List.append_nil _))

/-- The rows of the first table are taken as they are, since there is nothing before it
to join them to. -/
theorem joinSources_first {source : Source} {rest : List Source} {t : Table} {records : List β}
    {cells : β → List Cell} (ht : d.table source.table = .ok t)
    (hvalues : t.rows.values = records.map cells) (hall : source.joinedOn = none) :
    d.joinSources params (source :: rest) [[]]
      = d.joinSources params rest (records.map fun r => t.bind source.knownAs (cells r)) := by
  have hkept := filterM_map_ok (p := fun row => Expr.holds ⟨params, row, []⟩ none)
    (f := fun r => t.bind source.knownAs (cells r)) (q := fun _ => true) records
    fun _ _ => rfl
  rw [List.filter_true] at hkept
  have hrows : ([[]] : List (List Bound)).flatMap (fun row =>
        (t.rows.values.map (t.bind source.knownAs)).map fun more => row ++ more)
      = records.map fun r => t.bind source.knownAs (cells r) := by
    rw [hvalues, List.flatMap_singleton, List.map_map, List.map_map]
    rfl
  simp only [joinSources, ht, hrows, hall, bind, Except.bind, hkept]

/-- One more table is joined: each row that there is stands beside each row of the
table, as far as the condition lets it. -/
theorem joinSources_cons {source : Source} {rest : List Source} {t : Table} {items : List α}
    {row : α → List Bound} {records : List β} {cells : β → List Cell} {keep : α × β → Bool}
    (ht : d.table source.table = .ok t) (hvalues : t.rows.values = records.map cells)
    (hkeep : ∀ pair : α × β, Expr.holds
      ⟨params, row pair.1 ++ t.bind source.knownAs (cells pair.2), []⟩ source.joinedOn
        = .ok (keep pair)) :
    d.joinSources params (source :: rest) (items.map row)
      = d.joinSources params rest (((items ×ˢ records).filter keep).map fun pair =>
          row pair.1 ++ t.bind source.knownAs (cells pair.2)) := by
  -- Each row goes with each record, in the order of the rows.
  have hpairs : ((items.map row).flatMap fun row =>
        (t.rows.values.map (t.bind source.knownAs)).map fun more => row ++ more)
      = (items ×ˢ records).map fun pair =>
          row pair.1 ++ t.bind source.knownAs (cells pair.2) := by
    rw [hvalues]
    induction items with
    | nil => rfl
    | cons a rest ih =>
        rw [List.map_cons, List.flatMap_cons, ih, List.product_cons, List.map_append,
          List.map_map, List.map_map, List.map_map]
        rfl
  have hkept := filterM_map_ok (p := fun row => Expr.holds ⟨params, row, []⟩ source.joinedOn)
    (f := fun pair : α × β => row pair.1 ++ t.bind source.knownAs (cells pair.2)) (items ×ˢ records)
    fun pair _ => hkeep pair
  simp only [joinSources, ht, hpairs, bind, Except.bind, hkept]

/-- Nothing of a selection is refused ahead, whether it speaks of groups or not. -/
structure Checked (grouped : Bool) (blank : List Bound) (results : List (Expr × String))
    (s : Select) : Prop where
  grouped_eq : (!s.groupBy.isEmpty || Expr.anyAggregate (results.map Prod.fst)
    || Expr.anyAggregate s.having.toList) = grouped
  joined : ∀ source ∈ s.sources, ∀ e ∈ source.joinedOn, e.check blank false = .ok ()
  results : ∀ result ∈ results, result.1.check blank grouped = .ok ()
  condition : ∀ e ∈ s.condition, e.check blank false = .ok ()
  groupBy : ∀ e ∈ s.groupBy, e.check blank false = .ok ()
  having : ∀ e ∈ s.having, e.check blank grouped = .ok ()

section Select

variable {s : Select} {grouped : Bool} {blank : List Bound} {results : List (Expr × String)}
  {items : List α} {row : α → List Bound} {keep : α → Bool}

/-- A selection without an order joins its sources, keeps the rows that meet its
condition, and forms what its results are evaluated on. It has the results of those
that its condition on groups lets through. -/
theorem select_eq {envs : List β} {env : β → Env} {chosen : β → Bool} {cells : β → List Cell}
    (horder : s.orderBy = []) (hblank : d.blankRow s.sources = .ok blank)
    (hresults : resultColumns blank s = .ok results)
    (hchecked : Checked grouped blank results s)
    (hjoined : d.joinSources params s.sources [[]] = .ok (items.map row))
    (hkeep : ∀ a ∈ items, Expr.holds ⟨params, row a, []⟩ s.condition = .ok (keep a))
    (hgroups : groups params s grouped ((items.filter keep).map row) = .ok (envs.map env))
    (hchosen : ∀ b ∈ envs, Expr.holds (env b) s.having = .ok (chosen b))
    (hcells : ∀ b ∈ envs, Expr.evalAll (env b) (results.map Prod.fst) = .ok (cells b)) :
    d.select params s = .ok
      { columns := results.map Prod.snd, rows := (envs.filter chosen).map cells } := by
  -- None of the checks before the rows are read has anything to refuse.
  have hjoins : s.sources.forM (fun source =>
      Expr.checkAll blank false source.joinedOn.toList) = .ok () :=
    forM_ok fun source hsource => Expr.checkAll_ok fun e he =>
      hchecked.joined source hsource e (Option.mem_toList.mp he)
  have hcolumns : Expr.checkAll blank grouped (results.map Prod.fst) = .ok () :=
    Expr.checkAll_ok (List.forall_mem_map.mpr hchecked.results)
  have hcondition : Expr.checkAll blank false s.condition.toList = .ok () :=
    Expr.checkAll_ok fun e he => hchecked.condition e (Option.mem_toList.mp he)
  have hgroupBy : Expr.checkAll blank false s.groupBy = .ok () :=
    Expr.checkAll_ok hchecked.groupBy
  have hhaving : Expr.checkAll blank grouped s.having.toList = .ok () :=
    Expr.checkAll_ok fun e he => hchecked.having e (Option.mem_toList.mp he)
  have hrows := filterM_map_ok (p := fun row => Expr.holds ⟨params, row, []⟩ s.condition)
    (f := row) items hkeep
  have henvs := filterM_map_ok (p := fun env => Expr.holds env s.having) (f := env) envs hchosen
  simp only [select, hblank, hresults, hchecked.grouped_eq, horder, hjoins, hcolumns, hcondition,
    hgroupBy, hhaving, hjoined, hrows, hgroups, henvs, bind, Except.bind, pure, Except.pure,
    List.isEmpty_nil, if_true, List.mapM_nil]
  rw [mapM_map_ok (envs.filter chosen) fun b hb =>
    (?_ : _ = Except.ok (([] : List (Cell × Bool)), cells b))]
  · simp only [List.map_map]
    rfl
  · rw [hcells b (List.mem_filter.mp hb).1]


/-- Without groups a selection has each row that meets its condition, with its columns. The
rows may be given by items of any kind, so a join of records need not be computed. -/
theorem select_plain {cells : α → List Cell} (hhaving : s.having = none) (horder : s.orderBy = [])
    (hblank : d.blankRow s.sources = .ok blank)
    (hresults : resultColumns blank s = .ok results) (hchecked : Checked false blank results s)
    (hjoined : d.joinSources params s.sources [[]] = .ok (items.map row))
    (hkeep : ∀ a, Expr.holds ⟨params, row a, []⟩ s.condition = .ok (keep a))
    (hcells : ∀ a, Expr.evalAll ⟨params, row a, []⟩ (results.map Prod.fst) = .ok (cells a)) :
    d.select params s = .ok
      { columns := results.map Prod.snd, rows := (items.filter keep).map cells } := by
  have hgroups : groups params s false ((items.filter keep).map row)
      = .ok ((items.filter keep).map fun a => ⟨params, row a, []⟩) := by
    simp only [groups, Bool.not_false, if_true, List.map_map]
    rfl
  -- No condition on groups is left, so all rows are kept.
  have hselect : d.select params s = .ok
      { columns := results.map Prod.snd
        rows := ((items.filter keep).filter fun _ => true).map cells } :=
    select_eq horder hblank hresults hchecked hjoined (fun a _ => hkeep a) hgroups
      (fun a _ => hhaving ▸ rfl) fun a _ => hcells a
  rwa [List.filter_true] at hselect

end Select

end Database

namespace Server

variable {s : Server} {text : String} {params : List Value} {selection : Select} {a : Answer}

/-- A selection by itself answers what the database has, and changes nothing. -/
theorem autocommit_select (htext : Instruction.ofText text = [.ok (.select selection)])
    (hselect : s.database.select (params.map Cell.ofValue) selection = .ok a) :
    ∃ count : Nat, (s.autocommit text params).2 = .ok [(a, count)] := by
  have hbegin : s.begin.1.view = none ∧ s.begin.2.database = s.database := by
    unfold Server.begin
    split <;> exact ⟨rfl, rfl⟩
  obtain ⟨hview, hdatabase⟩ := hbegin
  have hrun : (s.begin.2.database.run (params.map Cell.ofValue) (.select selection))
      = .ok (s.begin.2.database, a) := by
    rw [hdatabase]
    simp only [Database.run, hselect]
    rfl
  simp only [autocommit, htext, OpenTransaction.runEach, OpenTransaction.run, hview,
    Option.getD_none, hrun, Instruction.writes]
  exact ⟨_, rfl⟩

/-- A client that asks for a selection has its rows, whatever it holds of a transaction
at the same time. -/
theorem answer_select (hconnected : s.isConnected = true)
    (htext : Instruction.ofText text = [.ok (.select selection)])
    (hselect : s.database.select (params.map Cell.ofValue) selection = .ok a) {rows : List Row}
    (hrows : a.toRows = .ok rows) (held : Option OpenTransaction) :
    (s.answer held (.query (.sql text params))).2.2 = .ok rows := by
  obtain ⟨count, hanswer⟩ := autocommit_select htext hselect
  rcases hserver : s.autocommit text params with ⟨server, result⟩
  rw [hserver] at hanswer
  subst hanswer
  simp only [answer, single, expectSql, hconnected, if_true, hserver, rowsRead, List.mapM_cons,
    List.mapM_nil, hrows]
  show Except.ok [rows].flatten = _
  rw [List.flatten_singleton]

end Server

end Sql

end StoreBench
