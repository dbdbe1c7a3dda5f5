import Ghpulse.Library.SqlTruth
import Ghpulse.Library.Runs

/-!
# Definition statements

Tables of typed rows under `NOT NULL` and `CHECK` constraints, and the statements of a migration script:
`CREATE TABLE IF NOT EXISTS`, `CREATE INDEX IF NOT EXISTS`, the `ALTER TABLE` statements for columns and
constraints, and an insert that yields to a conflict. A `Table` carries that each of its rows meets each
of its constraints, so a statement that would break this returns nothing.

A statement reads and writes one table, so a script succeeds exactly when its part for each table does.
-/

open Python

namespace Sql

/-! ## Tables

A row is a function of the name of a column, so adding a column to a table is an update of its rows, and a
check reads the columns that its condition mentions. Three kinds of constraint are kept: types, `NOT
NULL`, and named checks.
-/

/-- The type of a column. -/
inductive ColumnType where
  | text
  | integer
  | boolean
  | timestamp
  deriving DecidableEq

/-- A value that is not NULL. -/
inductive Datum where
  | text (s : Str)
  | integer (z : ℤ)
  | boolean (b : Bool)
  | timestamp (t : ℤ)
  deriving DecidableEq

/-- The type of a value. -/
def Datum.type : Datum → ColumnType
  | .text _ => .text
  | .integer _ => .integer
  | .boolean _ => .boolean
  | .timestamp _ => .timestamp

/-- A row by the names of its columns; nothing stands for NULL. -/
abbrev Row := Str → Option Datum

/-- The value of a `TEXT` column. -/
def textAt (r : Row) (column : Str) : Option Str :=
  (r column).bind fun d => match d with
    | .text s => some s
    | _ => none

/-- The value of an integer column. -/
def integerAt (r : Row) (column : Str) : Option ℤ :=
  (r column).bind fun d => match d with
    | .integer z => some z
    | _ => none

/-- The value of a `BOOLEAN` column. -/
def booleanAt (r : Row) (column : Str) : Option Bool :=
  (r column).bind fun d => match d with
    | .boolean b => some b
    | _ => none

/-- The default of a column. -/
inductive Default where
  | null
  | value (d : Datum)
  | now
  deriving DecidableEq

/-- The value of a default at a time. -/
def Default.eval (now : ℤ) : Default → Option Datum
  | .null => none
  | .value d => some d
  | .now => some (.timestamp now)

/-- The declaration of a column. -/
structure Column where
  name : Str
  type : ColumnType
  notNull : Bool
  default : Default
  deriving DecidableEq

/-- The value of a row in a column has its type, and is not NULL if that is declared. -/
def Column.admits (c : Column) (r : Row) : Bool :=
  match r c.name with
  | none => !c.notNull
  | some d => decide (d.type = c.type)

/-- The default of a column meets its declaration. -/
def Column.AdmitsDefault (c : Column) (now : ℤ) : Prop :=
  c.admits (fun _ => c.default.eval now) = true

/-- A named `CHECK`. -/
structure Check where
  name : Str
  condition : Row → Truth

/-- A row meets the declarations of its columns and the checks. -/
def Valid (columns : List Column) (checks : List Check) (r : Row) : Prop :=
  (∀ c ∈ columns, c.admits r = true) ∧ ∀ k ∈ checks, admits (k.condition r) = true

instance (columns : List Column) (checks : List Check) (r : Row) :
    Decidable (Valid columns checks r) := inferInstanceAs (Decidable (_ ∧ _))

/-- A table; its rows meet its constraints. -/
@[ext] structure Table where
  columns : List Column
  checks : List Check
  indexes : List Str
  rows : List Row
  valid : ∀ r ∈ rows, Valid columns checks r

namespace Table

/-- The table has a column of that name. -/
def HasColumn (t : Table) (name : Str) : Prop := name ∈ t.columns.map Column.name

instance (t : Table) (name : Str) : Decidable (t.HasColumn name) :=
  inferInstanceAs (Decidable (_ ∈ _))

/-- The table with other columns and rows, if these meet the constraints. -/
def rebuild (t : Table) (columns : List Column) (rows : List Row) : Option Table :=
  if h : ∀ r ∈ rows, Valid columns t.checks r then
    some { t with columns := columns, rows := rows, valid := h }
  else none

/-- `CREATE INDEX IF NOT EXISTS name`. -/
def createIndex (t : Table) (name : Str) : Table :=
  if name ∈ t.indexes then t else { t with indexes := t.indexes ++ [name] }

/-- `ADD COLUMN IF NOT EXISTS`. -/
def addColumn (t : Table) (now : ℤ) (c : Column) : Option Table :=
  if t.HasColumn c.name then some t
  else t.rebuild (t.columns ++ [c])
    (t.rows.map fun r => Function.update r c.name (c.default.eval now))

/-- `DROP COLUMN IF EXISTS`. -/
def dropColumn (t : Table) (name : Str) : Option Table :=
  if t.HasColumn name then
    t.rebuild (t.columns.filter fun c => decide (c.name ≠ name))
      (t.rows.map fun r => Function.update r name none)
  else some t

/-- `DROP CONSTRAINT IF EXISTS`. -/
def dropConstraint (t : Table) (name : Str) : Table :=
  { t with
    checks := t.checks.filter fun k => decide (k.name ≠ name)
    valid := fun r hr => ⟨(t.valid r hr).1, fun k hk => (t.valid r hr).2 k (List.mem_of_mem_filter hk)⟩ }

/-- `ADD CONSTRAINT`: every row is checked. -/
def addConstraint (t : Table) (k : Check) : Option Table :=
  if k.name ∈ t.checks.map Check.name then none
  else if h : ∀ r ∈ t.rows, admits (k.condition r) = true then
    some { t with
      checks := t.checks ++ [k]
      valid := fun r hr => ⟨(t.valid r hr).1, fun k' hk' => by
        rcases List.mem_append.mp hk' with hold | hnew
        · exact (t.valid r hr).2 k' hold
        · exact List.mem_singleton.mp hnew ▸ h r hr⟩ }
  else none

/-- The row of an insert that names one column. -/
def insertedRow (t : Table) (now : ℤ) (column : Str) (d : Datum) : Row := fun name =>
  if name = column then some d
  else (t.columns.find? fun c => decide (c.name = name)).bind fun c => c.default.eval now

/-- `INSERT (column) VALUES (d) ON CONFLICT (column) DO NOTHING`. -/
def insert (t : Table) (now : ℤ) (column : Str) (d : Datum) : Option Table :=
  if ∃ r ∈ t.rows, r column = some d then some t
  else t.rebuild t.columns (t.rows ++ [t.insertedRow now column d])

/-! ### What the statements do to a table

When a statement succeeds, and the columns, checks and rows that it leaves.
-/

variable (t : Table)

/-- An index leaves the columns. -/
@[simp] theorem columns_createIndex (name : Str) : (t.createIndex name).columns = t.columns := by
  unfold createIndex
  split <;> rfl

/-- It leaves the checks. -/
@[simp] theorem checks_createIndex (name : Str) : (t.createIndex name).checks = t.checks := by
  unfold createIndex
  split <;> rfl

/-- And the rows. -/
@[simp] theorem rows_createIndex (name : Str) : (t.createIndex name).rows = t.rows := by
  unfold createIndex
  split <;> rfl

/-- An index that is there is not created again. -/
theorem createIndex_of_mem {t : Table} {name : Str} (h : name ∈ t.indexes) :
    t.createIndex name = t := if_pos h

/-- The indexes of a script, created in turn. -/
def createIndexes (t : Table) (names : List Str) : Table := names.foldl createIndex t

/-- Indexes leave columns, checks and rows, and are there afterwards. -/
theorem createIndexes_spec (names : List Str) (t : Table) :
    (t.createIndexes names).columns = t.columns ∧ (t.createIndexes names).checks = t.checks ∧
      (t.createIndexes names).rows = t.rows ∧
      ∀ name, name ∈ names ∨ name ∈ t.indexes → name ∈ (t.createIndexes names).indexes := by
  induction names generalizing t with
  | nil =>
    refine ⟨rfl, rfl, rfl, ?_⟩
    rintro name (h | h)
    · cases h
    · exact h
  | cons n names ih =>
    obtain ⟨hcolumns, hchecks, hrows, hindexes⟩ := ih (t.createIndex n)
    refine ⟨by rw [← columns_createIndex t n, ← hcolumns]; rfl,
      by rw [← checks_createIndex t n, ← hchecks]; rfl, by rw [← rows_createIndex t n, ← hrows]; rfl, ?_⟩
    intro name h
    apply hindexes
    rw [List.mem_cons, or_assoc] at h
    have hmem (hname : name = n ∨ name ∈ t.indexes) : name ∈ (t.createIndex n).indexes := by
      unfold createIndex
      split_ifs with hn
      · rcases hname with rfl | h
        · exact hn
        · exact h
      · rw [List.mem_append, List.mem_singleton]
        exact hname.symm
    rcases h with h | h | h
    · exact Or.inr (hmem (Or.inl h))
    · exact Or.inl h
    · exact Or.inr (hmem (Or.inr h))

/-- Indexes that are there are not created again. -/
theorem createIndexes_of_mem {names : List Str} {t : Table} (h : ∀ name ∈ names, name ∈ t.indexes) :
    t.createIndexes names = t := by
  induction names with
  | nil => rfl
  | cons n names ih =>
    obtain ⟨hn, hnames⟩ := List.forall_mem_cons.mp h
    show (t.createIndex n).createIndexes names = t
    rw [createIndex_of_mem hn]
    exact ih hnames

/-- The constraints of a script, dropped in turn. -/
def dropConstraints (t : Table) (names : List Str) : Table := names.foldl dropConstraint t

/-- Dropping constraints leaves everything but the checks of these names. -/
theorem dropConstraints_spec (names : List Str) (t : Table) :
    (t.dropConstraints names).columns = t.columns ∧
      (t.dropConstraints names).checks = t.checks.filter (fun k => decide (k.name ∉ names)) ∧
      (t.dropConstraints names).indexes = t.indexes ∧ (t.dropConstraints names).rows = t.rows := by
  induction names generalizing t with
  | nil => exact ⟨rfl, by simp [dropConstraints], rfl, rfl⟩
  | cons n names ih =>
    obtain ⟨hcolumns, hchecks, hindexes, hrows⟩ := ih (t.dropConstraint n)
    refine ⟨hcolumns, ?_, hindexes, hrows⟩
    refine hchecks.trans ?_
    rw [dropConstraint, List.filter_filter]
    congr 1
    funext k
    simp only [List.mem_cons, not_or, Bool.decide_and, Bool.and_comm]

/-- The columns and rows of a table are replaced. -/
theorem rebuild_of_valid {t : Table} {columns : List Column} {rows : List Row}
    (h : ∀ r ∈ rows, Valid columns t.checks r) :
    ∃ t', t.rebuild columns rows = some t' ∧ t'.columns = columns ∧ t'.checks = t.checks ∧
      t'.indexes = t.indexes ∧ t'.rows = rows :=
  ⟨_, dif_pos h, rfl, rfl, rfl, rfl⟩

/-- Declarations and checks that do not read a column do not notice its value. -/
theorem valid_update {columns : List Column} {checks : List Check} {name : Str} {v : Option Datum}
    {r : Row} (hcolumns : name ∉ columns.map Column.name)
    (hchecks : ∀ k ∈ checks, k.condition (Function.update r name v) = k.condition r)
    (h : Valid columns checks r) : Valid columns checks (Function.update r name v) := by
  refine ⟨fun c hc => ?_, fun k hk => ?_⟩
  · have hne : c.name ≠ name := fun heq => hcolumns (heq ▸ List.mem_map_of_mem hc)
    rw [Column.admits, Function.update_of_ne hne]
    exact h.1 c hc
  · rw [hchecks k hk]
    exact h.2 k hk

/-- A new column whose default meets its declaration can be added. -/
theorem addColumn_of_new {t : Table} {now : ℤ} {c : Column} (hnew : ¬ t.HasColumn c.name)
    (hdefault : c.AdmitsDefault now)
    (hchecks : ∀ k ∈ t.checks, ∀ r v, k.condition (Function.update r c.name v) = k.condition r) :
    ∃ t', t.addColumn now c = some t' ∧ t'.columns = t.columns ++ [c] ∧ t'.checks = t.checks ∧
      t'.indexes = t.indexes ∧
      t'.rows = t.rows.map fun r => Function.update r c.name (c.default.eval now) := by
  rw [addColumn, if_neg hnew]
  apply rebuild_of_valid
  intro r' hr'
  obtain ⟨r, hr, rfl⟩ := List.mem_map.mp hr'
  have hold := valid_update hnew (fun k hk => hchecks k hk r (c.default.eval now)) (t.valid r hr)
  refine ⟨fun c' hc' => ?_, hold.2⟩
  rcases List.mem_append.mp hc' with hc' | hc'
  · exact hold.1 c' hc'
  · rw [List.mem_singleton.mp hc', Column.admits, Function.update_self]
    exact hdefault

/-- A column that is there is not added again. -/
theorem addColumn_of_mem {t : Table} {now : ℤ} {c : Column} (h : t.HasColumn c.name) :
    t.addColumn now c = some t := if_pos h

/-- A column that is not there is not dropped. -/
theorem dropColumn_of_absent {t : Table} {name : Str} (h : ¬ t.HasColumn name) :
    t.dropColumn name = some t := if_neg h

/-- A column that no check reads can be dropped. -/
theorem dropColumn_of_unread {t : Table} {name : Str} (hold : t.HasColumn name)
    (hchecks : ∀ k ∈ t.checks, ∀ r v, k.condition (Function.update r name v) = k.condition r) :
    ∃ t', t.dropColumn name = some t' ∧
      t'.columns = t.columns.filter (fun c => decide (c.name ≠ name)) ∧ t'.checks = t.checks ∧
      t'.indexes = t.indexes ∧ t'.rows = t.rows.map fun r => Function.update r name none := by
  rw [dropColumn, if_pos hold]
  apply rebuild_of_valid
  intro r' hr'
  obtain ⟨r, hr, rfl⟩ := List.mem_map.mp hr'
  apply valid_update
  · intro hmem
    obtain ⟨c, hc, hname⟩ := List.mem_map.mp hmem
    exact of_decide_eq_true (List.mem_filter.mp hc).2 hname
  · exact fun k hk => hchecks k hk r none
  · exact ⟨fun c hc => (t.valid r hr).1 c (List.mem_of_mem_filter hc), (t.valid r hr).2⟩

/-- A constraint of a new name is added exactly when every row meets it. -/
theorem addConstraint_eq_some {t t' : Table} {k : Check} (hnew : k.name ∉ t.checks.map Check.name) :
    t.addConstraint k = some t' ↔ (∀ r ∈ t.rows, admits (k.condition r) = true) ∧
      t'.columns = t.columns ∧ t'.checks = t.checks ++ [k] ∧ t'.indexes = t.indexes ∧
      t'.rows = t.rows := by
  rw [addConstraint, if_neg hnew]
  constructor
  · intro h
    split_ifs at h with hrows
    cases h
    exact ⟨hrows, rfl, rfl, rfl, rfl⟩
  · rintro ⟨hrows, hcolumns, hchecks, hindexes, hsame⟩
    rw [dif_pos hrows, Option.some.injEq]
    exact Table.ext hcolumns.symm hchecks.symm hindexes.symm hsame.symm

/-- A new check that admits every row can be added, and leaves the rest. -/
theorem exists_addConstraint {t : Table} {k : Check} (hnew : k.name ∉ t.checks.map Check.name)
    (hrows : ∀ r ∈ t.rows, admits (k.condition r) = true) :
    ∃ t', t.addConstraint k = some t' ∧ t'.columns = t.columns ∧ t'.checks = t.checks ++ [k] ∧
      t'.indexes = t.indexes ∧ t'.rows = t.rows := by
  rw [addConstraint, if_neg hnew, dif_pos hrows]
  exact ⟨_, rfl, rfl, rfl, rfl, rfl⟩

/-- An insert of a valid row leaves a row with the value. -/
theorem exists_insert {t : Table} {now : ℤ} {column : Str} {d : Datum}
    (h : Valid t.columns t.checks (t.insertedRow now column d)) :
    ∃ t', t.insert now column d = some t' ∧ t'.columns = t.columns ∧ t'.checks = t.checks ∧
      ∃ r ∈ t'.rows, r column = some d := by
  unfold insert
  split_ifs with hrow
  · exact ⟨t, rfl, rfl, rfl, hrow⟩
  · have hvalid : ∀ r ∈ t.rows ++ [t.insertedRow now column d], Valid t.columns t.checks r := by
      intro r hr
      rcases List.mem_append.mp hr with hr | hr
      · exact t.valid r hr
      · exact List.mem_singleton.mp hr ▸ h
    obtain ⟨t', ht', hcolumns, hchecks, -, hrows⟩ := rebuild_of_valid hvalid
    refine ⟨t', ht', hcolumns, hchecks, t.insertedRow now column d, ?_, if_pos rfl⟩
    rw [hrows]
    exact List.mem_append_right _ List.mem_cons_self

end Table

/-! ## Scripts

A script is split into the lists of actions on each table. It succeeds when each of these lists does, and
one that fails anywhere fails as a whole.
-/

/-- A statement about one table. -/
inductive Action where
  | createTable (columns : List Column) (checks : List Check)
  | createIndex (name : Str)
  | addColumn (c : Column)
  | dropColumn (name : Str)
  | dropConstraint (name : Str)
  | addConstraint (k : Check)
  | insert (column : Str) (d : Datum)

/-- Execute a statement; only `CREATE TABLE` may find no table. -/
def Action.exec (now : ℤ) : Action → Option Table → Option Table
  | .createTable columns checks, none =>
    some ⟨columns, checks, [], [], fun _ h => absurd h List.not_mem_nil⟩
  | .createTable _ _, some t => some t
  | _, none => none
  | .createIndex name, some t => some (t.createIndex name)
  | .addColumn c, some t => t.addColumn now c
  | .dropColumn name, some t => t.dropColumn name
  | .dropConstraint name, some t => some (t.dropConstraint name)
  | .addConstraint k, some t => t.addConstraint k
  | .insert column d, some t => t.insert now column d

variable {ι : Type} [DecidableEq ι]

/-- Execute one statement of a script. -/
def runStatement (now : ℤ) (db : ι → Option Table) (s : ι × Action) : Option (ι → Option Table) :=
  (s.2.exec now (db s.1)).map fun t => Function.update db s.1 (some t)

/-- Execute one statement on its table. -/
def runOn (now : ℤ) (t : Option Table) (a : Action) : Option (Option Table) :=
  (a.exec now t).map some

/-- The statements of a script about one table. -/
def actionsOn (script : List (ι × Action)) (name : ι) : List Action :=
  script.filterMap fun s => if s.1 = name then some s.2 else none

/-- The actions on a table are found statement by statement. -/
theorem actionsOn_cons (s : ι × Action) (script : List (ι × Action)) (name : ι) :
    actionsOn (s :: script) name =
      if s.1 = name then s.2 :: actionsOn script name else actionsOn script name := by
  unfold actionsOn
  rw [List.filterMap_cons]
  split_ifs <;> rfl

/-- A script succeeds exactly when its statements about each table do. -/
theorem run_script_iff {now : ℤ} {script : List (ι × Action)} {db db' : ι → Option Table} :
    Runs.run (runStatement now) db script = some db' ↔
      ∀ name, Runs.run (runOn now) (db name) (actionsOn script name) = some (db' name) := by
  induction script generalizing db with
  | nil =>
    show some db = some db' ↔ ∀ name, some (db name) = some (db' name)
    simp only [Option.some.injEq, funext_iff]
  | cons s script ih =>
    rw [Runs.run_cons]
    constructor
    · rintro ⟨m, hm, hrun⟩ name
      obtain ⟨t, ht, rfl⟩ := Option.map_eq_some_iff.mp hm
      have hrest := ih.mp hrun name
      by_cases hname : s.1 = name
      · subst hname
        rw [Function.update_self] at hrest
        rw [actionsOn_cons, if_pos rfl, Runs.run_cons]
        exact ⟨some t, by rw [runOn, ht, Option.map_some], hrest⟩
      · rw [Function.update_of_ne (Ne.symm hname)] at hrest
        rwa [actionsOn_cons, if_neg hname]
    · intro h
      have hfirst := h s.1
      rw [actionsOn_cons, if_pos rfl, Runs.run_cons] at hfirst
      obtain ⟨m, hm, hrest⟩ := hfirst
      obtain ⟨t, ht, rfl⟩ := Option.map_eq_some_iff.mp hm
      refine ⟨Function.update db s.1 (some t), by rw [runStatement, ht, Option.map_some], ?_⟩
      apply ih.mpr
      intro name
      by_cases hname : s.1 = name
      · subst hname
        rw [Function.update_self]
        exact hrest
      · have hother := h name
        rw [actionsOn_cons, if_neg hname] at hother
        rwa [Function.update_of_ne (Ne.symm hname)]

/-! ### Scripts about one table

Typical scripts: columns that are new, and checks that take the place of others.
-/

variable {now : ℤ} {t t' : Table} {a : Action} {as : List Action}

/-- A statement that succeeds hands its table to the next. -/
theorem run_runOn_cons (h : a.exec now (some t) = some t') :
    Runs.run (runOn now) (some t) (a :: as) = Runs.run (runOn now) (some t') as := by
  rw [Runs.run, runOn, h]
  rfl

/-- A run on a table executes its first action and then the rest. -/
theorem run_runOn_cons_iff {x : Option Table} :
    Runs.run (runOn now) (some t) (a :: as) = some x ↔
      ∃ m, a.exec now (some t) = some m ∧ Runs.run (runOn now) (some m) as = some x := by
  rw [Runs.run_cons]
  constructor
  · rintro ⟨m, hm, hrun⟩
    obtain ⟨t', ht', rfl⟩ := Option.map_eq_some_iff.mp hm
    exact ⟨t', ht', hrun⟩
  · rintro ⟨t', ht', hrun⟩
    exact ⟨some t', by rw [runOn, ht', Option.map_some], hrun⟩

/-- A run creates its indexes and goes on. -/
theorem run_createIndexes (names : List Str) :
    Runs.run (runOn now) (some t) (names.map Action.createIndex ++ as) =
      Runs.run (runOn now) (some (t.createIndexes names)) as := by
  induction names generalizing t with
  | nil => rfl
  | cons n names ih =>
    have hfirst : (Action.createIndex n).exec now (some t) = some (t.createIndex n) := rfl
    rw [List.map_cons, List.cons_append, run_runOn_cons hfirst]
    exact ih

/-- Columns that exist are not added again. -/
theorem run_addColumns_of_mem {cs : List Column} (h : ∀ c ∈ cs, t.HasColumn c.name) :
    Runs.run (runOn now) (some t) (cs.map Action.addColumn ++ as) =
      Runs.run (runOn now) (some t) as := by
  induction cs with
  | nil => rfl
  | cons c cs ih =>
    obtain ⟨hc, hcs⟩ := List.forall_mem_cons.mp h
    have hfirst : (Action.addColumn c).exec now (some t) = some t := Table.addColumn_of_mem hc
    rw [List.map_cons, List.cons_append, run_runOn_cons hfirst]
    exact ih hcs

/-- New columns are added with their defaults, and nothing else changes. -/
theorem run_addColumns_of_new {cs : List Column} (hnodup : (cs.map Column.name).Nodup)
    (hnew : ∀ c ∈ cs, ¬ t.HasColumn c.name) (hdefault : ∀ c ∈ cs, c.AdmitsDefault now)
    (hchecks : ∀ k ∈ t.checks, ∀ c ∈ cs, ∀ r v,
      k.condition (Function.update r c.name v) = k.condition r) :
    ∃ m, (∀ as, Runs.run (runOn now) (some t) (cs.map Action.addColumn ++ as) =
        Runs.run (runOn now) (some m) as) ∧
      m.columns = t.columns ++ cs ∧ m.checks = t.checks ∧ m.indexes = t.indexes ∧
      ∀ r' ∈ m.rows, ∃ r ∈ t.rows, (∀ c ∈ cs, r' c.name = c.default.eval now) ∧
        ∀ name ∉ cs.map Column.name, r' name = r name := by
  induction cs generalizing t with
  | nil => exact ⟨t, fun _ => rfl, by rw [List.append_nil], rfl, rfl, fun r hr => ⟨r, hr, by simp, by simp⟩⟩
  | cons c cs ih =>
    rw [List.map_cons, List.nodup_cons] at hnodup
    obtain ⟨hc, hcs⟩ := List.forall_mem_cons.mp hnew
    obtain ⟨hd, hds⟩ := List.forall_mem_cons.mp hdefault
    obtain ⟨n, hn, hncolumns, hnchecks, hnindexes, hnrows⟩ :=
      Table.addColumn_of_new hc hd fun k hk => hchecks k hk c List.mem_cons_self
    -- the columns have different names, so the next one is still new
    have hnew' : ∀ d ∈ cs, ¬ n.HasColumn d.name := by
      intro d hdmem hhas
      rw [Table.HasColumn, hncolumns, List.map_append, List.mem_append] at hhas
      rcases hhas with hhas | hhas
      · exact hcs d hdmem hhas
      · rw [List.map_singleton, List.mem_singleton] at hhas
        exact hnodup.1 (hhas ▸ List.mem_map_of_mem hdmem)
    obtain ⟨m, hm, hmcolumns, hmchecks, hmindexes, hmrows⟩ :=
      ih hnodup.2 hnew' hds fun k hk d hdmem =>
        hchecks k (hnchecks ▸ hk) d (List.mem_cons_of_mem c hdmem)
    refine ⟨m, ?_, ?_, hmchecks.trans hnchecks, hmindexes.trans hnindexes, ?_⟩
    · intro as
      have hfirst : (Action.addColumn c).exec now (some t) = some n := hn
      rw [List.map_cons, List.cons_append, run_runOn_cons hfirst, hm]
    · rw [hmcolumns, hncolumns, List.append_assoc, List.singleton_append]
    · intro r' hr'
      obtain ⟨q, hq, hvalues, hrest⟩ := hmrows r' hr'
      rw [hnrows] at hq
      obtain ⟨r, hr, rfl⟩ := List.mem_map.mp hq
      refine ⟨r, hr, List.forall_mem_cons.mpr ⟨?_, hvalues⟩, fun name hname => ?_⟩
      -- the later columns leave the default of this one
      · rw [hrest c.name hnodup.1, Function.update_self]
      · rw [List.map_cons, List.mem_cons, not_or] at hname
        rw [hrest name hname.2, Function.update_of_ne hname.1]

/-- A run drops its constraints and goes on. -/
theorem run_dropConstraints (names : List Str) :
    Runs.run (runOn now) (some t) (names.map Action.dropConstraint ++ as) =
      Runs.run (runOn now) (some (t.dropConstraints names)) as := by
  induction names generalizing t with
  | nil => rfl
  | cons n names ih =>
    have hfirst : (Action.dropConstraint n).exec now (some t) = some (t.dropConstraint n) := rfl
    rw [List.map_cons, List.cons_append, run_runOn_cons hfirst]
    exact ih

end Sql
