import EntitySql.Proofs.Client.Undoing
import EntitySql.Proofs.Database.ChangeReading
import EntitySql.Proofs.Database.CopyText
import EntitySql.Proofs.Database.Keeping
import EntitySql.Proofs.Migration.Copying
import EntitySql.Proofs.Migration.InPlace

/-!
# The rows of a table that is migrated

What becomes of the rows of a table when the statements of its plan have run. A table that is
altered in place has its rows throughout. A table that is rebuilt has none when it is created again:
they are in the table that was moved aside, and one statement copies them before that is dropped.

The statement names the columns that a new row is given a value for: those that both tables have,
and those that newly require one. Where there are none there is nothing to name, and the rebuild
leaves the statement out altogether. Then the rows are dropped with the old table
(`Rebuild.Forgets`).

## Main definitions

* `Connection.Preserves`: what a statement leaves of a table
* `Rebuild.Forgets`: a rebuild that copies no rows
* `Plan.Carries`: what becomes of the rows

## Main results

* `Connection.Ran.preserves`: statements that run one after the other
* `Plan.carries_of_ran`: the rows of a table behind its plan
-/

namespace EntitySql

open Reading

/-! ### What the statements of a change do -/

namespace Connection

variable {c c' : Connection} {o : Outcome}

/-- A text that is read as a statement performs it. -/
theorem exists_perform_of_read {sql : String} {command : Command}
    (hread : ∀ k, command?.run ⟨Token.ofText sql, k⟩ = .ok (some command, ⟨[], k⟩))
    (h : c.execute sql [] = (.ok o, c')) : ∃ b o', c.perform b command = .ok (c', o') := by
  obtain ⟨b, command, o', rfl, hperform⟩ := exists_perform_of_execute
    (P := (· = command)) (yields_of_run hread ⟨rfl, command, rfl, rfl⟩) h
  exact ⟨b, o', hperform⟩

theorem of_execute_dropTable {n : String}
    (h : c.execute (Dialect.sqlite.dropTable n) [] = (.ok o, c')) :
    c.database.dropTable true n = .ok c'.database := by
  obtain ⟨b, o', hperform⟩ := exists_perform_of_read (Dialect.read_dropTable n) h
  exact of_defined hperform

theorem of_execute_dropIndex {table n : String}
    (h : c.execute (Dialect.sqlite.dropIndex table n) [] = (.ok o, c')) :
    c.database.dropIndex true n = .ok c'.database := by
  obtain ⟨b, o', hperform⟩ := exists_perform_of_read (Dialect.read_dropIndex table n) h
  exact of_defined hperform

theorem of_execute_renameTable {table n : String}
    (h : c.execute (Dialect.sqlite.renameTable table n) [] = (.ok o, c')) :
    c.database.renameTable table n = .ok c'.database := by
  obtain ⟨b, o', hperform⟩ := exists_perform_of_read (Dialect.read_renameTable table n) h
  exact of_defined hperform

theorem exists_of_execute_dropColumn {table n : String}
    (h : c.execute (Dialect.sqlite.dropColumn table n) [] = (.ok o, c')) :
    ∃ written, c.database.dropColumn table n written = .ok c'.database := by
  obtain ⟨b, o', hperform⟩ := exists_perform_of_read (Dialect.read_dropColumn table n) h
  exact ⟨_, of_defined hperform⟩

theorem exists_of_execute_addColumn {table : String} {k : Column} (hk : k.Unbroken)
    (h : c.execute (Dialect.sqlite.addColumn table k) [] = (.ok o, c')) :
    ∃ b clause, c.database.addColumn b table clause = .ok c'.database := by
  obtain ⟨b, command, o', ⟨clause, rfl⟩, hperform⟩ :=
    exists_perform_of_execute (Dialect.yields_addColumn table hk) h
  exact ⟨b, clause, of_defined hperform⟩

theorem exists_of_execute_createTable {m : Model} (hm : ∀ k ∈ m.columns, k.Unbroken)
    (h : c.execute (Dialect.sqlite.createTable m) [] = (.ok o, c')) :
    ∃ clause, c.database.createTable clause = .ok c'.database ∧ clause.name = m.name ∧
      clause.ifMissing = false := by
  obtain ⟨b, command, o', ⟨clause, rfl, hclause⟩, hperform⟩ :=
    exists_perform_of_execute (Dialect.yields_defineTable hm) h
  exact ⟨clause, of_defined hperform, hclause⟩

theorem of_execute_createIndex {table : String} {i : Index} (hi : i.columns ≠ [])
    (h : c.execute (Dialect.sqlite.createIndex table i) [] = (.ok o, c')) :
    c.database.createIndex false false i.name table i.columns = .ok c'.database := by
  obtain ⟨b, command, o', rfl, hperform⟩ :=
    exists_perform_of_execute (yields_createIndex table hi) h
  exact of_defined hperform

/-! ### Statements that leave a table as it is -/

/-- Wherever the text runs, it leaves what is seen of the table of a name. -/
def Preserves {α : Type} (view : StoredTable → α) (name sql : String) : Prop :=
  ∀ (c c' : Connection) (o : Outcome), c.execute sql [] = (.ok o, c') →
    Database.Keeps view name c.database c'.database

section

variable {α : Type} {view : StoredTable → α} {name : String}

/-- **Texts that run one after the other** leave what each of them leaves. -/
theorem Ran.preserves {sqls : List String} (h : c.Ran sqls c')
    (hsqls : ∀ sql ∈ sqls, Preserves view name sql) :
    Database.Keeps view name c.database c'.database := by
  induction h with
  | nil => exact .refl
  | @cons c c₁ c₂ sql rest o hfirst _ ih =>
    exact (hsqls sql List.mem_cons_self _ _ _ hfirst).trans
      (ih fun s hs => hsqls s (List.mem_cons_of_mem sql hs))

theorem Ran.of_cons {sql : String} {rest : List String} (h : c.Ran (sql :: rest) c') :
    ∃ c₁ o, c.execute sql [] = (.ok o, c₁) ∧ c₁.Ran rest c' := by
  cases h with
  | cons hfirst hrest => exact ⟨_, _, hfirst, hrest⟩

/-- One statement alone. -/
theorem Ran.of_singleton {sql : String} (h : c.Ran [sql] c') :
    ∃ o, c.execute sql [] = (.ok o, c') := by
  obtain ⟨c₁, o, hfirst, hrest⟩ := h.of_cons
  cases hrest
  exact ⟨o, hfirst⟩

theorem Ran.of_append {xs ys : List String} (h : c.Ran (xs ++ ys) c') :
    ∃ c₁, c.Ran xs c₁ ∧ c₁.Ran ys c' := by
  induction xs generalizing c with
  | nil => exact ⟨c, .nil c, h⟩
  | cons x xs ih =>
    obtain ⟨c₁, o, hfirst, hrest⟩ := h.of_cons
    obtain ⟨c₂, hxs, hys⟩ := ih hrest
    exact ⟨c₂, .cons hfirst hxs, hys⟩

theorem preserves_dropTable {table : String} (hne : Text.sameName table name = false)
    (hsequence : Text.sameName Database.sequenceName name = false) :
    Preserves view name (Dialect.sqlite.dropTable table) :=
  fun _ _ _ h => Database.keeps_dropTable hne hsequence (of_execute_dropTable h)

theorem preserves_createTable {m : Model} (hm : ∀ k ∈ m.columns, k.Unbroken) :
    Preserves view name (Dialect.sqlite.createTable m) := by
  intro c c' o h
  obtain ⟨clause, hcreate, -⟩ := exists_of_execute_createTable hm h
  exact Database.keeps_createTable hcreate

end

variable {name : String}

theorem preserves_dropIndex (table n : String) :
    Preserves StoredTable.content name (Dialect.sqlite.dropIndex table n) :=
  fun _ _ _ h => Database.keeps_dropIndex (of_execute_dropIndex h)

theorem preserves_createIndex (table : String) {i : Index} (hi : i.columns ≠ []) :
    Preserves StoredTable.content name (Dialect.sqlite.createIndex table i) :=
  fun _ _ _ h => Database.keeps_createIndex (of_execute_createIndex hi h)

theorem preserves_addColumn {table : String} {k : Column} (hk : k.Unbroken) :
    Preserves StoredTable.numbers table (Dialect.sqlite.addColumn table k) := by
  intro c c' o h
  obtain ⟨b, clause, hadd⟩ := exists_of_execute_addColumn hk h
  exact Database.keeps_addColumn hadd

theorem preserves_dropColumn {table n : String} :
    Preserves StoredTable.numbers table (Dialect.sqlite.dropColumn table n) := by
  intro c c' o h
  obtain ⟨written, hdrop⟩ := exists_of_execute_dropColumn h
  exact Database.keeps_dropColumn hdrop

/-- A text that leaves the rows leaves their numbers. -/
theorem Preserves.numbers {sql : String} (h : Preserves StoredTable.content name sql) :
    Preserves StoredTable.numbers name sql :=
  fun c c' o hrun => (h c c' o hrun).numbers

end Connection

open Connection

/-! ### Tables that are altered in place -/

/-- **Every statement that alters a table in place** leaves its rows. -/
theorem Difference.preserves_inPlaceChanges {m : Model} (hm : m.Valid)
    (hcolumns : ∀ k ∈ m.columns, k.Unbroken) {live : LiveTable}
    (h : (diagnose .sqlite m live).IsPlain) :
    ∀ sql ∈ (diagnose .sqlite m live).inPlaceChanges.flatMap (Change.statements .sqlite),
      Preserves StoredTable.numbers m.name sql := by
  intro sql hsql
  obtain ⟨change, hchange, hsql⟩ := List.mem_flatMap.mp hsql
  simp only [inPlaceChanges, h.altered, h.uniques, List.map_nil, List.append_nil,
    List.mem_append (t := List.map _ _), List.mem_map] at hchange
  rcases hchange with ((⟨e, -, rfl⟩ | ⟨k, hk, rfl⟩) | ⟨i, -, rfl⟩) | ⟨i, hi, rfl⟩
  · obtain rfl := List.mem_singleton.mp hsql
    exact preserves_dropColumn
  · obtain rfl := List.mem_singleton.mp hsql
    exact preserves_addColumn (hcolumns k (mem_missing.mp hk).1)
  · obtain rfl := List.mem_singleton.mp hsql
    exact (preserves_dropIndex m.name i.name).numbers
  · obtain rfl := List.mem_singleton.mp hsql
    exact (preserves_createIndex m.name
      (hm.index_nonempty i (mem_createdIndexes.mp hi).1)).numbers

/-! ### Tables that are rebuilt -/

/-- A table that is created by its model has no rows, and its name is not reserved. All other tables
have theirs. -/
theorem Model.exists_created {m : Model} (hm : m.Valid) (hcolumns : ∀ k ∈ m.columns, k.Unbroken)
    {c c' : Connection} (h : c.Ran (m.creation.flatMap (Change.statements .sqlite)) c') :
    isReservedName m.name = false ∧
      (∃ fresh, c'.database.table? m.name = some fresh ∧ fresh.rows = []) ∧
      ∀ name, Database.Keeps StoredTable.content name c.database c'.database := by
  rw [m.statements_creation] at h
  obtain ⟨c₁, o, hcreate, hindexes⟩ := h.of_cons
  have hkeeps : ∀ name, Database.Keeps StoredTable.content name c₁.database c'.database := by
    refine fun name => hindexes.preserves fun sql hsql => ?_
    obtain ⟨i, hi, rfl⟩ := List.mem_map.mp hsql
    exact preserves_createIndex m.name (hm.index_nonempty i hi)
  obtain ⟨clause, hclause, hname, hmissing⟩ := exists_of_execute_createTable hcolumns hcreate
  obtain ⟨hreserved, empty, hempty, hrows⟩ := Database.exists_of_createTable hmissing hclause
  rw [hname] at hreserved hempty
  obtain ⟨fresh, hfresh, hcontent⟩ := hkeeps m.name empty hempty
  refine ⟨hreserved, ⟨fresh, hfresh, (congrArg Prod.snd hcontent).trans hrows⟩, fun name => ?_⟩
  exact (preserves_createTable hcolumns c c₁ o hcreate).trans (hkeeps name)

namespace Rebuild

variable {r : Rebuild} {c c' : Connection}

/-- The table that is moved aside has another name. -/
theorem sameName_scratch (r : Rebuild) : Text.sameName r.scratch r.table = false := by
  rw [Bool.eq_false_iff]
  intro h
  have hlength := congrArg List.length (Text.sameName_iff.mp h)
  simp [Text.foldCase, scratch, scratchStart] at hlength
  omega

/-- No column of the new table has one of the old table, and none requires a value that the
database does not number. -/
def Forgets (r : Rebuild) : Prop :=
  ∀ k ∈ r.model.columns, r.difference.live.column? k.name = none ∧
    (k.requiresValue = true → k.autoincrement = true)

/-- Then there is no column to copy into. -/
theorem cells_eq_nil_iff : r.cells = [] ↔ r.Forgets := by
  rw [cells, List.filterMap_eq_nil_iff]
  refine forall₂_congr fun k _ => ?_
  cases hold : r.difference.live.column? k.name with
  | none => simp [cell?, hold]
  | some old =>
    simp only [cell?, hold, reduceCtorEq, false_and, iff_false]
    split <;> simp

/-- **A table that is moved aside** has its rows under the name that it has meanwhile. -/
theorem exists_moved {rest : List String}
    (h : c.Ran (Dialect.sqlite.dropTable r.scratch :: "PRAGMA legacy_alter_table = ON" ::
      Dialect.sqlite.renameTable r.table r.scratch :: "PRAGMA legacy_alter_table = OFF" :: rest)
      c') :
    ∃ c₁ : Connection, c₁.Ran rest c' ∧ ∀ t, isReservedName r.table = false →
      c.database.table? r.table = some t → isReservedName r.scratch = false ∧
        ∃ old, c₁.database.table? r.scratch = some old ∧ old.content = t.content := by
  obtain ⟨c₁, o, hdrop, h⟩ := h.of_cons
  have hrest := h.tail
  rw [execute_turnOn] at hrest
  obtain ⟨c₂, o', hrename, hrest⟩ := hrest.of_cons
  have hmove := of_execute_renameTable hrename
  have hend := hrest.tail
  rw [execute_turnOff] at hend
  refine ⟨_, hend, fun t hreserved ht => ?_⟩
  have hsequence :=
    Database.sameName_of_isReservedName hreserved Database.isReservedName_sequenceName
  have hkeeps : Database.Keeps StoredTable.content r.table c.database c₁.database :=
    preserves_dropTable r.sameName_scratch hsequence c c₁ o hdrop
  obtain ⟨t₁, ht₁, hcontent⟩ := hkeeps t ht
  obtain ⟨hscratch, old, hold, hmoved⟩ := Database.exists_of_renameTable ht₁ hmove
  exact ⟨hscratch, old, hold, hmoved.trans hcontent⟩

/-- The source of each column is read as an expression. -/
theorem exists_copies_of_mem (hfills : ∀ k ∈ r.model.columns, k.FillsRow) :
    ∀ cell ∈ r.cells, ∃ x, cell.2.Copies x :=
  fun _ hcell => CopySource.exists_copies hfills (r.isOf_cells hcell)

/-- The statement that copies rows is an insertion from a query for the sources. -/
theorem exists_insert_of_execute (hne : r.cells ≠ []) {items : List (List Token × Phrase)}
    (hitems : List.Forall₂ (fun cell x => cell.2.Copies x) r.cells items) {o : Outcome}
    (h : c.execute (Dialect.sqlite.copyRows r.scratch r.table r.cells) [] = (.ok o, c')) :
    ∃ b count, c.database.insert b r.table (some (r.cells.map (·.1))) (.query (.listing
      (items.map fun x => (x.2, Token.written x.1)) r.scratch)) = .ok (c'.database, count) := by
  rw [execute_of_run (read_copyRows hne hitems r.scratch r.table)] at h
  split at h
  · cases (Prod.mk.inj h).1
  · next after answer hrun =>
    obtain ⟨-, rfl⟩ := Prod.mk.inj h
    exact ⟨_, of_wrote (perform_of_run hrun)⟩

/-- **The rows of the old table are copied** into the new one, which has none. -/
theorem exists_copied (hm : r.model.Valid) (hfills : ∀ k ∈ r.model.columns, k.FillsRow)
    (hne : r.cells ≠ []) {o : Outcome}
    (h : c.execute (Dialect.sqlite.copyRows r.scratch r.table r.cells) [] = (.ok o, c'))
    (hscratch : isReservedName r.scratch = false) (htable : isReservedName r.table = false)
    {old fresh : StoredTable} (hold : c.database.table? r.scratch = some old)
    (hfresh : c.database.table? r.table = some fresh) (hrows : fresh.rows = []) :
    ∃ b t' news, c'.database.table? r.table = some t' ∧ t'.rows.Perm news ∧
      List.Forall₂ (StoredRow.Receives r.cells old t' r.scratch b) old.rows news := by
  obtain ⟨items, hitems⟩ := Text.exists_forall₂ (exists_copies_of_mem hfills)
  obtain ⟨b, count, hinsert⟩ := exists_insert_of_execute hne hitems h
  obtain ⟨fresh', t', news, hfresh', ht', hperm, hnews⟩ := Database.exists_of_copy hold
    (Database.isCatalogName_of_isReservedName hscratch)
    (Database.sameName_of_isReservedName htable Database.isReservedName_sequenceName)
    (pairwise_cells hm) hitems hinsert
  obtain rfl : fresh = fresh' := Option.some.inj (hfresh.symm.trans hfresh')
  rw [hrows, List.nil_append] at hperm
  exact ⟨_, t', news, ht', hperm, hnews⟩

end Rebuild

/-! ### Plans -/

namespace Plan

/-- What becomes of the rows of a table behind a plan. -/
structure Carries (p : Plan) (t t' : StoredTable) : Prop where
  /-- A table that is not rebuilt has its rows under their numbers. -/
  kept : (∀ r, p ≠ .rebuild r) → t'.numbers = t.numbers
  /-- A table that is rebuilt has a row for each old row, with what it takes over from it. -/
  copied : ∀ r, p = .rebuild r → ¬ r.Forgets → ∃ news, t'.rows.Perm news ∧
    List.Forall₂ (StoredRow.TakesOver r.cells t t') t.rows news
  /-- It has no row if it has nothing to take over and nothing to fill. -/
  forgotten : ∀ r, p = .rebuild r → r.Forgets → t'.rows = []

variable {p : Plan} {r : Rebuild} {t t' : StoredTable}

/-- A table that is not rebuilt. -/
theorem carries_of_kept (hp : ∀ r, p ≠ .rebuild r) (h : t'.numbers = t.numbers) : p.Carries t t' :=
  ⟨fun _ => h, fun r hr => absurd hr (hp r), fun r hr => absurd hr (hp r)⟩

/-- A table that is rebuilt without its rows. -/
theorem carries_of_forgets (hforgets : r.Forgets) (h : t'.rows = []) :
    (rebuild r).Carries t t' := by
  refine ⟨fun hnone => absurd rfl (hnone r), fun r' hr hkept => ?_, fun _ _ _ => h⟩
  cases hr
  exact absurd hforgets hkept

/-- A table that is rebuilt with them. -/
theorem carries_of_copied (hforgets : ¬ r.Forgets) {news : List StoredRow}
    (hperm : t'.rows.Perm news)
    (hnews : List.Forall₂ (StoredRow.TakesOver r.cells t t') t.rows news) :
    (rebuild r).Carries t t' := by
  refine ⟨fun hnone => absurd rfl (hnone r), fun r' hr _ => ?_, fun r' hr hlost => ?_⟩
  · cases hr
    exact ⟨news, hperm, hnews⟩
  · cases hr
    exact absurd hlost hforgets

/-- The rows are as many as before unless they are forgotten. -/
theorem Carries.length_eq_iff (h : p.Carries t t') : t'.rows.length = t.rows.length ↔
    t.rows = [] ∨ ∀ r, p = .rebuild r → ¬ r.Forgets := by
  by_cases hlost : ∃ r, p = .rebuild r ∧ r.Forgets
  · obtain ⟨r, hr, hforgets⟩ := hlost
    have hnone : ¬ ∀ r, p = .rebuild r → ¬ r.Forgets := fun hall => hall r hr hforgets
    rw [h.forgotten r hr hforgets, or_iff_left hnone, List.length_nil, eq_comm,
      List.length_eq_zero_iff]
  · have hall : ∀ r, p = .rebuild r → ¬ r.Forgets := fun r hr hforgets => hlost ⟨r, hr, hforgets⟩
    refine iff_of_true ?_ (.inr hall)
    by_cases hrebuild : ∃ r, p = .rebuild r
    · obtain ⟨r, hr⟩ := hrebuild
      obtain ⟨news, hperm, hnews⟩ := h.copied r hr (hall r hr)
      rw [hperm.length_eq, hnews.length_eq]
    · have hkept := congrArg List.length (h.kept fun r hr => hrebuild ⟨r, hr⟩)
      simpa [StoredTable.numbers] using hkept

end Plan

namespace Rebuild

variable {r : Rebuild} {c c' : Connection}

/-- The statements of a rebuild behind those that move the table aside, stretch by stretch: the
indexes of the old table, the new table, its rows, and the old table. -/
theorem exists_ran_steps (h : c.Ran ((Plan.rebuild r).statements .sqlite) c') :
    ∃ c₁ c₂ c₃ c₄ : Connection,
      c₁.Ran ((r.difference.live.indexes.map fun i => .dropIndex r.scratch i.name).flatMap
        (Change.statements .sqlite)) c₂ ∧
      c₂.Ran (r.model.creation.flatMap (Change.statements .sqlite)) c₃ ∧
      c₃.Ran ((r.changes .copyData).flatMap (Change.statements .sqlite)) c₄ ∧
      c₄.Ran [Dialect.sqlite.dropTable r.scratch] c' ∧
      ∀ t, isReservedName r.table = false → c.database.table? r.table = some t →
        isReservedName r.scratch = false ∧
          ∃ old, c₁.database.table? r.scratch = some old ∧ old.content = t.content := by
  rw [r.statements_eq] at h
  obtain ⟨c₁, hrest, hmoved⟩ := exists_moved h
  simp only [afterwards, List.flatMap_append] at hrest
  obtain ⟨c₂, hindexes, hrest⟩ := hrest.of_append
  obtain ⟨c₃, hcreation, hrest⟩ := hrest.of_append
  obtain ⟨c₄, hcopy, hdrop⟩ := hrest.of_append
  exact ⟨c₁, c₂, c₃, c₄, hindexes, hcreation, hcopy, hdrop, hmoved⟩

/-- What there is when the rows are about to be copied: the old table with its rows under the name
that it has meanwhile, and the new one without any. Behind the copying the new table stays. -/
theorem exists_ran_copy (hm : r.model.Valid) (hcolumns : ∀ k ∈ r.model.columns, k.Unbroken)
    {t : StoredTable} (ht : c.database.table? r.table = some t)
    (h : c.Ran ((Plan.rebuild r).statements .sqlite) c') :
    ∃ (c₁ c₂ : Connection) (old fresh : StoredTable),
      c₁.Ran ((r.changes .copyData).flatMap (Change.statements .sqlite)) c₂ ∧
      (isReservedName r.scratch = false ∧ c₁.database.table? r.scratch = some old ∧
        old.content = t.content) ∧
      (isReservedName r.table = false ∧ c₁.database.table? r.table = some fresh ∧
        fresh.rows = []) ∧
      Database.Keeps StoredTable.content r.table c₂.database c'.database := by
  obtain ⟨c₁, c₂, c₃, c₄, hindexes, hcreation, hcopy, hdrop, hmoved⟩ := exists_ran_steps h
  obtain ⟨hreserved, ⟨fresh, hfresh, hrows⟩, hkeeps⟩ := Model.exists_created hm hcolumns hcreation
  obtain ⟨hscratch, moved, hmoved, hcontent⟩ := hmoved t hreserved ht
  have hdropped : Database.Keeps StoredTable.content r.scratch c₁.database c₂.database := by
    refine hindexes.preserves fun sql hsql => ?_
    obtain ⟨change, hchange, hsql⟩ := List.mem_flatMap.mp hsql
    obtain ⟨i, -, rfl⟩ := List.mem_map.mp hchange
    obtain rfl := List.mem_singleton.mp hsql
    exact preserves_dropIndex r.scratch i.name
  obtain ⟨old, hold, hsame⟩ := (hdropped.trans (hkeeps r.scratch)) moved hmoved
  refine ⟨c₃, c₄, old, fresh, hcopy, ⟨hscratch, hold, hsame.trans hcontent⟩,
    ⟨hreserved, hfresh, hrows⟩, hdrop.preserves fun sql hsql => ?_⟩
  obtain rfl := List.mem_singleton.mp hsql
  exact preserves_dropTable r.sameName_scratch
    (Database.sameName_of_isReservedName hreserved Database.isReservedName_sequenceName)

/-- **The rows of a table that is rebuilt** are those of the old one, with what they receive. -/
theorem exists_received (hm : r.model.Valid) (hfills : ∀ k ∈ r.model.columns, k.FillsRow)
    (hkept : ¬ r.Forgets) {t : StoredTable} (ht : c.database.table? r.table = some t)
    (h : c.Ran ((Plan.rebuild r).statements .sqlite) c') :
    ∃ b t' news, c'.database.table? r.table = some t' ∧ t'.rows.Perm news ∧
      List.Forall₂ (StoredRow.Receives r.cells t t' r.scratch b) t.rows news := by
  obtain ⟨c₁, c₂, old, fresh, hcopy, ⟨hscratch, hold, hsame⟩, ⟨hreserved, hfresh, hrows⟩, hlast⟩ :=
    exists_ran_copy hm (fun k hk => (hfills k hk).unbroken) ht h
  have hne : r.cells ≠ [] := fun hnil => hkept (cells_eq_nil_iff.mp hnil)
  rw [changes, if_neg (by simpa using hne)] at hcopy
  obtain ⟨o, hexecute⟩ := Ran.of_singleton hcopy
  obtain ⟨b, filled, news, hfilled, hperm, hnews⟩ :=
    exists_copied hm hfills hne hexecute hscratch hreserved hold hfresh hrows
  obtain ⟨t', ht', hcontent⟩ := hlast filled hfilled
  have hreceives : StoredRow.Receives r.cells old filled = StoredRow.Receives r.cells t t' :=
    StoredRow.receives_congr (congrArg Prod.fst hsame) (congrArg Prod.fst hcontent).symm
  have hold' : old.rows = t.rows := congrArg Prod.snd hsame
  have hfilled' : t'.rows = filled.rows := congrArg Prod.snd hcontent
  rw [hreceives, hold'] at hnews
  exact ⟨b, t', news, ht', hfilled' ▸ hperm, hnews⟩

/-- **What becomes of the rows of a table that is rebuilt.** -/
theorem exists_carried (hm : r.model.Valid) (hfills : ∀ k ∈ r.model.columns, k.FillsRow)
    {t : StoredTable} (ht : c.database.table? r.table = some t)
    (h : c.Ran ((Plan.rebuild r).statements .sqlite) c') :
    ∃ t', c'.database.table? r.table = some t' ∧ (Plan.rebuild r).Carries t t' := by
  by_cases hforgets : r.Forgets
  · obtain ⟨c₁, c₂, old, fresh, hcopy, -, ⟨-, hfresh, hrows⟩, hlast⟩ :=
      exists_ran_copy hm (fun k hk => (hfills k hk).unbroken) ht h
    rw [changes, if_pos (by simpa using cells_eq_nil_iff.mpr hforgets)] at hcopy
    cases hcopy
    obtain ⟨t', ht', hcontent⟩ := hlast fresh hfresh
    exact ⟨t', ht', Plan.carries_of_forgets hforgets ((congrArg Prod.snd hcontent).trans hrows)⟩
  · obtain ⟨b, t', news, ht', hperm, hnews⟩ := exists_received hm hfills hforgets ht h
    exact ⟨t', ht', Plan.carries_of_copied hforgets hperm
      (hnews.imp fun _ _ hnew => hnew.takesOver (exists_copies_of_mem hfills))⟩

end Rebuild

/-- When the statements of the plan of a table have run, whatever table they were planned for, each
row of the table is still there: in the table as it was altered, or as a row of the new table that
has what it takes over. Only a rebuild that has nothing to copy into leaves the table without rows,
and then all rows that there were are lost. -/
theorem Plan.carries_of_ran {m : Model} (hm : m.Valid) (hfills : ∀ k ∈ m.columns, k.FillsRow)
    (live : LiveTable) {c c' : Connection} {t : StoredTable}
    (ht : c.database.table? m.name = some t)
    (h : c.Ran ((planTable .sqlite m (some live)).statements .sqlite) c') :
    ∃ t', c'.database.table? m.name = some t' ∧
      (planTable .sqlite m (some live)).Carries t t' ∧
      (t'.rows.length = t.rows.length ↔
        t.rows = [] ∨ ∀ r, planTable .sqlite m (some live) = .rebuild r → ¬ r.Forgets) := by
  suffices hcarries : ∃ t', c'.database.table? m.name = some t' ∧
      (planTable .sqlite m (some live)).Carries t t' by
    obtain ⟨t', ht', hrows⟩ := hcarries
    exact ⟨t', ht', hrows, hrows.length_eq_iff⟩
  have hkept : ∀ {p : Plan}, (∀ r, p ≠ .rebuild r) →
      Database.Keeps StoredTable.numbers m.name c.database c'.database →
      ∃ t', c'.database.table? m.name = some t' ∧ p.Carries t t' := by
    intro p hp hkeeps
    obtain ⟨t', ht', hnumbers⟩ := hkeeps t ht
    exact ⟨t', ht', carries_of_kept hp hnumbers⟩
  have hcolumns : ∀ k ∈ m.columns, k.Unbroken := fun k hk => (hfills k hk).unbroken
  rcases planTable_cases m live with hplan | hplan | ⟨hplan, hplain⟩ <;>
    rw [hplan] at h ⊢
  · cases h
    exact hkept (by simp) .refl
  · exact Rebuild.exists_carried (r := ⟨m, .diagnose .sqlite m live⟩) hm hfills ht h
  · exact hkept (by simp) (h.preserves (Difference.preserves_inPlaceChanges hm hcolumns hplain))

/-- A table of texts is rebuilt for a model that has nothing but a numbered key. The row that it had
is gone. -/
theorem Plan.carries_of_ran_forgotten : ∃ (m : Model) (live : LiveTable) (c c' : Connection)
    (t t' : StoredTable), m.Valid ∧ (∀ k ∈ m.columns, k.FillsRow) ∧
      c.database.table? m.name = some t ∧
      c.Ran ((planTable .sqlite m (some live)).statements .sqlite) c' ∧
      c'.database.table? m.name = some t' ∧ t.rows.length = 1 ∧ t'.rows = [] := by
  obtain ⟨m, hm⟩ : ∃ m : Model, m = ⟨"t", .table,
      [{ field := "id", name := "id", type := .int64, primaryKey := true,
         autoincrement := true }], [], []⟩ := ⟨_, rfl⟩
  obtain ⟨live, hlive⟩ : ∃ live : LiveTable, live =
      ⟨"t", [⟨"a", "TEXT", false, false, false, false, none⟩], [], []⟩ := ⟨_, rfl⟩
  obtain ⟨c, hc⟩ : ∃ c : Connection, c = (({} : Connection).execute
      "CREATE TABLE t (a TEXT); INSERT INTO t (a) VALUES ('x')" []).2 := ⟨_, rfl⟩
  have hvalid : m.Valid := by
    subst hm
    constructor <;> simp
  have hfills : ∀ k ∈ m.columns, k.FillsRow := by
    subst hm
    simp [Column.FillsRow]
  obtain ⟨t, ht, hone⟩ : ∃ t, c.database.table? m.name = some t ∧ t.rows.length = 1 := by
    have hrows : (c.database.table? m.name).map (fun t => t.rows.length) = some 1 := by
      rw [hc, hm]
      decide +kernel
    exact Option.map_eq_some_iff.mp hrows
  have hplan : planTable .sqlite m (some live) = .rebuild ⟨m, .diagnose .sqlite m live⟩ := by
    rw [hm, hlive]
    decide +kernel
  have hforgets : Rebuild.Forgets ⟨m, .diagnose .sqlite m live⟩ := by
    rw [← Rebuild.cells_eq_nil_iff, hm, hlive]
    decide +kernel
  have hanswer : ((Session.executeAll ((planTable .sqlite m (some live)).statements .sqlite) :
      Session Unit (List Nat)).runOn { connection := c }).1.isOk = true := by
    rw [hc, hm, hlive]
    decide +kernel
  obtain ⟨counts, hcounts⟩ := exists_eq_ok hanswer
  obtain ⟨-, hran, -⟩ := Session.runOn_executeAll_ok hcounts
  obtain ⟨t', ht', hcarries, -⟩ := Plan.carries_of_ran hvalid hfills live ht hran
  exact ⟨m, live, c, _, t, t', hvalid, hfills, ht, hran, ht', hone,
    hcarries.forgotten _ hplan hforgets⟩

end EntitySql
