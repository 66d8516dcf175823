import EntitySql.Proofs.Catalog.Report
import EntitySql.Proofs.Client.Running
import EntitySql.Proofs.Migration.Agreement

/-!
# A table that a schema update creates

A schema update of a model of whose name nothing exists creates the table and its indexes. Each of
its statements is read back as what the model declares, so if none is refused the database has a
table that holds the model, and the report of that table is the model.

The defaults of the model must be defaults of their own, which every literal is. The report looks
for the word that numbers a key in the statement that created the table, so a name or a default with
the word in it makes the key count as numbered. Then a second update finds something to do.

## Main results

* `Database.has_of_ran_creation`: the statements that create a table and its indexes
* `Model.runOn_updateSchema_nothing_iff`: when a schema update has nothing to execute
* `Model.updateSchema_reports`: what a first update creates is reported as the model, and when a
  second update does nothing
-/

namespace EntitySql

open Reading

/-! ### The statements that create a table and its indexes -/

namespace Database

variable {m : Model}

/-- The statements that create indexes add them to the table. -/
theorem has_of_ran_indexes (hm : m.Valid) {is : List Index} (his : ∀ i ∈ is, i ∈ m.indexes)
    {c c' : Connection} (h : c.Ran (is.map (Dialect.sqlite.createIndex m.name)) c')
    {t : StoredTable} {created : List Index} (ht : t.Holds m created) (hdb : c.database.Has t) :
    ∃ t', t'.Holds m (created ++ is) ∧ c'.database.Has t' := by
  induction is generalizing c t created with
  | nil =>
    cases h
    exact ⟨t, by simpa using ht, hdb⟩
  | cons i is ih =>
    rw [List.map_cons] at h
    cases h with
    | cons hfirst hrest =>
      have hi := his i List.mem_cons_self
      obtain ⟨b, command, o, rfl, hperform⟩ := Connection.exists_perform_of_execute
        (yields_createIndex m.name (hm.index_nonempty i hi)) hfirst
      obtain ⟨db, hcreate, hafter⟩ := exists_of_map_eq_ok hperform
      rw [← ht.name] at hcreate
      obtain ⟨hnew, spelled, hspelled, hhas⟩ := has_createIndex hdb hcreate
      rw [StoredTable.spell_eq hm ht.columns (hm.index_columns i hi)] at hspelled
      obtain rfl := Except.ok.inj hspelled
      obtain rfl : { c with database := db } = _ := (Prod.mk.inj hafter).1
      obtain ⟨t', ht', hdb'⟩ := ih (fun j hj => his j (List.mem_cons_of_mem i hj)) hrest
        (ht.createIndex hnew) hhas
      exact ⟨t', by simpa using ht', hdb'⟩

/-- **The statements that create a table and its indexes** leave a table that holds the model. -/
theorem has_of_ran_creation (hm : m.Valid)
    (hdefaults : ∀ c ∈ m.columns, ∀ declared, c.default = some declared →
      Default.StandsAlone declared.literal)
    {c c' : Connection} (h : c.Ran (m.creation.flatMap (Change.statements .sqlite)) c') :
    ∃ t, t.Holds m m.indexes ∧ c'.database.Has t := by
  rw [m.statements_creation] at h
  cases h with
  | cons hfirst hrest =>
    obtain ⟨b, command, o, ⟨clause, rfl, hclause⟩, hperform⟩ :=
      Connection.exists_perform_of_execute (yields_createTable hm hdefaults) hfirst
    obtain ⟨db, hcreate, hafter⟩ := exists_of_map_eq_ok hperform
    obtain ⟨t, hclause', hhas⟩ := has_createTable hclause.ifMissing hcreate
    have ht := StoredTable.holds_of_ofClause hm hclause hclause'
    obtain rfl : { c with database := db } = _ := (Prod.mk.inj hafter).1
    exact has_of_ran_indexes hm (fun i hi => hi) hrest ht (hhas (ht.name.trans hclause.name.symm))

/-- A table without indexes is created by one statement. -/
theorem has_of_created (hm : m.Valid)
    (hdefaults : ∀ k ∈ m.columns, ∀ declared, k.default = some declared →
      Default.StandsAlone declared.literal) (hindexes : m.indexes = []) {c : Connection}
    (h : (c.execute (Dialect.sqlite.createTable m) []).1.isOk = true) :
    ∃ t, t.Holds m m.indexes ∧ (c.execute (Dialect.sqlite.createTable m) []).2.database.Has t := by
  obtain ⟨out, hout⟩ := exists_eq_ok h
  have hran : c.Ran (Dialect.sqlite.createTable m :: []) _ := .cons hout (.nil _)
  refine has_of_ran_creation hm hdefaults (c := c) ?_
  rwa [m.statements_creation, hindexes]

end Database

/-! ### Schema updates -/

namespace Model

variable {Key : Type} {m : Model} {c c' : Client Key}

/-- The keys that count as numbered are those of the model, if the word for numbering stands for
nothing else. -/
theorem Valid.numbered_iff (hm : m.Valid) :
    (∀ k ∈ m.columns, (k.primaryKey && m.mentionsNumbering) = k.autoincrement) ↔
      ∀ k ∈ m.columns, k.primaryKey = true → m.mentionsNumbering = true →
        k.autoincrement = true := by
  refine forall₂_congr fun k hk => ?_
  cases hkey : k.primaryKey with
  | false =>
    cases hauto : k.autoincrement with
    | false => simp
    | true => simp [hm.key_of_autoincrement k hk hauto] at hkey
  | true =>
    rw [Bool.true_and, Bool.eq_iff_iff]
    exact ⟨fun h _ => h.mp, fun h => ⟨h rfl, m.mentionsNumbering_of_autoincrement hk hkey⟩⟩

/-- A schema update that creates a table leaves one that holds the model. -/
theorem exists_holds_of_updateSchema (hm : m.Valid) (htable : m.isView = false)
    (hdefaults : ∀ k ∈ m.columns, ∀ sql, k.default = some (.expression sql) →
      Default.StandsAlone sql)
    (hfree : c.connection.database.liveObject? m.name = .ok none) {r : SchemaUpdate}
    (h : (m.updateSchema : Session Key SchemaUpdate).runOn c = (.ok r, c')) :
    ∃ t : StoredTable, t.Holds m m.indexes ∧
      c'.connection.database.liveObject? m.name = .ok (some (.table t.live)) := by
  obtain ⟨-, hplan, -, connection, hran, rfl⟩ := runOn_updateSchema_ok h
  have hcreate : r.plan = .createTable m := by
    simp only [planFor, hfree, planUpdate, htable] at hplan
    exact (Except.ok.inj hplan).symm
  rw [hcreate] at hran
  obtain ⟨t, ht, hdb⟩ := Database.has_of_ran_creation hm (fun k hk declared hdefault =>
    Default.standsAlone_literal fun sql hsql => hdefaults k hk sql (hsql ▸ hdefault)) hran
  refine ⟨t, ht, ?_⟩
  rw [← ht.name, Database.liveObject?, Connection.commit, hdb.find?]

/-- A schema update executes nothing exactly if the table agrees with its model. -/
theorem runOn_updateSchema_nothing_iff (htable : m.isView = false) {t : LiveTable}
    (hfree : c.connection.saved = none)
    (hlive : c.connection.database.liveObject? m.name = .ok (some (.table t))) :
    (∃ r, (m.updateSchema : Session Key SchemaUpdate).runOn c = (.ok r, c) ∧ r.executed = 0) ↔
      Difference.Agrees .sqlite m t := by
  have hplan : m.planFor c.connection.database = .ok (planTable .sqlite m (some t)) := by
    simp only [planFor, hlive, planUpdate, htable]
  constructor
  · rintro ⟨r, hrun, hexecuted⟩
    obtain ⟨-, hr, hcount, -⟩ := runOn_updateSchema_ok hrun
    have hsame : planTable .sqlite m (some t) = r.plan := Except.ok.inj (hplan.symm.trans hr)
    refine Difference.agrees_of_planTable_eq_noOp
      (Difference.planTable_eq_noOp_of_statements (by simp [Dialect.shipped]) ?_)
    rw [hexecuted, ← hsame] at hcount
    exact List.length_eq_zero_iff.mp hcount.symm
  · intro hagrees
    have hconnection : c.connection.begin.commit = c.connection := by
      simp only [Connection.begin, Connection.commit, ← hfree]
    refine ⟨⟨m.name, .noOp, 0⟩, ?_, rfl⟩
    rw [runOn_updateSchema, hplan, Difference.planTable_of_agrees hagrees, hfree]
    simp [Plan.statements, Plan.changes, Session.executeAll, hconnection]

/-- **A table that a schema update creates is reported as its model**, with the key numbered if the
statement that created it has the word for numbering. A second update does nothing exactly if that
is right. -/
theorem updateSchema_reports {mapping : Mapping} (hbuild : Model.build mapping = .ok m)
    (htable : m.isView = false)
    (hdefaults : ∀ k ∈ m.columns, ∀ sql, k.default = some (.expression sql) →
      Default.StandsAlone sql)
    (hfree : c.connection.database.liveObject? m.name = .ok none) {r : SchemaUpdate}
    (h : (m.updateSchema : Session Key SchemaUpdate).runOn c = (.ok r, c')) :
    ∃ t : LiveTable, c'.connection.database.liveObject? m.name = .ok (some (.table t)) ∧
      (t.Reports m fun k => k.primaryKey && m.mentionsNumbering) ∧
      ((∃ again, (m.updateSchema : Session Key SchemaUpdate).runOn c' = (.ok again, c') ∧
          again.executed = 0) ↔
        ∀ k ∈ m.columns, k.primaryKey = true → m.mentionsNumbering = true →
          k.autoincrement = true) := by
  have hm := Model.valid_of_build hbuild
  obtain ⟨t, ht, hlive⟩ := exists_holds_of_updateSchema hm htable hdefaults hfree h
  have hreports := ht.reports hm
  obtain ⟨-, -, -, connection, -, rfl⟩ := runOn_updateSchema_ok h
  refine ⟨t.live, hlive, hreports, ?_⟩
  rw [runOn_updateSchema_nothing_iff htable rfl hlive, hreports.agrees_iff hm ht.distinct]
  exact hm.numbered_iff

/-- A second update of a table with a numbered key does nothing. One of a table with a column whose
name is the word for numbering does, although it has just been created. -/
theorem updateSchema_reports_misled :
    (∃ (r : SchemaUpdate) (c' : Client Unit),
      (updateSchema ⟨"t", .table,
          [{ field := "id", name := "id", type := .int64, primaryKey := true,
             autoincrement := true }], [], []⟩).runOn {} = (.ok r, c') ∧
        ∃ again : SchemaUpdate, (updateSchema ⟨"t", .table,
          [{ field := "id", name := "id", type := .int64, primaryKey := true,
             autoincrement := true }], [], []⟩).runOn c' = (.ok again, c') ∧ again.executed = 0) ∧
    ∃ (r : SchemaUpdate) (c' : Client Unit),
      (updateSchema ⟨"t", .table,
          [{ field := "id", name := "id", type := .int64, primaryKey := true },
            { field := "a", name := "autoincrement", type := .bool }], [], []⟩).runOn {} =
          (.ok r, c') ∧
        ¬ ∃ again : SchemaUpdate, (updateSchema ⟨"t", .table,
          [{ field := "id", name := "id", type := .int64, primaryKey := true },
            { field := "a", name := "autoincrement", type := .bool }], [], []⟩).runOn c' =
            (.ok again, c') ∧ again.executed = 0 := by
  have hnumbered : Model.build
      { name := "t"
        fields := [{ name := "id", spelling := "i64", column := some "id", primaryKey := true,
                     autoincrement := true, notNull := some false }] } =
      .ok ⟨"t", .table,
        [{ field := "id", name := "id", type := .int64, primaryKey := true,
           autoincrement := true }], [], []⟩ := rfl
  have hmisled : Model.build
      { name := "t"
        fields := [{ name := "id", spelling := "i64", column := some "id", primaryKey := true,
                     notNull := some false },
          { name := "a", spelling := "bool", column := some "autoincrement",
            notNull := some false }] } =
      .ok ⟨"t", .table,
        [{ field := "id", name := "id", type := .int64, primaryKey := true },
          { field := "a", name := "autoincrement", type := .bool }], [], []⟩ := rfl
  have hok : ∀ {mapping m}, build mapping = .ok m →
      ((m.updateSchema : Session Unit SchemaUpdate).runOn {}).1.isOk = true →
      ∃ r c', (m.updateSchema : Session Unit SchemaUpdate).runOn {} = (.ok r, c') := by
    intro _ m _ h
    rcases hrun : (m.updateSchema : Session Unit SchemaUpdate).runOn {} with ⟨e | r, c'⟩
    · simp [hrun, Except.isOk, Except.toBool] at h
    · exact ⟨r, c', rfl⟩
  constructor
  · obtain ⟨r, c', hrun⟩ := hok hnumbered (by decide +kernel)
    obtain ⟨t, -, -, hiff⟩ := updateSchema_reports hnumbered rfl (by simp) rfl hrun
    exact ⟨r, c', hrun, hiff.mpr (by simp)⟩
  · obtain ⟨r, c', hrun⟩ := hok hmisled (by decide +kernel)
    obtain ⟨t, -, -, hiff⟩ := updateSchema_reports hmisled rfl (by simp) rfl hrun
    refine ⟨r, c', hrun, fun hagain => ?_⟩
    have hauto := hiff.mp hagain _ List.mem_cons_self rfl (by decide +kernel)
    exact absurd hauto (by decide)

end Model

end EntitySql
