import EntitySql.Proofs.Catalog.Likeness
import EntitySql.Proofs.Client.FreeNames
import EntitySql.Proofs.Client.RoundTrip

/-!
# What the statements of a plan do

What a plan leads to is said of changes: each has an effect on the report of the table that it is
about (`Change.effect`), and a plan of alterations is legal if each of its changes is so as the
report stands by then. The database knows nothing of changes. It is given the texts of their
statements, and reads and runs them.

Here the two meet. If a database reports a table as a change expects it, and the texts of the change
have run, then it reports the table as the effect of the change says. From that follows the same of
the changes of a plan, one after the other, and of the plan. Statements that have run were refused
by nothing, so a change that the database is less willing to make than its effect is defined makes
no difference here.

The report is compared up to the order and spelling of indexes, the texts of defaults and the
numbering of the key (`LiveTable.Alike`).

## Main definitions

* `Database.Reports`: a table is reported like an expected one

## Main results

* `Change.IsLegal.reports`: a legal change has the effect that it should have
* `Change.Runs.reports`: so have the changes of a run
* `Plan.reports_of_ran`: what is reported behind the statements of a plan
* `Model.updateSchema_again_iff`: when a second schema update has nothing left to do
-/

namespace EntitySql

open Database Connection

/-! ### Databases -/

namespace Database

/-- The table of the name is reported like the expected one. -/
def Reports (db : Database) (name : String) (expected : LiveTable) : Prop :=
  ∃ t, db.table? name = some t ∧ t.live.Alike expected

variable {db db' : Database} {table : String} {expected : LiveTable}

theorem Has.reports {t : StoredTable} (h : db.Has t) (hlive : t.live.Alike expected) :
    db.Reports t.name expected :=
  ⟨t, h.table?, hlive⟩

theorem Reports.of_keeps (h : db.Reports table expected)
    (hkeeps : Keeps StoredTable.live table db db') : db'.Reports table expected := by
  obtain ⟨t, ht, hlive⟩ := h
  obtain ⟨t', ht', hsame⟩ := hkeeps t ht
  exact ⟨t', ht', hsame ▸ hlive⟩

/-- The table is put in the place of another one. -/
theorem reports_replace {t changed : StoredTable} (ht : db.table? table = some t)
    (hname : changed.name = t.name) (hlive : changed.live.Alike expected) :
    (db.changeTable table fun _ => changed).Reports table expected := by
  have hsame : Text.sameName changed.name table = true := by
    rw [hname]
    exact (of_table? ht).2
  exact ⟨changed, table?_changeTable ht hsame, hlive⟩

theorem Reports.addColumn (h : db.Reports table expected) (hdb : db.Shaped) {b : Bindings}
    {clause : ColumnClause} {k : Column} (hclause : clause.Declares k)
    (hadd : db.addColumn b table clause = .ok db') :
    db'.Reports table (expected.addColumn (k.image .sqlite)) := by
  obtain ⟨t, ht, hlive⟩ := h
  obtain ⟨u, changed, hu, -, hchanged, rfl⟩ := addColumn_cases hadd
  obtain rfl : t = u := Option.some.inj (ht.symm.trans hu)
  have halike := StoredTable.alike_addColumn (hdb.of_table? ht) hclause hchanged
  exact reports_replace ht (StoredTable.indexes_addColumn hchanged).1
    (halike.trans (hlive.addColumn _))

theorem Reports.dropColumn (h : db.Reports table expected) (hdb : db.Shaped)
    {name written : String} (hdrop : db.dropColumn table name written = .ok db') :
    db'.Reports table (expected.dropColumn name) := by
  obtain ⟨t, ht, hlive⟩ := h
  obtain ⟨u, changed, hu, -, hchanged, hindexes, rfl⟩ := dropColumn_cases hdrop
  obtain rfl : t = u := Option.some.inj (ht.symm.trans hu)
  have halike := StoredTable.alike_dropColumn (hdb.of_table? ht) hchanged hindexes
  exact reports_replace ht (StoredTable.indexes_dropColumn hchanged).1
    (halike.trans (hlive.dropColumn name))

theorem Reports.createIndex (h : db.Reports table expected) {i : Index}
    (hcreate : db.createIndex false false i.name table i.columns = .ok db') :
    db'.Reports table (expected.addIndex i) := by
  obtain ⟨t, ht, hlive⟩ := h
  obtain ⟨u, hu, -, -, ⟨hmissing, -⟩ | ⟨-, spelled, hspelled, rfl⟩⟩ := createIndex_cases hcreate
  · cases hmissing
  obtain rfl : t = u := Option.some.inj (ht.symm.trans hu)
  exact ⟨_, table?_changeTable ht (of_table? ht).2,
    (StoredTable.alike_createIndex hspelled).trans (hlive.addIndex i)⟩

/-- An index that is reported is the only one of its name, so nothing that enforces a constraint
is dropped with it. -/
theorem Shaped.unique_eq_false (hdb : db.Shaped) {t : StoredTable} (ht : t ∈ db.tables)
    {name : String} (hlisted : ∃ i ∈ t.live.indexes, Text.sameName i.name name = true) :
    ∀ i ∈ t.indexes, Text.sameName i.name name = true → i.unique = false := by
  obtain ⟨j, hj, hname⟩ := hlisted
  obtain ⟨k, hk, hplain, -, rfl⟩ := StoredTable.mem_indexes_live.mp hj
  have horigin : k.origin = .statement := by
    by_contra hother
    rw [(hdb.tables t ht).unique k hk hother] at hplain
    cases hplain
  have hfree : isReservedName name = false := by
    have hown := (hdb.tables t ht).free k hk horigin
    rwa [isReservedName, Text.sameName_iff.mp hname, ← isReservedName] at hown
  intro i hi hsame
  by_contra hunique
  rw [Bool.not_eq_false] at hunique
  have hnone := ((hdb.named.unique_iff ht hfree).mpr ⟨i, hi, hunique, hsame⟩).2 _ hj
  rw [hname] at hnone
  cases hnone

theorem Reports.dropIndex (h : db.Reports table expected) (hdb : db.Shaped) {name : String}
    (hlisted : ∃ i ∈ expected.indexes, Text.sameName i.name name = true)
    (hdrop : db.dropIndex true name = .ok db') :
    db'.Reports table (expected.dropIndex name) := by
  obtain ⟨t, ht, hlive⟩ := h
  have hmem := (of_table? ht).1
  have hreported : ∃ i ∈ t.live.indexes, Text.sameName i.name name = true := by
    obtain ⟨i, hi, hname⟩ := hlisted
    obtain ⟨j, hj, hmatches⟩ := hlive.indexes.exists_left hi
    exact ⟨j, hj, Text.sameName_trans hmatches.name hname⟩
  obtain ⟨hnone, -, -⟩ | ⟨i, -, -, rfl⟩ := dropIndex_cases hdrop
  · obtain ⟨j, hj, hname⟩ := hreported
    obtain ⟨k, hk, -, -, rfl⟩ := StoredTable.mem_indexes_live.mp hj
    exact absurd hname (List.find?_eq_none.mp hnone k (List.mem_flatMap.mpr ⟨t, hmem, hk⟩))
  · refine ⟨_, ?_, (StoredTable.alike_dropIndex (hdb.unique_eq_false hmem hreported)).trans
      (hlive.dropIndex name)⟩
    rw [table?, List.find?_map]
    exact congrArg (Option.map _) ht

end Database

/-! ### Connections -/

namespace Connection

variable {c c' : Connection} {o : Outcome}

theorem Ran.shaped {sqls : List String} (h : c.Ran sqls c') (hc : c.database.Shaped) :
    c'.database.Shaped := by
  induction h with
  | nil => exact hc
  | @cons c c₁ c₂ sql rest o hfirst _ ih =>
    have hshaped := shaped_execute hc sql []
    rw [hfirst] at hshaped
    exact ih hshaped

theorem exists_of_execute_addColumn_declares {table : String} {k : Column}
    (hk : ∀ sql, k.default ≠ some (.expression sql))
    (h : c.execute (Dialect.sqlite.addColumn table k) [] = (.ok o, c')) :
    ∃ b clause, clause.Declares (Dialect.sqlite.withFill k) ∧
      c.database.addColumn b table clause = .ok c'.database := by
  obtain ⟨b, command, o', ⟨clause, rfl, hclause⟩, hperform⟩ :=
    exists_perform_of_execute (Dialect.yields_addColumn_declares table hk) h
  exact ⟨b, clause, hclause, of_defined hperform⟩

end Connection

/-! ### Changes in place -/

namespace Change

variable {m : Model} {live now now' : LiveTable} {c c' : Connection}

/-- **A legal change has the effect that it should have**, if its statement has run. -/
theorem IsLegal.reports {change : Change} (h : change.IsLegal m live now) (hm : m.Valid)
    (heffect : change.effect .sqlite m.name (some now) = some now') (hc : c.database.Shaped)
    (hnow : c.database.Reports m.name now) (hran : c.Ran (change.statements .sqlite) c') :
    c'.database.Reports m.name now' := by
  have hsubject : change.subject = m.name := by cases h <;> rfl
  rw [effect_of_subject hsubject] at heffect
  cases h with
  | dropColumn =>
    obtain rfl := Option.some.inj heffect
    obtain ⟨o, hexecute⟩ := hran.of_singleton
    obtain ⟨written, hdrop⟩ := exists_of_execute_dropColumn hexecute
    exact hnow.dropColumn hc hdrop
  | addColumn addable =>
    obtain rfl := Option.some.inj heffect
    obtain ⟨o, hexecute⟩ := hran.of_singleton
    obtain ⟨b, clause, hclause, hadd⟩ :=
      exists_of_execute_addColumn_declares addable.default hexecute
    exact hnow.addColumn hc hclause hadd
  | dropIndex present =>
    obtain rfl := Option.some.inj heffect
    obtain ⟨o, hexecute⟩ := hran.of_singleton
    exact hnow.dropIndex hc present (of_execute_dropIndex hexecute)
  | createIndex declared =>
    obtain rfl := Option.some.inj heffect
    obtain ⟨o, hexecute⟩ := hran.of_singleton
    exact hnow.createIndex (of_execute_createIndex (hm.index_nonempty _ declared) hexecute)

/-- **So have changes that follow each other.** -/
theorem Runs.reports {changes : List Change} (h : Runs m live now changes now') (hm : m.Valid)
    (hc : c.database.Shaped) (hnow : c.database.Reports m.name now)
    (hran : c.Ran (changes.flatMap (Change.statements .sqlite)) c') :
    c'.database.Reports m.name now' := by
  induction h generalizing c with
  | nil =>
    cases hran
    exact hnow
  | cons legal step _ ih =>
    rw [List.flatMap_cons] at hran
    obtain ⟨c₁, hfirst, hrest⟩ := hran.of_append
    exact ih (hfirst.shaped hc) (legal.reports hm step hc hnow hfirst) hrest

end Change

/-! ### Names in reports -/

namespace StoredTable

variable {t : StoredTable}

theorem Shaped.pairwise_columns_live (h : t.Shaped) :
    t.live.columns.Pairwise fun a b => Text.sameName a.name b.name = false :=
  List.pairwise_map.mpr h.distinct

/-- The indexes that are reported have names of their own, because statements have created them. -/
theorem Shaped.pairwise_indexes_live (h : t.Shaped)
    (hwritten : t.written.Pairwise fun i j => Text.sameName i.name j.name = false) :
    t.live.indexes.Pairwise fun i j => Text.sameName i.name j.name = false := by
  have hplain : (t.reportedIndexes.filter (!·.unique)).filter (·.origin = .statement) =
      t.reportedIndexes.filter (!·.unique) := by
    refine List.filter_eq_self.mpr fun i hi => ?_
    obtain ⟨hi, hunique⟩ := List.mem_filter.mp hi
    by_contra hother
    rw [h.unique i (List.mem_filter.mp hi).1 (by simpa using hother)] at hunique
    cases hunique
  have hcomm : (t.reportedIndexes.filter (!·.unique)).filter (·.origin = .statement) =
      (t.written.filter (·.origin != .key)).filter (!·.unique) := by
    rw [List.filter_comm]
    exact congrArg (List.filter _) (List.filter_comm ..)
  have hreported : (t.reportedIndexes.filter (!·.unique)).Pairwise
      fun i j => Text.sameName i.name j.name = false := by
    rw [← hplain, hcomm]
    exact (hwritten.filter _).filter _
  refine ((List.mergeSort_perm _ _).pairwise_iff fun hij => ?_).mpr
    (List.pairwise_map.mpr hreported)
  rwa [Text.sameName_comm]

end StoredTable

/-! ### Plans -/

section

variable {m : Model} (hm : m.Valid)
  (hdefaults : ∀ k ∈ m.columns, ∀ sql, k.default = some (.expression sql) →
    Default.StandsAlone sql)
  {c c' : Connection}

include hm hdefaults

/-- **A table that is created with its indexes** is reported like its model. -/
theorem Model.reports_of_ran_creation
    (h : c.Ran (m.creation.flatMap (Change.statements .sqlite)) c') :
    c'.database.Reports m.name (m.image .sqlite) := by
  obtain ⟨t, ht, hhas⟩ := has_of_ran_creation hm (fun k hk declared hdefault =>
    Default.standsAlone_literal fun sql hsql => hdefaults k hk sql (hsql ▸ hdefault)) h
  exact ht.name ▸ hhas.reports (ht.alike hm)

variable (hfills : ∀ k ∈ m.columns, k.FillsRow)

include hfills

/-- **So is one that is rebuilt.** The rows are copied into it, and the old table is dropped, but
both leave its columns and indexes. -/
theorem Rebuild.reports_of_ran (x : Difference)
    (h : c.Ran ((Plan.rebuild ⟨m, x⟩).statements .sqlite) c') :
    c'.database.Reports m.name (m.image .sqlite) := by
  obtain ⟨c₁, c₂, c₃, c₄, -, hcreation, hcopy, hdrop, -⟩ := exists_ran_steps h
  obtain ⟨hreserved, -, -⟩ :=
    Model.exists_created hm (fun k hk => (hfills k hk).unbroken) hcreation
  have hsequence := sameName_of_isReservedName hreserved isReservedName_sequenceName
  have hcopied : Keeps StoredTable.live m.name c₃.database c₄.database := by
    rw [changes] at hcopy
    split at hcopy
    · cases hcopy
      exact .refl
    · next hcells =>
      obtain ⟨o, hexecute⟩ := Ran.of_singleton hcopy
      obtain ⟨items, hitems⟩ := Text.exists_forall₂ (exists_copies_of_mem (r := ⟨m, x⟩) hfills)
      obtain ⟨b, count, hinsert⟩ :=
        exists_insert_of_execute (by simpa using hcells) hitems hexecute
      exact keeps_insert (fun _ _ => rfl) hsequence hinsert
  have hdropped : Keeps StoredTable.live m.name c₄.database c'.database := by
    obtain ⟨o, hexecute⟩ := hdrop.of_singleton
    exact preserves_dropTable (sameName_scratch ⟨m, x⟩) hsequence c₄ c' o hexecute
  exact ((Model.reports_of_ran_creation hm hdefaults hcreation).of_keeps hcopied).of_keeps hdropped

variable (hindexes : m.indexes.Pairwise fun i j => Text.sameName i.name j.name = false)

include hindexes

/-- **Behind the statements of a plan the table is reported as the plan expects it.** The plan may
be that of a table that was not found: then the statements do not run if there is one whose name
differs in case. -/
theorem Plan.reports_of_ran (hc : c.database.Shaped) {before : Option LiveTable}
    (hbefore : ∀ live ∈ before, ∃ t ∈ c.database.tables, t.name = m.name ∧ t.live = live)
    (h : c.Ran ((planTable .sqlite m before).statements .sqlite) c') :
    ∃ after, (planTable .sqlite m before).outcome .sqlite m.name before = some after ∧
      after.name = m.name ∧ c'.database.Reports m.name after := by
  cases before with
  | none => exact ⟨_, foldl_creation m none, rfl, Model.reports_of_ran_creation hm hdefaults h⟩
  | some live =>
    obtain ⟨t, ht, hname, rfl⟩ := hbefore live rfl
    have hfound : c.database.table? m.name = some t :=
      hc.named.table?_eq ht (hname ▸ Text.sameName_refl t.name)
    have hnow : c.database.Reports m.name t.live := ⟨t, hfound, .refl _⟩
    rcases planTable_cases m t.live with hplan | hplan | ⟨hplan, hplain⟩ <;> rw [hplan] at h ⊢
    · cases h
      exact ⟨_, rfl, hname, hnow⟩
    · have hrebuilt := Rebuild.reports_of_ran hm hdefaults hfills _ h
      exact ⟨_, outcome_rebuild ⟨m, .diagnose .sqlite m t.live⟩ (some t.live), rfl, hrebuilt⟩
    · have hwritten := (List.pairwise_flatMap.mp hc.named.written).1 t ht
      have hshaped := hc.tables t ht
      obtain ⟨after, hruns⟩ := Difference.runs_inPlaceChanges hm hindexes
        hshaped.pairwise_columns_live (hshaped.pairwise_indexes_live hwritten) hplain
      have hafter := Difference.foldl_inPlaceChanges (d := .sqlite)
        (x := .diagnose .sqlite m t.live) (by simp [hplain.altered]) t.live
      obtain rfl : after = _ := Option.some.inj (hruns.foldl_eq.symm.trans hafter)
      exact ⟨_, hafter, hname, hruns.reports hm hc hnow h⟩

end

/-! ### Schema updates -/

/-- A table is found by its exact name. -/
theorem Database.Named.find?_eq {db : Database} (h : db.Named) {t : StoredTable}
    (ht : t ∈ db.tables) : db.tables.find? (·.name == t.name) = some t := by
  cases hfind : db.tables.find? (·.name == t.name) with
  | none => exact absurd (beq_self_eq_true t.name) (List.find?_eq_none.mp hfind t ht)
  | some u =>
    have hname : u.name = t.name := by simpa using List.find?_some hfind
    rw [Text.eq_of_sameName_of_pairwise h.tables (List.mem_of_find?_eq_some hfind) ht
      (hname ▸ Text.sameName_refl u.name)]

namespace Model

variable {m : Model}

/-- The plan of a schema update is made of the report of the table, if one is found. -/
theorem exists_of_planFor (htable : m.isView = false) {db : Database} {p : Plan}
    (h : m.planFor db = .ok p) :
    ∃ before, p = planTable .sqlite m before ∧
      ∀ live ∈ before, ∃ t ∈ db.tables, t.name = m.name ∧ t.live = live := by
  rw [planFor] at h
  split at h
  · next found hfound =>
    simp only [planUpdate, htable] at h
    rcases found with - | e | e
    · exact ⟨none, (Except.ok.inj h).symm, by simp⟩
    · refine ⟨some e, (Except.ok.inj h).symm, fun live hlive => ?_⟩
      obtain rfl := Option.some.inj hlive
      rw [liveObject?] at hfound
      cases hfind : db.tables.find? (·.name == m.name) with
      | some t =>
        rw [hfind] at hfound
        cases Except.ok.inj hfound
        exact ⟨t, List.mem_of_find?_eq_some hfind, by simpa using List.find?_some hfind, rfl⟩
      | none =>
        rw [hfind] at hfound
        split at hfound
        · next hnone => cases hnone
        · cases Except.ok.inj hfound
        · split at hfound <;> cases hfound
    · cases h
  · cases h

/-- **A second schema update does nothing exactly if the key is reported as numbered where it is**,
whether the first one has created the table, rebuilt it, altered it in place or left it alone. -/
theorem updateSchema_again_iff {Key : Type} {mapping : Mapping}
    (hbuild : Model.build mapping = .ok m) (htable : m.isView = false)
    (hascii : ∀ n ∈ m.columnNames, Text.IsAscii n)
    (hindexes : m.indexes.Pairwise fun i j => Text.sameName i.name j.name = false)
    (hdefaults : ∀ k ∈ m.columns, ∀ sql, k.default = some (.expression sql) →
      Default.StandsAlone sql)
    (hfills : ∀ k ∈ m.columns, k.FillsRow) {c c' : Client Key}
    (hc : c.connection.database.ReachedUnlinked)
    (hlive : ∀ t ∈ c.connection.database.tables, t.name = m.name →
      ∀ k ∈ t.columns, Text.IsAscii k.name) {r : SchemaUpdate}
    (h : (m.updateSchema : Session Key SchemaUpdate).runOn c = (.ok r, c')) :
    ∃ t : LiveTable, c'.connection.database.liveObject? m.name = .ok (some (.table t)) ∧
      ((∃ again, (m.updateSchema : Session Key SchemaUpdate).runOn c' = (.ok again, c') ∧
          again.executed = 0) ↔
        ∀ k ∈ m.columns, ∀ e, t.column? k.name = some e → e.autoincrement = k.autoincrement) := by
  have hm := valid_of_build hbuild
  obtain ⟨-, hplan, -, connection, hran, rfl⟩ := runOn_updateSchema_ok h
  obtain ⟨before, hbefore, hfound⟩ := exists_of_planFor htable hplan
  rw [hbefore] at hran
  have hshaped : connection.database.Shaped := hran.shaped hc.shaped
  obtain ⟨after, houtcome, hname, t, ht, halike⟩ := Plan.reports_of_ran (c := c.connection.begin)
    hm hdefaults hfills hindexes hc.shaped hfound hran
  have hagrees : Difference.Agrees .sqlite m after := by
    refine Difference.agrees_of_outcome (by simp [Dialect.shipped]) hm hascii hindexes
      (fun live hl e he => ?_) houtcome
    obtain ⟨u, hu, hun, rfl⟩ := hfound live hl
    obtain ⟨k, hk, rfl⟩ := List.mem_map.mp he
    exact hlive u hu hun k hk
  have hmem := (of_table? ht).1
  have hwritten := (List.pairwise_flatMap.mp hshaped.named.written).1 t hmem
  have hreported : connection.commit.database.liveObject? m.name = .ok (some (.table t.live)) := by
    have hexact : t.name = m.name := halike.name.trans hname
    rw [← hexact, liveObject?, Connection.commit, hshaped.named.find?_eq hmem]
  refine ⟨t.live, hreported, ?_⟩
  rw [runOn_updateSchema_nothing_iff htable rfl hreported, halike.agrees_iff hagrees
    ((hshaped.tables t hmem).pairwise_indexes_live hwritten)]

end Model

end EntitySql
