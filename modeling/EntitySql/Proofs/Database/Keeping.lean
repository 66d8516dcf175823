import EntitySql.Proofs.Database.Creation
import EntitySql.Proofs.Database.Inserting

/-!
# What definitions keep of the rows

A statement that creates or drops an index, or creates a table, keeps the columns and the rows of
every table, and so does one that drops a table, of every other table. A statement that adds
a column to a table or drops one changes the cells of its rows, but neither their number nor the
numbers that they have. A renamed table is found under its new name with the rows that it had. An
insertion is the other way round: it keeps all of a table but the rows.

## Main definitions

* `Database.Keeps`: what is seen of a table under a name is still seen

## Main results

* `Database.keeps_createTable`, `Database.keeps_dropIndex` and the like: one lemma for each
  definition
* `Database.exists_of_createTable`: a table is created without rows
* `Database.exists_of_renameTable`: a renamed table has its rows
-/

namespace EntitySql

namespace StoredTable

/-- The columns and the rows of a table. -/
def content (t : StoredTable) : List StoredColumn × List StoredRow := (t.columns, t.rows)

/-- The numbers of the rows of a table. -/
def numbers (t : StoredTable) : List Int := t.rows.map StoredRow.number

/-- A column that is added or dropped changes the cells of the rows only. -/
theorem numbers_addColumn {t t' : StoredTable} {b : Bindings} {c : ColumnClause}
    (h : t.addColumn b c = .ok t') : t'.name = t.name ∧ t'.numbers = t.numbers := by
  obtain ⟨-, -, -, cell, rfl⟩ := addColumn_cases h
  exact ⟨rfl, List.map_map⟩

theorem numbers_dropColumn {t t' : StoredTable} {name written : String}
    (h : t.dropColumn name written = .ok t') : t'.name = t.name ∧ t'.numbers = t.numbers := by
  obtain ⟨p, -, -, -, -, rfl⟩ := dropColumn_cases h
  exact ⟨rfl, List.map_map⟩

/-- The table of a definition has no rows. -/
theorem rows_ofClause {clause : TableClause} {t : StoredTable} (h : ofClause clause = .ok t) :
    t.name = clause.name ∧ t.rows = [] := by
  refine foldlM_invariant (d := []) (P := fun _ u => u.name = clause.name ∧ u.rows = [])
    (fun done k _ u u' hu hstep => ?_) ⟨rfl, rfl⟩ (ofClause_cases h).2
  obtain ⟨columns, -, hstep⟩ := exists_of_bind_eq_ok hstep
  split at hstep
  · rwa [← Except.ok.inj hstep]
  · rw [← Except.ok.inj hstep, addConstraint]
    split
    · exact hu
    · exact hu

end StoredTable

namespace Database

/-- What is seen of the table of a name in one database is still seen in another. -/
def Keeps {α : Type} (view : StoredTable → α) (name : String) (db db' : Database) : Prop :=
  ∀ t, db.table? name = some t → ∃ t', db'.table? name = some t' ∧ view t' = view t

variable {α : Type} {view : StoredTable → α} {name : String} {db db' db'' : Database}

theorem Keeps.refl : Keeps view name db db := fun t ht => ⟨t, ht, rfl⟩

theorem Keeps.trans (h : Keeps view name db db') (h' : Keeps view name db' db'') :
    Keeps view name db db'' := by
  intro t ht
  obtain ⟨t', ht', hview⟩ := h t ht
  obtain ⟨t'', ht'', hview'⟩ := h' t' ht'
  exact ⟨t'', ht'', hview'.trans hview⟩

/-- Rows that are kept have the numbers that they had. -/
theorem Keeps.numbers (h : Keeps StoredTable.content name db db') :
    Keeps StoredTable.numbers name db db' := by
  intro t ht
  obtain ⟨t', ht', hcontent⟩ := h t ht
  exact ⟨t', ht', congrArg (fun c => c.2.map StoredRow.number) hcontent⟩

/-- A change of all tables that leaves their names and what is seen of them. -/
theorem keeps_map {f : StoredTable → StoredTable}
    (hf : ∀ t, (f t).name = t.name ∧ view (f t) = view t) :
    Keeps view name db { db with tables := db.tables.map f } := by
  intro t ht
  refine ⟨f t, ?_, (hf t).2⟩
  rw [table?, List.find?_map]
  simp only [Function.comp_def, (hf _).1]
  rw [table?] at ht
  rw [ht, Option.map_some]

theorem keeps_changeTable (table : String) {f : StoredTable → StoredTable}
    (hf : ∀ t, (f t).name = t.name ∧ view (f t) = view t) :
    Keeps view name db (db.changeTable table f) := by
  refine keeps_map fun t => ?_
  split
  · exact hf t
  · exact ⟨rfl, rfl⟩

/-- Tables that are new stand behind those that are there. -/
theorem keeps_append (ts : List StoredTable) :
    Keeps view name db { db with tables := db.tables ++ ts } := by
  intro t ht
  rw [table?] at ht
  exact ⟨t, by rw [table?, List.find?_append, ht, Option.some_or], rfl⟩

/-! ### Definitions -/

theorem keeps_createTable {clause : TableClause} (h : db.createTable clause = .ok db') :
    Keeps view name db db' := by
  obtain ⟨-, rfl⟩ | ⟨-, -, t, -, rfl⟩ := createTable_cases h
  · exact .refl
  · exact keeps_append _

/-- A table that is created has no rows, and a name that is not reserved. -/
theorem exists_of_createTable {clause : TableClause} (hmissing : clause.ifMissing = false)
    (h : db.createTable clause = .ok db') :
    isReservedName clause.name = false ∧ ∃ t, db'.table? clause.name = some t ∧ t.rows = [] := by
  obtain ⟨t, ht, hhas⟩ := has_createTable hmissing h
  obtain ⟨hname, hrows⟩ := StoredTable.rows_ofClause ht
  obtain ⟨hnot, -⟩ | ⟨hreserved, -⟩ := createTable_cases h
  · exact absurd (hmissing.symm.trans hnot) Bool.false_ne_true
  · exact ⟨hreserved, t, hname ▸ (hhas hname).table?, hrows⟩

theorem keeps_createIndex {unique ifMissing : Bool} {index table : String} {columns : List String}
    (h : db.createIndex unique ifMissing index table columns = .ok db') :
    Keeps StoredTable.content name db db' := by
  obtain ⟨t, -, -, -, ⟨-, rfl⟩ | ⟨-, spelled, -, rfl⟩⟩ := createIndex_cases h
  · exact .refl
  · exact keeps_changeTable table fun t => ⟨rfl, rfl⟩

theorem keeps_dropIndex {ifExists : Bool} {index : String}
    (h : db.dropIndex ifExists index = .ok db') : Keeps StoredTable.content name db db' := by
  obtain ⟨-, -, rfl⟩ | ⟨i, -, -, rfl⟩ := dropIndex_cases h
  · exact .refl
  · exact keeps_map fun t => ⟨rfl, rfl⟩

/-- The table of the last numbers is another one. -/
theorem table?_forgetLastNumber (h : Text.sameName sequenceName name = false) (table : String) :
    (db.forgetLastNumber table).table? name = db.table? name :=
  table?_changeTable_of_ne h fun _ => rfl

/-- A table of another name is kept, unless it is the table of the last numbers. -/
theorem keeps_dropTable {ifExists : Bool} {table : String}
    (hne : Text.sameName table name = false) (hsequence : Text.sameName sequenceName name = false)
    (h : db.dropTable ifExists table = .ok db') : Keeps view name db db' := by
  obtain ⟨-, -, rfl⟩ | ⟨dropped, -, -, rfl⟩ := dropTable_cases h
  · exact .refl
  · intro t ht
    refine ⟨t, ?_, rfl⟩
    rw [table?_forgetLastNumber hsequence]
    refine Text.find?_filter_of_kept ht ?_
    have hsame : Text.sameName t.name name = true := (of_table? ht).2
    rw [Bool.not_eq_true', Bool.eq_false_iff]
    intro htable
    rw [Text.sameName_comm] at htable
    rw [Text.sameName_trans htable hsame] at hne
    exact absurd hne (by decide)

/-- A table that is put in the place of the one of its name. -/
theorem keeps_replace {table : String} {t changed : StoredTable} (ht : db.table? table = some t)
    (h : changed.name = t.name ∧ view changed = view t) :
    Keeps view table db (db.changeTable table fun _ => changed) := by
  intro u hu
  obtain rfl : t = u := Option.some.inj (ht.symm.trans hu)
  have hname : Text.sameName changed.name table = true := by
    rw [h.1]
    exact (of_table? ht).2
  exact ⟨changed, table?_changeTable ht hname, h.2⟩

theorem keeps_addColumn {b : Bindings} {table : String} {c : ColumnClause}
    (h : db.addColumn b table c = .ok db') : Keeps StoredTable.numbers table db db' := by
  obtain ⟨t, changed, ht, -, hchanged, rfl⟩ := addColumn_cases h
  exact keeps_replace ht (StoredTable.numbers_addColumn hchanged)

theorem keeps_dropColumn {table column written : String}
    (h : db.dropColumn table column written = .ok db') :
    Keeps StoredTable.numbers table db db' := by
  obtain ⟨t, changed, ht, -, hchanged, -, rfl⟩ := dropColumn_cases h
  exact keeps_replace ht (StoredTable.numbers_dropColumn hchanged)

/-- Rows that are inserted leave what is seen of their table apart from its rows. -/
theorem keeps_insert {table : String}
    (hview : ∀ (t : StoredTable) (rows : List StoredRow), view { t with rows } = view t)
    (hsequence : Text.sameName sequenceName table = false) {b : Bindings}
    {named : Option (List String)} {source : RowSource} {count : Nat}
    (h : db.insert b table named source = .ok (db', count)) : Keeps view table db db' := by
  obtain ⟨t, rows, width, positions, defaults, t', greatest, ht, -, -, -, hfold, -, rfl⟩ :=
    insert_cases h
  have hwritten : t'.name = t.name ∧ view t' = view t := by
    refine invariant_of_insertSteps (P := fun u => u.name = t.name ∧ view u = view t)
      (fun u u' last n given hinsert hu => ?_) hfold ⟨rfl, rfl⟩
    obtain ⟨-, -, -, -, rfl⟩ := StoredTable.insertRow_cases hinsert
    exact ⟨hu.1, (hview u _).trans hu.2⟩
  have hreplaced := keeps_replace ht hwritten
  split
  · intro u hu
    obtain ⟨u', hu', hsame⟩ := hreplaced u hu
    exact ⟨u', by rw [table?_keepLastNumber hsequence, hu'], hsame⟩
  · exact hreplaced

/-- **A table that is renamed has its rows under the new name**, which was free and is not
reserved. -/
theorem exists_of_renameTable {table : String} {t : StoredTable} (ht : db.table? table = some t)
    (h : db.renameTable table name = .ok db') :
    isReservedName name = false ∧
      ∃ t', db'.table? name = some t' ∧ t'.content = t.content := by
  obtain ⟨u, hu, -, hreserved, hfree, rfl⟩ := renameTable_cases h
  obtain rfl : t = u := Option.some.inj (ht.symm.trans hu)
  have hsequence := sameName_of_isReservedName hreserved isReservedName_sequenceName
  -- in front of the renamed table no table has the old name, and none has the new one
  have hrenamed : (db.changeTable table (·.rename name)).table? name = some (t.rename name) := by
    obtain ⟨hsame, before, after, htables, hbefore⟩ := List.find?_eq_some_iff_append.mp ht
    have hunchanged : before.map (fun u => if Text.sameName u.name table then u.rename name
        else u) = before := Text.map_of_sameName fun u hu => by simpa using hbefore u hu
    refine List.find?_eq_some_iff_append.mpr ⟨Text.sameName_refl name, before,
      after.map fun u => if Text.sameName u.name table then u.rename name else u, ?_,
      fun u hu => ?_⟩
    · rw [changeTable, htables, List.map_append, List.map_cons, hunchanged, if_pos hsame]
    · have hmem : u ∈ db.tables := by simp [htables, hu]
      simpa using List.find?_eq_none.mp hfree u hmem
  have hforgotten : ((db.changeTable table (·.rename name)).forgetLastNumber t.name).table?
      name = some (t.rename name) := by
    rw [table?_forgetLastNumber hsequence, hrenamed]
  refine ⟨hreserved, t.rename name, ?_, rfl⟩
  unfold renamed
  split
  · rw [table?_keepLastNumber hsequence, hforgotten]
  · exact hforgotten

end Database

end EntitySql
