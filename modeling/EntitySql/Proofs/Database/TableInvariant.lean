import EntitySql.Proofs.Database.IndexNames

/-!
# What holds of each table

Most of what statements preserve is about one table at a time. A statement changes a table in one of
a dozen ways: the table gets an index, a column or a row or loses one, has other cells or another
name. What holds of every table that is created and is preserved in each of these ways holds of each
table behind every statement. So an invariant of tables is proved with one case for each way, and
not with one for each statement.

## Main definitions

* `StoredTable.IsInvariant`: what holds of a table when it is created and however it is changed

## Main results

* `Database.Step.forall_tables`: what is so holds of each table behind every statement
-/

namespace EntitySql

/-- What holds of a table when it is created and however it is changed. -/
structure StoredTable.IsInvariant (P : StoredTable → Prop) : Prop where
  created : ∀ {clause : TableClause} {t : StoredTable}, isReservedName clause.name = false →
    StoredTable.ofClause clause = .ok t → P t
  sequences : P .sequences
  indexed : ∀ {t : StoredTable} {name : String} {columns spelled : List String} (unique : Bool),
    P t → isReservedName name = false → t.spell columns = .ok spelled →
      P { t with indexes := ⟨name, spelled, unique, .statement⟩ :: t.indexes }
  unindexed : ∀ {t : StoredTable} (p : StoredIndex → Bool), P t →
    P { t with indexes := t.indexes.filter p }
  renamed : ∀ {t : StoredTable} {name : String}, P t → isReservedName name = false →
    P (t.rename name)
  columnAdded : ∀ {t t' : StoredTable} {b : Bindings} {c : ColumnClause}, P t →
    isReservedName t.name = false → t.addColumn b c = .ok t' → P t'
  columnDropped : ∀ {t t' : StoredTable} {name written occasion : String}, P t →
    isReservedName t.name = false → t.dropColumn name written = .ok t' →
      t'.brokenIndex? occasion = none → P t'
  inserted : ∀ {t t' : StoredTable} {last n : Int} {given : Record}, P t →
    t.insertRow last given = .ok (t', n) → P t'
  replaced : ∀ {t t' : StoredTable} {n : Int} {given : Record}, P t →
    t.replaceRow n given = .ok t' → P t'
  deleted : ∀ {t : StoredTable} (p : StoredRow → Bool), P t →
    P { t with rows := t.rows.filter p }
  /-- The row of a last number has another one. -/
  recounted : ∀ {t : StoredTable} (p : StoredRow → Bool) (cells : Record), P t →
    P { t with rows := t.rows.map fun r => if p r then { r with cells } else r }
  /-- A last number is kept for one more table. -/
  counted : ∀ {t : StoredTable} (cells : Record), P t →
    P { t with rows := t.rows ++ [⟨(t.rows.getLast?.map fun r => r.number + 1).getD 1, cells⟩] }

namespace Database

variable {P : StoredTable → Prop} {db db' : Database}

/-- A change of the tables of a name. -/
theorem forall_changeTable (h : ∀ t ∈ db.tables, P t) {name : String}
    {f : StoredTable → StoredTable}
    (hf : ∀ t ∈ db.tables, Text.sameName t.name name = true → P (f t)) :
    ∀ t ∈ (db.changeTable name f).tables, P t := by
  intro u hu
  obtain ⟨t, ht, rfl⟩ := List.mem_map.mp hu
  split
  · next hname => exact hf t ht hname
  · exact h t ht

variable (hP : StoredTable.IsInvariant P)

include hP

theorem forall_forgetLastNumber (h : ∀ t ∈ db.tables, P t) (table : String) :
    ∀ t ∈ (db.forgetLastNumber table).tables, P t :=
  forall_changeTable h fun t ht _ => hP.deleted _ (h t ht)

theorem forall_keepLastNumber (h : ∀ t ∈ db.tables, P t) (table : String) (n : Int) :
    ∀ t ∈ (db.keepLastNumber table n).tables, P t := by
  refine forall_changeTable h fun t ht _ => ?_
  split
  · exact hP.recounted (fun r => r.cells.head? == some (.text table)) _ (h t ht)
  · exact hP.counted _ (h t ht)

theorem forall_createTable (hdb : ∀ t ∈ db.tables, P t) {clause : TableClause}
    (h : db.createTable clause = .ok db') : ∀ t ∈ db'.tables, P t := by
  obtain ⟨-, rfl⟩ | ⟨hreserved, -, t, ht, rfl⟩ := createTable_cases h
  · exact hdb
  intro u hu
  rcases List.mem_append.mp hu with hu | hu
  · exact hdb u hu
  rcases List.mem_cons.mp hu with rfl | hu
  · exact hP.created hreserved ht
  · split at hu
    · exact List.mem_singleton.mp hu ▸ hP.sequences
    · cases hu

theorem forall_createIndex (hnamed : db.Named) (hdb : ∀ t ∈ db.tables, P t)
    {unique ifMissing : Bool} {name table : String} {columns : List String}
    (h : db.createIndex unique ifMissing name table columns = .ok db') :
    ∀ t ∈ db'.tables, P t := by
  obtain ⟨t, ht, -, hreserved, ⟨-, rfl⟩ | ⟨-, spelled, hspelled, rfl⟩⟩ := createIndex_cases h
  · exact hdb
  refine forall_changeTable hdb fun u hu hname => ?_
  obtain rfl : t = u := Option.some.inj (ht.symm.trans (hnamed.table?_eq hu hname))
  exact hP.indexed unique (hdb t hu) hreserved hspelled

theorem forall_dropTable (hdb : ∀ t ∈ db.tables, P t) {ifExists : Bool} {name : String}
    (h : db.dropTable ifExists name = .ok db') : ∀ t ∈ db'.tables, P t := by
  obtain ⟨-, -, rfl⟩ | ⟨t, -, -, rfl⟩ := dropTable_cases h
  · exact hdb
  · exact forall_forgetLastNumber hP (fun t ht => hdb t (List.mem_filter.mp ht).1) _

theorem forall_dropIndex (hdb : ∀ t ∈ db.tables, P t) {ifExists : Bool} {name : String}
    (h : db.dropIndex ifExists name = .ok db') : ∀ t ∈ db'.tables, P t := by
  obtain ⟨-, -, rfl⟩ | ⟨i, -, -, rfl⟩ := dropIndex_cases h
  · exact hdb
  · intro u hu
    obtain ⟨t, ht, rfl⟩ := List.mem_map.mp hu
    exact hP.unindexed _ (hdb t ht)

theorem forall_renameTable (hdb : ∀ t ∈ db.tables, P t) {table name : String}
    (h : db.renameTable table name = .ok db') : ∀ t ∈ db'.tables, P t := by
  obtain ⟨t, -, -, hfree, -, rfl⟩ := renameTable_cases h
  have hrenamed : ∀ u ∈ (db.changeTable table (·.rename name)).tables, P u :=
    forall_changeTable hdb fun u hu _ => hP.renamed (hdb u hu) hfree
  have hforgotten := forall_forgetLastNumber hP hrenamed t.name
  unfold renamed
  split
  · exact forall_keepLastNumber hP hforgotten _ _
  · exact hforgotten

omit hP in
/-- A table that is put in the place of the one of its name. -/
theorem forall_replace (hdb : ∀ t ∈ db.tables, P t) {table : String} {changed : StoredTable}
    (hchanged : P changed) : ∀ t ∈ (db.changeTable table fun _ => changed).tables, P t :=
  forall_changeTable hdb fun _ _ _ => hchanged

theorem forall_insert (hdb : ∀ t ∈ db.tables, P t) {b : Bindings} {table : String}
    {named : Option (List String)} {source : RowSource} {count : Nat}
    (h : db.insert b table named source = .ok (db', count)) : ∀ t ∈ db'.tables, P t := by
  obtain ⟨t, rows, width, positions, defaults, t', greatest, ht, -, -, -, hfold, -, rfl⟩ :=
    insert_cases h
  have hwritten : P t' := invariant_of_insertSteps
    (fun _ _ _ _ _ hinsert hu => hP.inserted hu hinsert) hfold (hdb t (of_table? ht).1)
  split
  · exact forall_keepLastNumber hP (forall_replace hdb hwritten) _ _
  · exact forall_replace hdb hwritten

theorem forall_update (hdb : ∀ t ∈ db.tables, P t) {b : Bindings} {table : String}
    {assignments : List (String × Phrase)} {condition : Option Phrase} {count : Nat}
    (h : db.update b table assignments condition = .ok (db', count)) :
    ∀ t ∈ db'.tables, P t := by
  obtain ⟨t, rows, t', cells, ht, -, hfold, -, rfl⟩ := update_cases h
  exact forall_replace hdb (invariant_of_updateSteps
    (fun _ _ _ _ hreplace hu => hP.replaced hu hreplace) hfold (hdb t (of_table? ht).1))

theorem forall_delete (hnamed : db.Named) (hdb : ∀ t ∈ db.tables, P t) {b : Bindings}
    {table : String} {condition : Option Phrase} {count : Nat}
    (h : db.delete b table condition = .ok (db', count)) : ∀ t ∈ db'.tables, P t := by
  obtain ⟨t, rows, ht, -, -, rfl⟩ := delete_cases h
  refine forall_changeTable hdb fun u hu hname => ?_
  obtain rfl : t = u := Option.some.inj (ht.symm.trans (hnamed.table?_eq hu hname))
  exact hP.deleted _ (hdb t hu)

/-- **What holds of a table however it is changed** holds of each table behind every statement. -/
theorem Step.forall_tables (h : db.Step db') (hnamed : db.Named) (hdb : ∀ t ∈ db.tables, P t) :
    ∀ t ∈ db'.tables, P t := by
  cases h with
  | same h => exact h ▸ hdb
  | createTable h => exact forall_createTable hP hdb h
  | createIndex h => exact forall_createIndex hP hnamed hdb h
  | createView h => exact tables_createView h ▸ hdb
  | dropTable h => exact forall_dropTable hP hdb h
  | dropIndex h => exact forall_dropIndex hP hdb h
  | dropView h => exact tables_dropView h ▸ hdb
  | renameTable h => exact forall_renameTable hP hdb h
  | addColumn h =>
    obtain ⟨t, changed, ht, hfree, hchanged, rfl⟩ := addColumn_cases h
    exact forall_replace hdb (hP.columnAdded (hdb t (of_table? ht).1) hfree hchanged)
  | dropColumn h =>
    obtain ⟨t, changed, ht, hfree, hchanged, hindexes, rfl⟩ := dropColumn_cases h
    exact forall_replace hdb (hP.columnDropped (hdb t (of_table? ht).1) hfree hchanged hindexes)
  | insert h => exact forall_insert hP hdb h
  | update h => exact forall_update hP hdb h
  | delete h => exact forall_delete hP hnamed hdb h

end Database

end EntitySql
