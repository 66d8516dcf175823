import EntitySql.Proofs.Database.Keeping
import Mathlib.Data.List.Flatten

/-!
# The names of tables and indexes

No two tables of a database have one name, and no two indexes that statements have created. The
indexes that enforce constraints are named by the database itself, with names that are reserved.
Every statement keeps this (`Database.Named`), so whether a name that is not reserved is free for an
index can be told from the indexes that statements have created.

A statement that neither creates nor drops a table or an index leaves the indexes of all tables as
they are (`Database.owners`). An index stays with its table when that is renamed.

## Main definitions

* `StoredTable.written`, `Database.written`: the indexes that statements have created
* `Database.Named`: tables and indexes have names of their own
* `Database.owners`: the tables with their names and indexes

## Main results

* `Database.Named.uses_iff`: when a name is that of an index
* `Database.named_createIndex`, `Database.named_renameTable` and the like: one lemma for each
  statement, with what becomes of the indexes that statements have created
* `Database.Step.named`: every statement leaves tables and indexes names of their own
-/

namespace EntitySql

/-- The names of the indexes that enforce constraints are reserved. -/
theorem isReservedName_automatic (s : String) :
    isReservedName ("sqlite_autoindex_" ++ s) = true := by
  have hprefix : Text.foldCase "sqlite_" <+: Text.foldCase ("sqlite_autoindex_" ++ s) := by
    refine ⟨"autoindex_".toList ++ Text.foldCase s, ?_⟩
    simp only [Text.foldCase, String.toList_append, List.map_append]
    rw [← List.append_assoc]
    refine congrArg (· ++ _) ?_
    decide
  simpa [isReservedName] using hprefix

namespace StoredTable

/-- The indexes of a table that statements have created. -/
def written (t : StoredTable) : List StoredIndex := t.indexes.filter (·.origin = .statement)

/-- The other indexes of a table have reserved names. -/
def NamesOthers (t : StoredTable) : Prop :=
  ∀ i ∈ t.indexes, i.origin ≠ .statement → isReservedName i.name = true

/-- All indexes of the table of a definition enforce constraints. -/
theorem indexes_ofClause {clause : TableClause} {t : StoredTable} (h : ofClause clause = .ok t) :
    ∀ i ∈ t.indexes, i.origin ≠ .statement ∧ isReservedName i.name = true := by
  have horigin : ∀ k ∈ clause.constraints, k.1 ≠ .statement := by
    intro k hk
    rcases List.mem_append.mp hk with hcolumn | hrule
    · obtain ⟨column, -, hrule⟩ := List.mem_flatMap.mp hcolumn
      obtain ⟨rule, -, hrule⟩ := List.mem_filterMap.mp hrule
      cases rule <;> simp at hrule <;> subst hrule <;> simp
    · obtain ⟨rule, -, rfl⟩ := List.mem_map.mp hrule
      cases rule <;> simp
  refine foldlM_invariant (d := []) (P := fun _ u => ∀ i ∈ u.indexes,
    i.origin ≠ .statement ∧ isReservedName i.name = true)
    (fun done k hk u u' hu hstep => ?_) (by simp [bare]) (ofClause_cases h).2
  obtain ⟨columns, -, hstep⟩ := exists_of_bind_eq_ok hstep
  split at hstep
  · rwa [← Except.ok.inj hstep]
  · rw [← Except.ok.inj hstep, addConstraint]
    split
    · intro i hi
      obtain ⟨j, hj, rfl⟩ := List.mem_map.mp hi
      split
      · exact ⟨by simp, (hu j hj).2⟩
      · exact hu j hj
    · intro i hi
      rcases List.mem_cons.mp hi with rfl | hi
      · refine ⟨horigin k hk, ?_⟩
        have hname := isReservedName_automatic (u.name ++ ("_" ++ toString (u.indexes.length + 1)))
        simpa [toString, String.append_assoc] using hname
      · exact hu i hi

/-- The indexes that statements have created stay with a table that is renamed. -/
theorem written_rename (t : StoredTable) (name : String) : (t.rename name).written = t.written := by
  have hmap : ∀ f : StoredIndex → StoredIndex, (∀ i, (f i).origin = i.origin) →
      (∀ i, i.origin = .statement → f i = i) →
      (t.indexes.map f).filter (·.origin = .statement) = t.written := by
    intro f horigin hsame
    rw [List.filter_map, written]
    simp only [Function.comp_def, horigin]
    refine (List.map_congr_left fun i hi => ?_).trans (List.map_id _)
    exact hsame i (by simpa using (List.mem_filter.mp hi).2)
  exact hmap _ (fun i => by split <;> rfl) fun i hi => if_pos hi

/-- The others are named after it. -/
theorem namesOthers_rename (t : StoredTable) (name : String) : (t.rename name).NamesOthers := by
  intro i hi hother
  obtain ⟨j, -, rfl⟩ := List.mem_map.mp hi
  split at hother
  · next hj => exact absurd hj hother
  · next hj =>
    rw [if_neg hj]
    simpa only [String.append_assoc] using isReservedName_automatic _

/-- A row that is inserted leaves the name and the indexes of its table. -/
theorem indexes_insertRow {t t' : StoredTable} {last n : Int} {given : Record}
    (h : t.insertRow last given = .ok (t', n)) : t'.name = t.name ∧ t'.indexes = t.indexes := by
  obtain ⟨row, rfl, -⟩ := exists_of_insertRow h
  exact ⟨rfl, rfl⟩

/-- So does a row that is given other cells. -/
theorem indexes_replaceRow {t t' : StoredTable} {n : Int} {given : Record}
    (h : t.replaceRow n given = .ok t') : t'.name = t.name ∧ t'.indexes = t.indexes := by
  obtain ⟨m, -, rfl⟩ := replaceRow_cases h
  exact ⟨rfl, rfl⟩

/-- So does a column that is added or dropped. -/
theorem indexes_addColumn {t t' : StoredTable} {b : Bindings} {c : ColumnClause}
    (h : t.addColumn b c = .ok t') : t'.name = t.name ∧ t'.indexes = t.indexes := by
  obtain ⟨-, -, -, cell, rfl⟩ := addColumn_cases h
  exact ⟨rfl, rfl⟩

theorem indexes_dropColumn {t t' : StoredTable} {name written : String}
    (h : t.dropColumn name written = .ok t') : t'.name = t.name ∧ t'.indexes = t.indexes := by
  obtain ⟨p, -, -, -, -, rfl⟩ := dropColumn_cases h
  exact ⟨rfl, rfl⟩

end StoredTable

namespace Database

variable {db db' : Database}

/-- The indexes of a database that statements have created. -/
def written (db : Database) : List StoredIndex := db.tables.flatMap StoredTable.written

/-- Tables have names of their own, and so have the indexes that statements have created. The other
indexes have reserved names. -/
structure Named (db : Database) : Prop where
  tables : db.tables.Pairwise fun t u => Text.sameName t.name u.name = false
  others : ∀ t ∈ db.tables, t.NamesOthers
  written : db.written.Pairwise fun i j => Text.sameName i.name j.name = false

/-- A name is that of an index. -/
def Uses (db : Database) (n : String) : Prop := ∃ i, db.index? n = some i

/-- No two names clash in a new database. -/
theorem named_empty : Named {} := ⟨.nil, by simp, .nil⟩

theorem uses_iff_exists {n : String} :
    db.Uses n ↔ ∃ t ∈ db.tables, ∃ i ∈ t.indexes, Text.sameName i.name n = true := by
  simp [Uses, index?, ← Option.isSome_iff_exists, List.find?_isSome]

/-- **A name that is not reserved is that of an index** if a statement has created one of that
name. -/
theorem Named.uses_iff (h : db.Named) {n : String} (hn : isReservedName n = false) :
    db.Uses n ↔ ∃ i ∈ db.written, Text.sameName i.name n = true := by
  rw [uses_iff_exists]
  constructor
  · rintro ⟨t, ht, i, hi, hname⟩
    have horigin : i.origin = .statement := by
      by_contra hother
      rw [sameName_of_isReservedName hn (h.others t ht i hi hother)] at hname
      cases hname
    exact ⟨i, List.mem_flatMap.mpr ⟨t, ht, List.mem_filter.mpr ⟨hi, by simpa using horigin⟩⟩, hname⟩
  · rintro ⟨i, hi, hname⟩
    obtain ⟨t, ht, hi⟩ := List.mem_flatMap.mp hi
    exact ⟨t, ht, i, (List.mem_filter.mp hi).1, hname⟩

/-- A name tells which table it is. -/
theorem Named.table?_eq (h : db.Named) {t : StoredTable} (ht : t ∈ db.tables) {name : String}
    (hname : Text.sameName t.name name = true) : db.table? name = some t :=
  Text.find?_of_pairwise h.tables ht hname

/-! ### Statements that leave the indexes -/

/-- The tables with their names and indexes. -/
def owners (db : Database) : List (String × List StoredIndex) :=
  db.tables.map fun t => (t.name, t.indexes)

/-- Names are told by the tables with their indexes. -/
theorem written_eq (db : Database) :
    db.written = db.owners.flatMap fun o => o.2.filter fun i => decide (i.origin = .statement) := by
  rw [owners, List.flatMap_map]
  rfl

theorem named_iff_owners : db.Named ↔
    (db.owners.Pairwise fun o p => Text.sameName o.1 p.1 = false) ∧
      (∀ o ∈ db.owners, ∀ i ∈ o.2, i.origin ≠ .statement → isReservedName i.name = true) ∧
      db.written.Pairwise fun i j => Text.sameName i.name j.name = false := by
  rw [owners, List.pairwise_map, List.forall_mem_map]
  exact ⟨fun h => ⟨h.tables, h.others, h.written⟩, fun h => ⟨h.1, h.2.1, h.2.2⟩⟩

theorem uses_iff_owners {n : String} :
    db.Uses n ↔ ∃ o ∈ db.owners, ∃ i ∈ o.2, Text.sameName i.name n = true := by
  rw [uses_iff_exists, owners]
  simp

/-- A database with the same indexes in the same tables has names of their own as well. -/
theorem named_of_owners_eq (howners : db'.owners = db.owners) (h : db.Named) :
    db'.Named ∧ db'.written = db.written := by
  have hwritten : db'.written = db.written := by rw [written_eq, written_eq, howners]
  refine ⟨?_, hwritten⟩
  rw [named_iff_owners, howners, hwritten]
  exact named_iff_owners.mp h

/-- The same names are those of its indexes. -/
theorem uses_iff_of_owners_eq {n : String} (howners : db'.owners = db.owners) :
    db'.Uses n ↔ db.Uses n := by
  rw [uses_iff_owners, uses_iff_owners, howners]

/-- Where statements have created the same indexes, the same names are those of indexes, unless they
are reserved. -/
theorem Named.uses_iff_of_written_eq (h : db.Named) {n : String} (hn : isReservedName n = false)
    (hsame : db'.Named ∧ db'.written = db.written) : db'.Uses n ↔ db.Uses n := by
  rw [h.uses_iff hn, hsame.1.uses_iff hn, hsame.2]

/-- A change of the table of a name that leaves its name and its indexes. -/
theorem owners_changeTable {name : String} {f : StoredTable → StoredTable}
    (hf : ∀ t ∈ db.tables, Text.sameName t.name name = true →
      (f t).name = t.name ∧ (f t).indexes = t.indexes) :
    (db.changeTable name f).owners = db.owners := by
  rw [owners, owners, changeTable, List.map_map]
  refine List.map_congr_left fun t ht => ?_
  simp only [Function.comp_apply]
  split
  · next hname => rw [(hf t ht hname).1, (hf t ht hname).2]
  · rfl

/-- A table that is put in the place of the one of its name. -/
theorem owners_replace (h : db.Named) {name : String} {t changed : StoredTable}
    (ht : db.table? name = some t)
    (hchanged : changed.name = t.name ∧ changed.indexes = t.indexes) :
    (db.changeTable name fun _ => changed).owners = db.owners := by
  refine owners_changeTable fun u hu hname => ?_
  obtain rfl : t = u := Option.some.inj (ht.symm.trans (h.table?_eq hu hname))
  exact hchanged

theorem owners_forgetLastNumber (table : String) : (db.forgetLastNumber table).owners = db.owners :=
  owners_changeTable fun _ _ _ => ⟨rfl, rfl⟩

theorem owners_keepLastNumber (table : String) (n : Int) :
    (db.keepLastNumber table n).owners = db.owners := by
  refine owners_changeTable fun t _ _ => ?_
  split <;> exact ⟨rfl, rfl⟩

/-- What leaves the tables leaves their indexes. -/
theorem owners_of_tables_eq (h : db'.tables = db.tables) : db'.owners = db.owners := by
  rw [owners, owners, h]

theorem owners_insert (hdb : db.Named) {b : Bindings} {table : String}
    {named : Option (List String)} {source : RowSource} {count : Nat}
    (h : db.insert b table named source = .ok (db', count)) : db'.owners = db.owners := by
  obtain ⟨t, rows, width, positions, defaults, t', greatest, ht, -, -, -, hfold, -, rfl⟩ :=
    insert_cases h
  have hchanged : t'.name = t.name ∧ t'.indexes = t.indexes := by
    refine invariant_of_insertSteps (P := fun u => u.name = t.name ∧ u.indexes = t.indexes)
      (fun u u' last n given hinsert hu => ?_) hfold ⟨rfl, rfl⟩
    have hrow := StoredTable.indexes_insertRow hinsert
    exact ⟨hrow.1.trans hu.1, hrow.2.trans hu.2⟩
  have hreplaced := owners_replace hdb ht hchanged
  split
  · rw [owners_keepLastNumber, hreplaced]
  · exact hreplaced

theorem owners_update (hdb : db.Named) {b : Bindings} {table : String}
    {assignments : List (String × Phrase)} {condition : Option Phrase} {count : Nat}
    (h : db.update b table assignments condition = .ok (db', count)) : db'.owners = db.owners := by
  obtain ⟨t, rows, t', cells, ht, -, hfold, -, rfl⟩ := update_cases h
  have hchanged : t'.name = t.name ∧ t'.indexes = t.indexes := by
    refine invariant_of_updateSteps (P := fun u => u.name = t.name ∧ u.indexes = t.indexes)
      (fun u u' n given hreplace hu => ?_) hfold ⟨rfl, rfl⟩
    have hrow := StoredTable.indexes_replaceRow hreplace
    exact ⟨hrow.1.trans hu.1, hrow.2.trans hu.2⟩
  exact owners_replace hdb ht hchanged

theorem owners_delete {b : Bindings} {table : String} {condition : Option Phrase} {count : Nat}
    (h : db.delete b table condition = .ok (db', count)) : db'.owners = db.owners := by
  obtain ⟨t, rows, -, -, -, rfl⟩ := delete_cases h
  exact owners_changeTable fun _ _ _ => ⟨rfl, rfl⟩

theorem owners_addColumn (hdb : db.Named) {b : Bindings} {table : String} {c : ColumnClause}
    (h : db.addColumn b table c = .ok db') : db'.owners = db.owners := by
  obtain ⟨t, changed, ht, -, hchanged, rfl⟩ := addColumn_cases h
  exact owners_replace hdb ht (StoredTable.indexes_addColumn hchanged)

theorem owners_dropColumn (hdb : db.Named) {table column written : String}
    (h : db.dropColumn table column written = .ok db') : db'.owners = db.owners := by
  obtain ⟨t, changed, ht, -, hchanged, -, rfl⟩ := dropColumn_cases h
  exact owners_replace hdb ht (StoredTable.indexes_dropColumn hchanged)

theorem owners_createView {ifMissing : Bool} {v written sql : String} {q : Query}
    (h : db.createView ifMissing v written q sql = .ok db') : db'.owners = db.owners :=
  owners_of_tables_eq (tables_createView h)

theorem owners_dropView {ifExists : Bool} {v : String} (h : db.dropView ifExists v = .ok db') :
    db'.owners = db.owners :=
  owners_of_tables_eq (tables_dropView h)

/-! ### Statements that create and drop them -/

/-- Tables of other names that have no indexes but those of their constraints. -/
theorem named_append (hdb : db.Named) (ts : List StoredTable)
    (hdistinct : ts.Pairwise fun t u => Text.sameName t.name u.name = false)
    (hfree : ∀ t ∈ ts, db.table? t.name = none)
    (hindexes : ∀ t ∈ ts, ∀ i ∈ t.indexes, i.origin ≠ .statement ∧ isReservedName i.name = true) :
    Named { db with tables := db.tables ++ ts } ∧
      written { db with tables := db.tables ++ ts } = db.written := by
  have hnone : ts.flatMap StoredTable.written = [] := by
    rw [List.flatMap_eq_nil_iff]
    intro t ht
    rw [StoredTable.written, List.filter_eq_nil_iff]
    exact fun i hi => by simpa using (hindexes t ht i hi).1
  have hwritten : written { db with tables := db.tables ++ ts } = db.written := by
    rw [written, written, List.flatMap_append, hnone, List.append_nil]
  refine ⟨⟨?_, ?_, hwritten ▸ hdb.written⟩, hwritten⟩
  · refine List.pairwise_append.mpr ⟨hdb.tables, hdistinct, fun u hu t ht => ?_⟩
    simpa using List.find?_eq_none.mp (hfree t ht) u hu
  · intro t ht
    rcases List.mem_append.mp ht with ht | ht
    · exact hdb.others t ht
    · exact fun i hi _ => (hindexes t ht i hi).2

/-- A table is created with the indexes of its constraints only. -/
theorem named_createTable (hdb : db.Named) {clause : TableClause}
    (h : db.createTable clause = .ok db') : db'.Named ∧ db'.written = db.written := by
  obtain ⟨-, rfl⟩ | ⟨hreserved, hfree, t, ht, rfl⟩ := createTable_cases h
  · exact ⟨hdb, rfl⟩
  have hindexes := StoredTable.indexes_ofClause ht
  rw [← (StoredTable.rows_ofClause ht).1] at hreserved hfree
  split
  · next hneeded =>
    simp only [Bool.and_eq_true, Option.isNone_iff_eq_none] at hneeded
    have hother : Text.sameName t.name StoredTable.sequences.name = false := by
      rw [Text.sameName_comm]
      exact sameName_of_isReservedName hreserved isReservedName_sequenceName
    refine named_append hdb [t, .sequences] ?_ ?_ ?_
    · simpa using hother
    · simpa using ⟨hfree, hneeded.2⟩
    · simpa using ⟨hindexes, by simp [StoredTable.sequences]⟩
  · refine named_append hdb [t] ?_ ?_ ?_
    · simp
    · simpa using hfree
    · simpa using hindexes

/-- A change of the table of a name changes one of the tables. -/
theorem Named.exists_changeTable (hdb : db.Named) {name : String} {t : StoredTable}
    (ht : db.table? name = some t) : ∃ before after, db.tables = before ++ t :: after ∧
      ∀ f, (db.changeTable name f).tables = before ++ f t :: after := by
  obtain ⟨hname, before, after, htables, hbefore⟩ := List.find?_eq_some_iff_append.mp ht
  refine ⟨before, after, htables, fun f => ?_⟩
  have hafter : ∀ u ∈ after, Text.sameName u.name name = false := by
    intro u hu
    have hpairwise := hdb.tables
    rw [htables, List.pairwise_append, List.pairwise_cons] at hpairwise
    have hother := hpairwise.2.1.1 u hu
    rw [Bool.eq_false_iff]
    intro hsame
    rw [Text.sameName_comm] at hsame
    rw [Text.sameName_trans hname hsame] at hother
    cases hother
  rw [changeTable, htables, List.map_append, List.map_cons, if_pos hname,
    Text.map_of_sameName fun u hu => by simpa using hbefore u hu, Text.map_of_sameName hafter]

/-- If one table changes, only its indexes can have other names. -/
theorem Named.others_of_changed (hdb : db.Named) {before after : List StoredTable}
    {t t' : StoredTable} (htables : db.tables = before ++ t :: after)
    (hchanged : db'.tables = before ++ t' :: after) (h : t'.NamesOthers) :
    ∀ u ∈ db'.tables, u.NamesOthers := by
  have hothers := hdb.others
  rw [htables, List.forall_mem_append, List.forall_mem_cons] at hothers
  rw [hchanged, List.forall_mem_append, List.forall_mem_cons]
  exact ⟨hothers.1, h, hothers.2.2⟩

/-- An index that is created has a name that none had. -/
theorem named_createIndex (hdb : db.Named) {unique ifMissing : Bool} {name table : String}
    {columns : List String} (h : db.createIndex unique ifMissing name table columns = .ok db') :
    db'.Named ∧ (ifMissing = false → ¬ db.Uses name ∧
      ∃ i : StoredIndex, i.name = name ∧ db'.written.Perm (i :: db.written)) := by
  obtain ⟨t, ht, -, -, ⟨hmissing, rfl⟩ | ⟨hnone, spelled, -, hcreated⟩⟩ := createIndex_cases h
  · exact ⟨hdb, fun hfalse => absurd (hfalse.symm.trans hmissing) Bool.false_ne_true⟩
  have hfree : ¬ db.Uses name := by simp [Uses, hnone]
  obtain ⟨before, after, htables, hchange⟩ := hdb.exists_changeTable ht
  have hafter := hchange fun t => { t with
    indexes := ⟨name, spelled, unique, .statement⟩ :: t.indexes }
  rw [← hcreated] at hafter
  have hperm : db'.written.Perm (⟨name, spelled, unique, .statement⟩ :: db.written) := by
    have hthis : StoredTable.written { t with
        indexes := ⟨name, spelled, unique, .statement⟩ :: t.indexes } =
        ⟨name, spelled, unique, .statement⟩ :: t.written := by simp [StoredTable.written]
    rw [written, written, hafter, htables, List.flatMap_append, List.flatMap_append,
      List.flatMap_cons, List.flatMap_cons, hthis]
    exact List.perm_middle
  refine ⟨⟨?_, hdb.others_of_changed htables hafter fun i hi horigin => ?_, ?_⟩,
    fun _ => ⟨hfree, _, rfl, hperm⟩⟩
  · have hnames := hdb.tables
    rw [htables] at hnames
    rw [hafter]
    simpa [List.pairwise_append, List.pairwise_cons] using hnames
  · rcases List.mem_cons.mp hi with rfl | hi
    · exact absurd rfl horigin
    · exact hdb.others t (by simp [htables]) i hi horigin
  · refine (hperm.pairwise_iff fun {i j} hij => ?_).mpr (List.pairwise_cons.mpr
      ⟨fun i hi => ?_, hdb.written⟩)
    · rwa [Text.sameName_comm]
    · rw [Bool.eq_false_iff]
      intro hsame
      obtain ⟨u, hu, hi⟩ := List.mem_flatMap.mp hi
      rw [Text.sameName_comm] at hsame
      exact hfree (uses_iff_exists.mpr ⟨u, hu, i, (List.mem_filter.mp hi).1, hsame⟩)

/-- An index that is dropped is none any more. -/
theorem named_dropIndex (hdb : db.Named) {ifExists : Bool} {name : String}
    (h : db.dropIndex ifExists name = .ok db') :
    db'.Named ∧ db'.written = db.written.filter fun i => !Text.sameName i.name name := by
  obtain ⟨hfree, -, rfl⟩ | ⟨dropped, -, -, rfl⟩ := dropIndex_cases h
  · refine ⟨hdb, (List.filter_eq_self.mpr fun i hi => ?_).symm⟩
    obtain ⟨t, ht, hi⟩ := List.mem_flatMap.mp hi
    have hmem : i ∈ db'.tables.flatMap StoredTable.indexes :=
      List.mem_flatMap.mpr ⟨t, ht, (List.mem_filter.mp hi).1⟩
    simpa using List.find?_eq_none.mp hfree i hmem
  · have hwritten : written { db with tables := db.tables.map fun t =>
        { t with indexes := t.indexes.filter fun i => !Text.sameName i.name name } } =
          db.written.filter fun i => !Text.sameName i.name name := by
      rw [written, written, List.filter_flatMap, List.flatMap_map]
      refine congrArg (List.flatMap · db.tables) (funext fun t => ?_)
      simp only [StoredTable.written, List.filter_filter]
      exact List.filter_congr fun i _ => Bool.and_comm _ _
    refine ⟨⟨List.pairwise_map.mpr hdb.tables, fun u hu => ?_, ?_⟩, hwritten⟩
    · obtain ⟨t, ht, rfl⟩ := List.mem_map.mp hu
      exact fun i hi => hdb.others t ht i (List.mem_filter.mp hi).1
    · rw [hwritten]
      exact hdb.written.filter _

/-- A table is dropped with its indexes. -/
theorem owners_dropTable {ifExists : Bool} {name : String}
    (h : db.dropTable ifExists name = .ok db') :
    db'.owners = db.owners.filter fun o => !Text.sameName o.1 name := by
  obtain ⟨hnone, -, rfl⟩ | ⟨t, -, -, rfl⟩ := dropTable_cases h
  · refine (List.filter_eq_self.mpr fun o ho => ?_).symm
    obtain ⟨u, hu, rfl⟩ := List.mem_map.mp ho
    simpa using List.find?_eq_none.mp hnone u hu
  · rw [owners_forgetLastNumber, owners, owners, List.filter_map]
    rfl

theorem named_dropTable (hdb : db.Named) {ifExists : Bool} {name : String}
    (h : db.dropTable ifExists name = .ok db') : db'.Named := by
  have howners := owners_dropTable h
  obtain ⟨htables, hothers, hwritten⟩ := named_iff_owners.mp hdb
  refine named_iff_owners.mpr ⟨?_, ?_, ?_⟩
  · rw [howners]
    exact htables.filter _
  · rw [howners]
    exact fun o ho => hothers o (List.mem_filter.mp ho).1
  · refine hwritten.sublist ?_
    rw [written_eq, written_eq, howners]
    exact List.filter_sublist.flatMap _

/-- A table that is renamed has its indexes. -/
theorem named_renameTable (hdb : db.Named) {table name : String}
    (h : db.renameTable table name = .ok db') : db'.Named ∧ db'.written = db.written := by
  obtain ⟨t, ht, -, -, hnone, rfl⟩ := renameTable_cases h
  have hfree : ∀ u ∈ db.tables, Text.sameName u.name name = false := by
    simpa [table?] using hnone
  obtain ⟨before, after, htables, hchange⟩ := hdb.exists_changeTable ht
  have hafter := hchange (·.rename name)
  have hwritten : (db.changeTable table (·.rename name)).written = db.written := by
    rw [written, written, hafter, htables, List.flatMap_append, List.flatMap_append,
      List.flatMap_cons, List.flatMap_cons, StoredTable.written_rename]
  have hrenamed : (db.changeTable table (·.rename name)).Named := by
    refine ⟨?_, hdb.others_of_changed htables hafter (t.namesOthers_rename name),
      hwritten ▸ hdb.written⟩
    have hnames := hdb.tables
    rw [htables] at hnames hfree
    simp only [List.pairwise_append, List.pairwise_cons, List.mem_append, List.mem_cons] at *
    rw [hafter]
    simp only [List.pairwise_append, List.pairwise_cons, List.mem_cons]
    refine ⟨hnames.1, ⟨fun u hu => ?_, hnames.2.1.2⟩, fun u hu v hv => ?_⟩
    · rw [Text.sameName_comm]
      exact hfree u (.inr (.inr hu))
    · rcases hv with rfl | hv
      · exact hfree u (.inl hu)
      · exact hnames.2.2 u hu v (.inr hv)
  have howners : (db.renamed table name t).owners =
      (db.changeTable table (·.rename name)).owners := by
    unfold renamed
    split
    · rw [owners_keepLastNumber, owners_forgetLastNumber]
    · rw [owners_forgetLastNumber]
  obtain ⟨hnamed, hsame⟩ := named_of_owners_eq howners hrenamed
  exact ⟨hnamed, hsame.trans hwritten⟩

/-- **Every statement** leaves tables and indexes names of their own. -/
theorem Step.named (h : db.Step db') (hdb : db.Named) : db'.Named := by
  have hsame : db'.owners = db.owners → db'.Named :=
    fun howners => (named_of_owners_eq howners hdb).1
  cases h with
  | same h => exact h ▸ hdb
  | createTable h => exact (named_createTable hdb h).1
  | createIndex h => exact (named_createIndex hdb h).1
  | createView h => exact hsame (owners_createView h)
  | dropTable h => exact named_dropTable hdb h
  | dropIndex h => exact (named_dropIndex hdb h).1
  | dropView h => exact hsame (owners_dropView h)
  | renameTable h => exact (named_renameTable hdb h).1
  | addColumn h => exact hsame (owners_addColumn hdb h)
  | dropColumn h => exact hsame (owners_dropColumn hdb h)
  | insert h => exact hsame (owners_insert hdb h)
  | update h => exact hsame (owners_update hdb h)
  | delete h => exact hsame (owners_delete h)

end Database

end EntitySql
