import EntitySql.Database.Connection
import EntitySql.Proofs.Outcome

/-!
# What statements do

A statement that is not refused has passed all its checks, and does one thing to the database. Each
lemma here opens one statement: it says which checks have been passed and what the database is
afterwards, so that whatever statements preserve can be proved of these changes alone.

## Main definitions

* `StoredTable.bare`, `StoredTable.constrain`: how the table of a definition is made
* `Database.insertStep`: one row of an insertion
* `Database.renamed`: a database in which a table has another name
* `Database.Step`: what one statement makes of a database

## Main results

* `StoredTable.insertRow_cases`, `StoredTable.replaceRow_cases`: one row
* `Database.createTable_cases`, `Database.dropIndex_cases` and the like: one lemma for each
  statement
* `Database.invariant_of_insertSteps`, `Database.invariant_of_updateSteps`: what one row preserves
* `Connection.step_perform`: every statement that is performed is such a step
* `Connection.execute_invariant`: what every statement preserves, a text of statements preserves
-/

namespace EntitySql

namespace StoredTable

variable {t t' : StoredTable}

/-! ### Rows -/

/-- A row that is inserted has a number that no row had. -/
theorem insertRow_cases {last n : Int} {given : Record} (h : t.insertRow last given = .ok (t', n)) :
    t.numberFor last (t.convert given) = .ok n ∧
      t.missing? (t.withNumber n (t.convert given)) = none ∧ t.hasNumber n = false ∧
      t.duplicate? ⟨n, t.withNumber n (t.convert given)⟩ = none ∧
      t' = { t with rows := place ⟨n, t.withNumber n (t.convert given)⟩ t.rows } := by
  rw [insertRow] at h
  obtain ⟨k, hk, h⟩ := exists_of_bind_eq_ok h
  dsimp only at h
  split at h
  · cases h
  next hmissing =>
    obtain ⟨hnumber, h⟩ := of_refuse_eq_ok h
    split at h
    · cases h
    next hduplicate =>
      obtain ⟨rfl, rfl⟩ := Prod.mk.inj (Except.ok.inj h)
      exact ⟨hk, hmissing, by simpa using hnumber, hduplicate, rfl⟩

/-- A row that is given other cells has a number that no other row has. -/
theorem replaceRow_cases {n : Int} {given : Record} (h : t.replaceRow n given = .ok t') :
    ∃ m, hasNumber { t with rows := t.rows.filter (·.number != n) } m = false ∧
      t' = { t with rows := place ⟨m, t.convert given⟩ (t.rows.filter (·.number != n)) } := by
  rw [replaceRow] at h
  split at h
  case h_3 => cases h
  all_goals
    obtain ⟨m, -, h⟩ := exists_of_bind_eq_ok h
    dsimp only at h
    split at h
    · cases h
    obtain ⟨hnumber, h⟩ := of_refuse_eq_ok h
    split at h
    · cases h
    · exact ⟨m, by simpa using hnumber, (Except.ok.inj h).symm⟩

/-! ### Columns -/

/-- A column that is added has a name that none had, and is neither key nor unique. It is the last
one, and each row has one more cell. -/
theorem addColumn_cases {b : Bindings} {c : ColumnClause} (h : t.addColumn b c = .ok t') :
    t.column? c.name = none ∧ (∀ numbered, .key numbered ∉ c.rules) ∧ .unique ∉ c.rules ∧
      ∃ cell, t' = { t with
        columns := t.columns ++ [.ofClause c false]
        rows := t.rows.map fun r => { r with cells := r.cells ++ [cell] } } := by
  rw [addColumn] at h
  obtain ⟨hnew, h⟩ := of_refuse_eq_ok h
  obtain ⟨hkey, h⟩ := of_refuse_eq_ok h
  obtain ⟨hunique, h⟩ := of_refuse_eq_ok h
  obtain ⟨value, -, h⟩ := exists_of_bind_eq_ok h
  simp only [List.any_eq_true, not_exists, not_and] at hkey hunique
  refine ⟨by simpa using hnew, fun numbered hmem => hkey _ hmem rfl, fun hmem => hunique _ hmem rfl,
    ?_⟩
  dsimp only at h
  split at h
  · obtain ⟨-, h⟩ := of_refuse_eq_ok h
    obtain ⟨-, h⟩ := of_refuse_eq_ok h
    exact ⟨_, (Except.ok.inj h).symm⟩
  · exact ⟨_, (Except.ok.inj h).symm⟩

/-- A column that is dropped is one of several of the table, and neither key nor unique. -/
theorem dropColumn_cases {name written : String} (h : t.dropColumn name written = .ok t') :
    ∃ p c, t.position? name = some p ∧
      (t.column? name = some c ∧ c.inKey = false ∧ c.unique = false) ∧ t.columns.length ≠ 1 ∧
      t' = t.dropColumnAt p := by
  rw [dropColumn] at h
  split at h
  · next p c hp hc =>
    obtain ⟨hkey, h⟩ := of_refuse_eq_ok h
    obtain ⟨hunique, h⟩ := of_refuse_eq_ok h
    obtain ⟨hseveral, h⟩ := of_refuse_eq_ok h
    exact ⟨p, c, hp, ⟨hc, by simpa using hkey, by simpa using hunique⟩, hseveral,
      (Except.ok.inj h).symm⟩
  · simp at h

/-! ### Definitions -/

/-- The table of a definition before any constraint is added. -/
def bare (c : TableClause) : StoredTable where
  name := c.name
  writtenName := c.writtenName
  columns := c.columns.map fun column =>
    .ofClause column ((c.keys.flatMap (·.1)).any (Text.sameName column.name))
  tail := c.tail
  numberColumn := c.numberColumn?
  neverReuses := c.keys.any (·.2)

/-- Adds a constraint of a definition, unless it is the key that the number of a row is. -/
def constrain (c : TableClause) (t : StoredTable) (k : IndexOrigin × List String) :
    Except Fault StoredTable := do
  let columns ← t.spell k.2
  if k.1 == .key && c.numberColumn?.isSome then return t
  return t.addConstraint k.1 columns

/-- The table of a definition has the columns and the constraints of the definition. No name is
given to two columns. -/
theorem ofClause_cases {c : TableClause} (h : ofClause c = .ok t) :
    TableClause.repeatedName? (c.columns.map ColumnClause.name) = none ∧
      c.constraints.foldlM (constrain c) (bare c) = .ok t := by
  rw [ofClause] at h
  split at h
  · cases h
  next hnames =>
    obtain ⟨-, h⟩ := of_refuse_eq_ok h
    obtain ⟨-, h⟩ := of_refuse_eq_ok h
    exact ⟨hnames, h⟩

end StoredTable

namespace Database

variable {db db' : Database}

/-! ### Names -/

/-- A name that is claimed is not reserved, and nothing has it, unless it is left to what has it. -/
theorem claimName_cases {ifMissing claimed : Bool} {name written : String}
    (h : db.claimName ifMissing name written = .ok claimed) :
    isReservedName name = false ∧ (claimed = true ∧ ifMissing = true ∨
      claimed = false ∧ db.view? name = none ∧ db.table? name = none ∧ db.index? name = none) := by
  rw [claimName] at h
  obtain ⟨hreserved, h⟩ := of_refuse_eq_ok h
  refine ⟨by simpa using hreserved, ?_⟩
  dsimp only at h
  split at h
  · split at h
    · next hmissing => exact .inl ⟨(Except.ok.inj h).symm, hmissing⟩
    · cases h
  · next hobject =>
    obtain ⟨hindex, h⟩ := of_refuse_eq_ok h
    simp only [Bool.or_eq_true, not_or, Bool.not_eq_true, Option.isSome_eq_false_iff,
      Option.isNone_iff_eq_none] at hobject hindex
    exact .inr ⟨(Except.ok.inj h).symm, hobject.1, hobject.2, hindex⟩

/-- A table that is altered has no reserved name. -/
theorem alterable_cases {table : String} {ofView : Fault} {t : StoredTable}
    (h : db.alterable table ofView = .ok t) :
    db.table? table = some t ∧ isReservedName t.name = false := by
  rw [alterable] at h
  split at h
  · next u hu =>
    obtain ⟨hreserved, h⟩ := of_refuse_eq_ok h
    obtain rfl := Except.ok.inj h
    exact ⟨hu, by simpa using hreserved⟩
  · obtain ⟨-, h⟩ := of_refuse_eq_ok h
    obtain ⟨-, h⟩ := of_refuse_eq_ok h
    cases h

/-- The table that a statement writes to is the one of its name. -/
theorem table?_of_writable {table : String} {t : StoredTable} (h : db.writable table = .ok t) :
    db.table? table = some t := by
  rw [writable] at h
  split at h
  · next u hu =>
    rw [← Except.ok.inj h]
    exact hu
  · split at h
    · obtain ⟨-, -, h⟩ := exists_of_bind_eq_ok h
      cases h
    · cases h

/-! ### Statements that create and drop -/

/-- A table is created behind the others, and that of the last numbers behind it if it is the first
to need it. -/
theorem createTable_cases {c : TableClause} (h : db.createTable c = .ok db') :
    c.ifMissing = true ∧ db' = db ∨
      isReservedName c.name = false ∧ db.table? c.name = none ∧ ∃ t,
        StoredTable.ofClause c = .ok t ∧ db' = { db with
          tables := db.tables ++ t :: if t.neverReuses && (db.table? sequenceName).isNone then
            [.sequences] else [] } := by
  rw [createTable] at h
  obtain ⟨claimed, hclaimed, h⟩ := exists_of_bind_eq_ok h
  obtain ⟨hreserved, ⟨rfl, hmissing⟩ | ⟨rfl, -, hfree, -⟩⟩ := claimName_cases hclaimed
  · exact .inl ⟨hmissing, (Except.ok.inj h).symm⟩
  · obtain ⟨t, ht, h⟩ := exists_of_bind_eq_ok h
    refine .inr ⟨hreserved, hfree, t, ht, ?_⟩
    rw [← Except.ok.inj h, List.append_assoc]
    rfl

/-- An index is created in front of those of its table. -/
theorem createIndex_cases {unique ifMissing : Bool} {name table : String} {columns : List String}
    (h : db.createIndex unique ifMissing name table columns = .ok db') :
    ∃ t, db.table? table = some t ∧ isReservedName t.name = false ∧ isReservedName name = false ∧
      (ifMissing = true ∧ db' = db ∨ db.index? name = none ∧ ∃ spelled,
        t.spell columns = .ok spelled ∧ db' = db.changeTable table fun t => { t with
          indexes := ⟨name, spelled, unique, .statement⟩ :: t.indexes }) := by
  rw [createIndex] at h
  split at h
  · obtain ⟨-, h⟩ := of_refuse_eq_ok h
    obtain ⟨-, h⟩ := of_refuse_eq_ok h
    cases h
  next t ht =>
    obtain ⟨hprotected, h⟩ := of_refuse_eq_ok h
    obtain ⟨hreserved, h⟩ := of_refuse_eq_ok h
    obtain ⟨-, h⟩ := of_refuse_eq_ok h
    refine ⟨t, ht, by simpa using hprotected, by simpa using hreserved, ?_⟩
    split at h
    · split at h
      · next hmissing => exact .inl ⟨hmissing, (Except.ok.inj h).symm⟩
      · cases h
    next hfree =>
      obtain ⟨spelled, hspelled, h⟩ := exists_of_bind_eq_ok h
      obtain ⟨-, h⟩ := of_refuse_eq_ok h
      exact .inr ⟨by simpa using hfree, spelled, hspelled, (Except.ok.inj h).symm⟩

/-- A view that is created leaves the tables. -/
theorem tables_createView {ifMissing : Bool} {name written sql : String} {q : Query}
    (h : db.createView ifMissing name written q sql = .ok db') : db'.tables = db.tables := by
  rw [createView] at h
  obtain ⟨claimed, -, h⟩ := exists_of_bind_eq_ok h
  split at h
  · rw [← Except.ok.inj h]
  · rw [← Except.ok.inj h]

/-- So does one that is dropped. -/
theorem tables_dropView {ifExists : Bool} {name : String}
    (h : db.dropView ifExists name = .ok db') : db'.tables = db.tables := by
  rw [dropView] at h
  split at h
  · rw [← Except.ok.inj h]
  · split at h
    · cases h
    · split at h
      · rw [← Except.ok.inj h]
      · cases h

/-- A table is dropped with its last number. -/
theorem dropTable_cases {ifExists : Bool} {name : String}
    (h : db.dropTable ifExists name = .ok db') :
    db.table? name = none ∧ ifExists = true ∧ db' = db ∨
      ∃ t, db.table? name = some t ∧ isReservedName t.name = false ∧
        db' = forgetLastNumber { db with
          tables := db.tables.filter fun u => !Text.sameName u.name name } t.name := by
  rw [dropTable] at h
  split at h
  · next t ht =>
    obtain ⟨hreserved, h⟩ := of_refuse_eq_ok h
    exact .inr ⟨t, ht, by simpa using hreserved, (Except.ok.inj h).symm⟩
  · next hnone =>
    split at h
    · cases h
    obtain ⟨-, h⟩ := of_refuse_eq_ok h
    split at h
    · next hexists => exact .inl ⟨hnone, hexists, (Except.ok.inj h).symm⟩
    · cases h

/-- An index that is dropped is one that a statement has created. -/
theorem dropIndex_cases {ifExists : Bool} {name : String}
    (h : db.dropIndex ifExists name = .ok db') :
    db.index? name = none ∧ ifExists = true ∧ db' = db ∨
      ∃ i, db.index? name = some i ∧ i.origin = .statement ∧
        db' = { db with tables := db.tables.map fun t =>
          { t with indexes := t.indexes.filter fun i => !Text.sameName i.name name } } := by
  rw [dropIndex] at h
  split at h
  · next i hi =>
    obtain ⟨horigin, h⟩ := of_refuse_eq_ok h
    exact .inr ⟨i, hi, by simpa using horigin, (Except.ok.inj h).symm⟩
  · next hnone =>
    split at h
    · next hexists => exact .inl ⟨hnone, hexists, (Except.ok.inj h).symm⟩
    · cases h

/-! ### Statements that alter -/

/-- The database in which the table of a name has another one, with its last number. -/
def renamed (db : Database) (table name : String) (t : StoredTable) : Database :=
  let renamed := (db.changeTable table (·.rename name)).forgetLastNumber t.name
  if t.neverReuses && db.lastNumber t.name != 0 then
    renamed.keepLastNumber name (db.lastNumber t.name)
  else renamed

/-- A table is given a name that is not reserved and that no table has. -/
theorem renameTable_cases {table name : String} (h : db.renameTable table name = .ok db') :
    ∃ t, db.table? table = some t ∧ isReservedName t.name = false ∧ isReservedName name = false ∧
      db.table? name = none ∧ db' = db.renamed table name t := by
  rw [renameTable] at h
  obtain ⟨htaken, h⟩ := of_refuse_eq_ok h
  obtain ⟨t, ht, h⟩ := exists_of_bind_eq_ok h
  obtain ⟨ht, hprotected⟩ := alterable_cases ht
  obtain ⟨hreserved, h⟩ := of_refuse_eq_ok h
  have hfree : db.table? name = none := by
    simp only [ht, Option.isSome_some, Bool.true_or, Bool.and_true, Bool.or_eq_true, not_or,
      Bool.not_eq_true, Option.isSome_eq_false_iff, Option.isNone_iff_eq_none] at htaken
    exact htaken.1.1
  exact ⟨t, ht, hprotected, by simpa using hreserved, hfree, (Except.ok.inj h).symm⟩

theorem addColumn_cases {b : Bindings} {table : String} {c : ColumnClause}
    (h : db.addColumn b table c = .ok db') :
    ∃ t changed, db.table? table = some t ∧ isReservedName t.name = false ∧
      t.addColumn b c = .ok changed ∧ db' = db.changeTable table fun _ => changed := by
  obtain ⟨t, ht, h⟩ := exists_of_bind_eq_ok h
  obtain ⟨ht, hprotected⟩ := alterable_cases ht
  obtain ⟨changed, hchanged, h⟩ := exists_of_bind_eq_ok h
  exact ⟨t, changed, ht, hprotected, hchanged, (Except.ok.inj h).symm⟩

/-- A column is dropped if no index of the table is over it. -/
theorem dropColumn_cases {table column written : String}
    (h : db.dropColumn table column written = .ok db') :
    ∃ t changed, db.table? table = some t ∧ isReservedName t.name = false ∧
      t.dropColumn column written = .ok changed ∧
      changed.brokenIndex? "after drop column" = none ∧
      db' = db.changeTable table fun _ => changed := by
  obtain ⟨t, ht, h⟩ := exists_of_bind_eq_ok h
  obtain ⟨ht, hprotected⟩ := alterable_cases ht
  obtain ⟨changed, hchanged, h⟩ := exists_of_bind_eq_ok h
  obtain ⟨-, -, h⟩ := exists_of_bind_eq_ok h
  dsimp only at h
  split at h
  · cases h
  next hindexes =>
    obtain ⟨-, -, h⟩ := exists_of_bind_eq_ok h
    exact ⟨t, changed, ht, hprotected, hchanged, hindexes, (Except.ok.inj h).symm⟩

/-! ### Statements that write rows -/

/-- Inserts one more row, and keeps the greatest number. -/
def insertStep (positions : List (Option Nat)) (defaults : Record) (s : StoredTable × Int)
    (row : Record) : Except Fault (StoredTable × Int) := do
  let (t, n) ← s.1.insertRow s.2 (newCells positions defaults row)
  return (t, max s.2 n)

section

variable {P : StoredTable → Prop} {t written : StoredTable}

/-- What each row that is inserted preserves, all of them preserve. -/
theorem invariant_of_insertSteps {positions : List (Option Nat)} {defaults : Record}
    {rows : List Record} {last greatest : Int}
    (hrow : ∀ u u' last n given, u.insertRow last given = .ok (u', n) → P u → P u')
    (h : rows.foldlM (insertStep positions defaults) (t, last) = .ok (written, greatest))
    (ht : P t) : P written := by
  refine foldlM_invariant (d := []) (P := fun _ s => P s.1) (fun done row _ s s' hs hstep => ?_)
    (b := (t, last)) ht h
  obtain ⟨⟨u, n⟩, hinsert, hstep⟩ := exists_of_bind_eq_ok hstep
  rw [← Except.ok.inj hstep]
  exact hrow _ _ _ _ _ hinsert hs

/-- What each row that is given other cells preserves, all of them preserve. -/
theorem invariant_of_updateSteps {cells : StoredRow → Except Fault Record} {rows : List StoredRow}
    (hrow : ∀ u u' n given, u.replaceRow n given = .ok u' → P u → P u')
    (h : rows.foldlM (fun u row => do u.replaceRow row.number (← cells row)) t = .ok written)
    (ht : P t) : P written := by
  refine foldlM_invariant (d := []) (P := fun _ u => P u) (fun done row _ u u' hu hstep => ?_) ht h
  obtain ⟨given, -, hstep⟩ := exists_of_bind_eq_ok hstep
  exact hrow _ _ _ _ hstep hu

end

/-- Rows are inserted one by one, and then the last number is kept. -/
theorem insert_cases {b : Bindings} {table : String} {named : Option (List String)}
    {source : RowSource} {count : Nat} (h : db.insert b table named source = .ok (db', count)) :
    ∃ t rows width positions defaults written greatest, db.table? table = some t ∧
      db.insertedRows b source = .ok (rows, width) ∧
      valuePositions t table named width (isDefaults source) = .ok positions ∧
      defaultsFor t b positions = .ok defaults ∧
      rows.foldlM (insertStep positions defaults) (t, db.lastNumber t.name) =
        .ok (written, greatest) ∧ count = rows.length ∧
      db' = if t.neverReuses && (greatest != db.lastNumber t.name || !db.keepsNumber t.name) then
          (db.changeTable table fun _ => written).keepLastNumber t.name greatest
        else db.changeTable table fun _ => written := by
  rw [insert] at h
  obtain ⟨t, ht, h⟩ := exists_of_bind_eq_ok h
  obtain ⟨⟨rows, width⟩, hrows, h⟩ := exists_of_bind_eq_ok h
  obtain ⟨positions, hpositions, h⟩ := exists_of_bind_eq_ok h
  obtain ⟨defaults, hdefaults, h⟩ := exists_of_bind_eq_ok h
  obtain ⟨⟨written, greatest⟩, hfold, h⟩ := exists_of_bind_eq_ok h
  obtain ⟨hafter, hcount⟩ := Prod.mk.inj (Except.ok.inj h)
  exact ⟨t, rows, width, positions, defaults, written, greatest, table?_of_writable ht, hrows,
    hpositions, hdefaults, hfold, hcount.symm, hafter.symm⟩

/-- The rows for which the condition holds are given other cells one by one. -/
theorem update_cases {b : Bindings} {table : String} {assignments : List (String × Phrase)}
    {condition : Option Phrase} {count : Nat}
    (h : db.update b table assignments condition = .ok (db', count)) :
    ∃ t rows written, ∃ cells : StoredRow → Except Fault Record, db.table? table = some t ∧
      rowsWhere t b condition = .ok rows ∧
      rows.foldlM (fun u row => do u.replaceRow row.number (← cells row)) t = .ok written ∧
      count = rows.length ∧ db' = db.changeTable table fun _ => written := by
  rw [update] at h
  obtain ⟨t, ht, h⟩ := exists_of_bind_eq_ok h
  obtain ⟨assigned, -, h⟩ := exists_of_bind_eq_ok h
  obtain ⟨rows, hrows, h⟩ := exists_of_bind_eq_ok h
  obtain ⟨written, hfold, h⟩ := exists_of_bind_eq_ok h
  obtain ⟨hafter, hcount⟩ := Prod.mk.inj (Except.ok.inj h)
  exact ⟨t, rows, written, _, table?_of_writable ht, hrows, hfold, hcount.symm, hafter.symm⟩

/-- The rows for which the condition holds are told by their numbers. -/
theorem delete_cases {b : Bindings} {table : String} {condition : Option Phrase} {count : Nat}
    (h : db.delete b table condition = .ok (db', count)) :
    ∃ t rows, db.table? table = some t ∧ rowsWhere t b condition = .ok rows ∧
      count = rows.length ∧ db' = db.changeTable table fun u => { u with
        rows := t.rows.filter fun r => !rows.any (·.number == r.number) } := by
  rw [delete] at h
  obtain ⟨t, ht, h⟩ := exists_of_bind_eq_ok h
  obtain ⟨rows, hrows, h⟩ := exists_of_bind_eq_ok h
  obtain ⟨hafter, hcount⟩ := Prod.mk.inj (Except.ok.inj h)
  exact ⟨t, rows, table?_of_writable ht, hrows, hcount.symm, hafter.symm⟩

/-! ### Any statement -/

/-- What one statement makes of a database. -/
inductive Step (db db' : Database) : Prop where
  | same (h : db' = db)
  | createTable {clause : TableClause} (h : db.createTable clause = .ok db')
  | createIndex {unique ifMissing : Bool} {name table : String} {columns : List String}
    (h : db.createIndex unique ifMissing name table columns = .ok db')
  | createView {ifMissing : Bool} {name written sql : String} {q : Query}
    (h : db.createView ifMissing name written q sql = .ok db')
  | dropTable {ifExists : Bool} {name : String} (h : db.dropTable ifExists name = .ok db')
  | dropIndex {ifExists : Bool} {name : String} (h : db.dropIndex ifExists name = .ok db')
  | dropView {ifExists : Bool} {name : String} (h : db.dropView ifExists name = .ok db')
  | renameTable {table name : String} (h : db.renameTable table name = .ok db')
  | addColumn {b : Bindings} {table : String} {c : ColumnClause}
    (h : db.addColumn b table c = .ok db')
  | dropColumn {table column written : String} (h : db.dropColumn table column written = .ok db')
  | insert {b : Bindings} {table : String} {named : Option (List String)} {source : RowSource}
    {count : Nat} (h : db.insert b table named source = .ok (db', count))
  | update {b : Bindings} {table : String} {assignments : List (String × Phrase)}
    {condition : Option Phrase} {count : Nat}
    (h : db.update b table assignments condition = .ok (db', count))
  | delete {b : Bindings} {table : String} {condition : Option Phrase} {count : Nat}
    (h : db.delete b table condition = .ok (db', count))

end Database

namespace Connection

variable {c c' : Connection} {b : Bindings} {command : Command} {o : Outcome}

/-- What a definition changes is the database. -/
theorem of_defined {r : Except Fault Database} (h : c.defined <$> r = .ok (c', o)) :
    r = .ok c'.database := by
  obtain ⟨db, hdb, hafter⟩ := exists_of_map_eq_ok h
  rw [hdb, ← (Prod.mk.inj hafter).1]

/-- So is what a statement that writes rows changes. -/
theorem of_wrote {r : Except Fault (Database × Nat)} (h : c.wrote <$> r = .ok (c', o)) :
    ∃ count, r = .ok (c'.database, count) := by
  obtain ⟨written, hwritten, hafter⟩ := exists_of_map_eq_ok h
  exact ⟨written.2, by rw [hwritten, ← (Prod.mk.inj hafter).1]⟩

/-- **Every statement that is performed** is a step of the database. -/
theorem step_perform (h : c.perform b command = .ok (c', o)) :
    c.database.Step c'.database := by
  cases command with
  | createTable => exact .createTable (of_defined h)
  | createIndex => exact .createIndex (of_defined h)
  | createView => exact .createView (of_defined h)
  | renameTable => exact .renameTable (of_defined h)
  | addColumn => exact .addColumn (of_defined h)
  | dropColumn => exact .dropColumn (of_defined h)
  | drop kind =>
    cases kind with
    | table => exact .dropTable (of_defined h)
    | view => exact .dropView (of_defined h)
    | index => exact .dropIndex (of_defined h)
  | insert =>
    obtain ⟨count, hwritten⟩ := of_wrote h
    exact .insert hwritten
  | update =>
    obtain ⟨count, hwritten⟩ := of_wrote h
    exact .update hwritten
  | delete =>
    obtain ⟨count, hwritten⟩ := of_wrote h
    exact .delete hwritten
  | query q =>
    obtain ⟨r, -, hanswer⟩ := exists_of_bind_eq_ok h
    rw [← (Prod.mk.inj (Except.ok.inj hanswer)).1]
    exact .same rfl
  | askLegacyRename | setLegacyRename =>
    rw [← (Prod.mk.inj (Except.ok.inj h)).1]
    exact .same rfl

/-- A statement that is run was performed. -/
theorem perform_of_run (h : c.run b command = .ok (c', o)) :
    c.perform b command = .ok (c', o) := by
  obtain ⟨⟨after, o'⟩, hperform, h⟩ := exists_of_bind_eq_ok h
  dsimp only at h
  split at h
  · cases h
  · rw [hperform, ← Except.ok.inj h]

/-- **What every statement preserves, a text of statements preserves**, whether or not one of them
is refused. -/
theorem execute_invariant {P : Connection → Prop}
    (hrun : ∀ {c c' b command o}, P c → c.run b command = .ok (c', o) → P c') (hc : P c)
    (sql : String) (params : List Value) : P (c.execute sql params).2 := by
  have hall : ∀ (b : Bindings) (n : Nat) (c : Connection) (u : Unread) (o : Outcome),
      P c → P (c.runAll b u o n).2 := by
    intro b n
    induction n with
    | zero => exact fun c u o hc => hc
    | succ n ih =>
      intro c u o hc
      rw [runAll]
      split
      · exact hc
      · exact hc
      · split
        · exact hc
        next hafter => exact ih _ _ _ (hrun hc hafter)
  exact hall _ _ _ _ _ hc

end Connection

end EntitySql
