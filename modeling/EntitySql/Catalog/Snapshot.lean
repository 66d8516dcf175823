import EntitySql.Catalog.ViewText
import EntitySql.Database.Catalog

/-!
# Snapshots

`Database.liveObject?` reports the table or view of a name as a `LiveObject`. Names are looked up
with their case, and a name may also belong to an index, which is neither. Most of a table is
reported as it was declared; whether a key is numbered is read off the statement that created the
table, and a unique index over a single column is reported as a property of that column.
-/

namespace EntitySql

namespace StoredTable

/-- The word that numbers a key. -/
def numberingWord : List Char := "AUTOINCREMENT".toList

/-- Whether the statement that created the table holds the word that numbers a key. -/
def mentionsNumbering (t : StoredTable) : Bool :=
  occursIn numberingWord (t.sql.toList.map Char.toUpper)

/-- Whether a column is reported as numbered: it is the only key column, and the statement has the
word. -/
def isNumbered (t : StoredTable) (c : StoredColumn) : Bool :=
  c.inKey && t.mentionsNumbering && (t.columns.countP StoredColumn.inKey == 1)

/-- The indexes that are reported: all but the one of the primary key. -/
def reportedIndexes (t : StoredTable) : List StoredIndex := t.indexes.filter (·.origin != .key)

/-- Whether a unique index covers nothing but the column. -/
def isUniqueAlone (t : StoredTable) (c : StoredColumn) : Bool :=
  t.reportedIndexes.any fun i =>
    i.unique && match i.columns with
      | [only] => Text.sameName c.name only
      | _ => false

/-- The report of a column. -/
def liveColumn (t : StoredTable) (c : StoredColumn) : LiveColumn where
  name := c.name
  nativeType := c.type
  primaryKey := c.inKey
  autoincrement := t.isNumbered c
  unique := t.isUniqueAlone c
  notNull := c.required || c.inKey
  default := c.default.map Prod.snd

/-- The report of a unique index over several columns: named only if a statement created it. -/
def liveUnique (i : StoredIndex) : Unique :=
  ⟨if i.origin = .statement then some i.name else none, i.columns⟩

/-- The report of the table under the name by which it was looked up. -/
def live (t : StoredTable) : LiveTable where
  name := t.name
  columns := t.columns.map t.liveColumn
  indexes :=
    ((t.reportedIndexes.filter (!·.unique)).map fun i => (⟨i.name, i.columns⟩ : Index)).mergeSort
      fun a b => decide (a.name ≤ b.name)
  uniques := (t.reportedIndexes.filter fun i => i.unique && i.columns.length != 1).map liveUnique

end StoredTable

namespace Database

/-- Whether there is a table of exactly that name. -/
def hasTable (db : Database) (name : String) : Bool := db.tables.any (·.name == name)

/-- The report of the object of exactly that name. -/
def liveObject? (db : Database) (name : String) : Except Error (Option LiveObject) :=
  match db.tables.find? (·.name == name), db.views.find? (·.name == name) with
  | some t, _ => .ok (some (.table t.live))
  | none, some v => .ok (some (.view (.ofStatement name v.sql)))
  | none, none =>
    if (db.tables.flatMap StoredTable.indexes).any (·.name == name) then
      .error (.unknownKind "index")
    else .ok none

end Database

end EntitySql
