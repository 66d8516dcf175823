import EntitySql.Database.Table

/-!
# Databases

A database is its tables and views. A name stands for one table, view or index, whatever the case of
its letters. The query of a view is answered when the view is asked, so a view shows what its tables
hold now, and a view whose table is gone is only refused then.
-/

namespace EntitySql

/-- A view. -/
structure StoredView where
  /-- The name of the view. -/
  name : String
  /-- The query that it stands for. -/
  query : Query
  /-- The statement that creates the view. -/
  sql : String
deriving Inhabited, Repr

/-- The content of a database. -/
structure Database where
  /-- The tables, in the order of their creation. -/
  tables : List StoredTable := []
  /-- The views, in the order of their creation. -/
  views : List StoredView := []
deriving Inhabited, Repr

namespace Database

/-- The table that keeps the last numbers given out. -/
def sequenceName : String := "sqlite_sequence"

/-- The names of the relation that lists the objects of a database. -/
def catalogNames : List String := ["sqlite_master", "sqlite_schema"]

/-- Whether a name stands for the list of objects. -/
def isCatalogName (name : String) : Bool := catalogNames.any (Text.sameName · name)

/-- The table of a name. -/
def table? (db : Database) (name : String) : Option StoredTable :=
  db.tables.find? fun t => Text.sameName t.name name

/-- The view of a name. -/
def view? (db : Database) (name : String) : Option StoredView :=
  db.views.find? fun v => Text.sameName v.name name

/-- The index of a name. -/
def index? (db : Database) (name : String) : Option StoredIndex :=
  (db.tables.flatMap StoredTable.indexes).find? fun i => Text.sameName i.name name

/-- The number of tables, views and indexes. -/
def objectCount (db : Database) : Nat :=
  db.tables.length + db.views.length + (db.tables.flatMap StoredTable.indexes).length

/-- The database with the table of a name changed. -/
def changeTable (db : Database) (name : String) (f : StoredTable → StoredTable) : Database :=
  { db with tables := db.tables.map fun t => if Text.sameName t.name name then f t else t }

/-- The database with no rows in any table. -/
def withoutRows (db : Database) : Database :=
  { db with tables := db.tables.map fun t => { t with rows := [] } }

/-- The statement that creates an index; an index of a constraint has none. -/
def indexSql (table : String) (i : StoredIndex) : Datum :=
  if i.origin = .statement then
    let quote (s : String) : String := Text.Quoted.enclose '"' '"' s
    .text ((if i.unique then "CREATE UNIQUE INDEX " else "CREATE INDEX ") ++ quote i.name ++
      " ON " ++ quote table ++ " (" ++ ", ".intercalate (i.columns.map quote) ++ ")")
  else .null

/-- A row of the list of objects. -/
def catalogRow (kind name table : String) (sql : Datum) : Record :=
  [.text kind, .text name, .text table, .int 0, sql]

/-- The list of the objects of a database: the kind, the name, the table, and the statement of
each. -/
def catalog (db : Database) (as : String) : Relation where
  headings :=
    [⟨as, "type", some .text⟩, ⟨as, "name", some .text⟩, ⟨as, "tbl_name", some .text⟩,
      ⟨as, "rootpage", some .integer⟩, ⟨as, "sql", some .text⟩]
  rows :=
    db.tables.flatMap (fun t =>
      catalogRow "table" t.name t.name (.text t.sql) ::
        t.indexes.reverse.map fun i => catalogRow "index" i.name t.name (indexSql t.name i)) ++
      db.views.map fun v => catalogRow "view" v.name v.name (.text v.sql)

/-- The relation of a name under an alias, through at most `depth` views. A table that is missing
from a view is named with its schema. -/
def relation (db : Database) (b : Bindings) (inView : Bool) (name as : String) :
    Nat → Except Fault Relation
  | 0 => .error (.circularView (((db.view? name).map StoredView.name).getD name))
  | depth + 1 =>
    if isCatalogName name then .ok (db.catalog as)
    else match db.table? name, db.view? name with
      | some t, _ => .ok (t.relation as)
      | none, some v => do
        let source ← match v.query.source with
          | none => pure ⟨[], [[]]⟩
          | some (inner, given) => db.relation b true inner (given.getD inner) depth
        let r ← v.query.run b source
        return { r with headings := r.headings.map fun h => { h with table := as } }
      | none, none => .error (.missingTable (if inView then "main." ++ name else name))

/-- The answer to a query. Rows are taken by their numbers, and sorting keeps rows with one key in
place. Where the query leaves an order open, SQLite may have another one, by an index or a limit;
what is asked of every order is asked of `Database.answerBy`, with which this is the answer in
order. -/
def answer (db : Database) (b : Bindings) (q : Query) : Except Fault Relation := do
  let source ← match q.source with
    | none => pure ⟨[], [[]]⟩
    | some (name, given) =>
      db.relation b false name (given.getD name) (db.views.length + 1)
  q.run b source

/-- Refuses a view that cannot be answered, whatever rows its tables have. -/
def requireView (db : Database) (name : String) : Except Fault Unit := do
  let _ ← db.withoutRows.relation ⟨[], .epoch⟩ true name name (db.views.length + 1)

/-- The first view that cannot be answered, with the reason. -/
def brokenView? (db : Database) : Option (String × Fault) :=
  db.views.findSome? fun v =>
    match db.requireView v.name with
    | .ok _ => none
    | .error fault => some (v.name, fault)

/-- The row that keeps the last number given out for a table. -/
def numberRow? (db : Database) (table : String) : Option StoredRow :=
  let rows := ((db.table? sequenceName).map StoredTable.rows).getD []
  rows.find? fun r => r.cells.head? == some (.text table)

/-- Whether a last number is kept for a table. -/
def keepsNumber (db : Database) (table : String) : Bool := (db.numberRow? table).isSome

/-- The last number given out for a table, 0 if none is kept. -/
def lastNumber (db : Database) (table : String) : Int :=
  match db.numberRow? table with
  | some r => ((r.cells[1]?).getD Datum.null).toInt64.toInt
  | none => 0

/-- Keeps the last number given out for a table. -/
def keepLastNumber (db : Database) (table : String) (n : Int) : Database :=
  let entry : Record := [.text table, .int (Int64.ofInt n)]
  db.changeTable sequenceName fun t =>
    if t.rows.any fun r => r.cells.head? == some (.text table) then
      { t with rows := t.rows.map fun r =>
          if r.cells.head? == some (.text table) then { r with cells := entry } else r }
    else
      let number := (t.rows.getLast?.map fun r => r.number + 1).getD 1
      { t with rows := t.rows ++ [⟨number, entry⟩] }

end Database

end EntitySql
