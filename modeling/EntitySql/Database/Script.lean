import EntitySql.Database.Connection

/-!
# Scripts

A database as a text that rebuilds it: the statements that create its tables, indexes and views,
with one insertion for each row. A database is kept in a file as its script.
-/

namespace EntitySql

/-- A datum as a literal. Infinite numbers are written as ones that exceed every finite one. -/
def Datum.literal : Datum → String
  | null => "NULL"
  | int n => intLiteral n
  | real x => if x.isFinite then x.text else if x.isNegative then "-9e999" else "9e999"
  | text s => textLiteral s
  | blob bytes => blobLiteral bytes

namespace Database

/-- A name in double quotes. -/
def quotedName (name : String) : String := Text.Quoted.enclose '"' '"' name

/-- Values in parentheses. -/
def listText (items : List String) : String := "(" ++ ", ".intercalate items ++ ")"

/-- The statement that inserts a row. -/
def insertion (table : String) (columns : List String) (cells : Record) : String :=
  "INSERT INTO " ++ quotedName table ++ " " ++ listText (columns.map quotedName) ++ " VALUES " ++
    listText (cells.map Datum.literal)

/-- The insertions of the rows of a table. -/
def rowStatements (t : StoredTable) : List String :=
  t.rows.map fun r => insertion t.name (t.columns.map StoredColumn.name) r.cells

/-- The statements that create the indexes of a table, the oldest first. -/
def indexStatements (t : StoredTable) : List String :=
  t.indexes.reverse.filterMap fun i =>
    match indexSql t.name i with
    | .text sql => some sql
    | _ => none

/-- The statements that rebuild a database. What was last given out for numbered keys is set at the
end, because the insertions change it. -/
def statements (db : Database) : List String :=
  let (kept, tables) := db.tables.partition (·.name == sequenceName)
  tables.map StoredTable.sql ++ tables.flatMap rowStatements ++ tables.flatMap indexStatements ++
    db.views.map StoredView.sql ++
    kept.flatMap fun t => ("DELETE FROM " ++ sequenceName) :: rowStatements t

/-- The script of a database. -/
def script (db : Database) : String := String.join (db.statements.map (· ++ ";\n"))

/-- The database of a script. -/
def ofScript? (script : String) : Option Database :=
  match ({} : Connection).execute script [] with
  | (.ok _, c) => some c.database
  | (.error _, _) => none

end Database

end EntitySql
