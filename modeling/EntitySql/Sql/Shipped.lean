import EntitySql.Sql.Affinity
import EntitySql.Sql.Dialect

/-!
# The shipped dialects

SQLite, PostgreSQL and SQL Server.
-/

namespace EntitySql

namespace Sqlite

/-- The native name of a type: one name for each storage class. -/
def nativeType : ColumnType → String
  | .bool | .int8 | .int16 | .int32 | .int64 | .uint8 | .uint16 | .uint32 | .uint64 => "INTEGER"
  | .float32 | .float64 | .decimal => "REAL"
  | .bytes => "BLOB"
  | .text | .char | .dateTime | .date | .time | .uuid | .custom _ => "TEXT"

/-- An offset needs a limit in front of it, and `-1` is no limit. -/
def paging (limit offset : Option UInt64) (_ordered : Bool) : String :=
  match limit, offset with
  | none, none => ""
  | some l, none => s!"LIMIT {l.toNat}"
  | none, some o => s!"LIMIT -1 OFFSET {o.toNat}"
  | some l, some o => s!"LIMIT {l.toNat} OFFSET {o.toNat}"

/-- Deletes all rows and, to reset the numbering, the entry of the table among the sequences. -/
def truncate (table : String) (resetSequence : Bool) : List String :=
  ("DELETE FROM " ++ Text.Quoted.enclose '"' '"' table) ::
    if resetSequence then ["DELETE FROM sqlite_sequence WHERE name = " ++ textLiteral table] else []

end Sqlite

/-- SQLite. Columns cannot be altered and constraints not added; a rename would change dependent
views, which is switched off while a table is moved aside. -/
def Dialect.sqlite : Dialect where
  name := "sqlite"
  nativeType := fun type _ => Sqlite.nativeType type
  normalType := fun native => (Affinity.ofType native).name
  toBound := Value.boolAsInt
  autoincrementKeyword := " AUTOINCREMENT"
  paging := Sqlite.paging
  uniqueStyle := .index
  renameStyle := .alterBehindViews
  rebuildRule := .allButPlainColumns
  truncate := Sqlite.truncate
  tableExistsQuery := "SELECT COUNT(*) FROM sqlite_master WHERE type = 'table' AND name = ?"
  objectKindQuery := "SELECT type, sql FROM sqlite_master WHERE name = ?"

namespace Postgres

/-- The native name of a type; only texts have a size. -/
def nativeType (type : ColumnType) (size : Option UInt32) : String :=
  match type with
  | .bool => "BOOLEAN"
  | .int8 | .int16 | .uint8 => "SMALLINT"
  | .int32 | .uint16 => "INTEGER"
  | .int64 | .uint32 | .uint64 => "BIGINT"
  | .float32 => "REAL"
  | .float64 => "DOUBLE PRECISION"
  | .decimal => "NUMERIC"
  | .text | .custom _ =>
    match size with
    | some n => s!"VARCHAR({n.toNat})"
    | none => "TEXT"
  | .char => "CHAR(1)"
  | .bytes => "BYTEA"
  | .dateTime => "TIMESTAMP"
  | .date => "DATE"
  | .time => "TIME"
  | .uuid => "UUID"

/-- The one name of a type that has several. -/
def normalType (native : String) : String :=
  match baseType native with
  | "CHARACTER VARYING" | "VARCHAR" | "TEXT" => "TEXT"
  | "INT" | "INT4" | "SERIAL" | "SERIAL4" => "INTEGER"
  | "INT8" | "BIGSERIAL" | "SERIAL8" => "BIGINT"
  | "INT2" | "SMALLSERIAL" => "SMALLINT"
  | "FLOAT8" | "FLOAT" => "DOUBLE PRECISION"
  | "FLOAT4" => "REAL"
  | "BOOL" => "BOOLEAN"
  | "DECIMAL" => "NUMERIC"
  | "CHARACTER" | "BPCHAR" => "CHAR"
  | "TIMESTAMP WITHOUT TIME ZONE" => "TIMESTAMP"
  | "TIME WITHOUT TIME ZONE" => "TIME"
  | other => other

/-- The type of a numbered key, by the width of its integer. -/
def serialType : ColumnType → String
  | .int64 | .uint32 | .uint64 => "BIGSERIAL"
  | .int8 | .int16 | .uint8 => "SMALLSERIAL"
  | _ => "SERIAL"

/-- Truncates the table and restarts its numbering if asked to. -/
def truncate (table : String) (resetSequence : Bool) : List String :=
  ["TRUNCATE TABLE " ++ Text.Quoted.enclose '"' '"' table ++
    if resetSequence then " RESTART IDENTITY" else ""]

end Postgres

/-- PostgreSQL. -/
def Dialect.postgres : Dialect where
  name := "postgresql"
  marker := fun n => s!"${n}"
  nativeType := Postgres.nativeType
  normalType := Postgres.normalType
  defaultLiteral := Default.literalWithBool
  keyStyle := .serialType
  serialType := Postgres.serialType
  alterStyle := .typeThenNullability
  truncate := Postgres.truncate
  tableExistsQuery :=
    "SELECT COUNT(*) FROM information_schema.tables " ++
    "WHERE table_schema = current_schema() AND table_type = 'BASE TABLE' " ++
    "AND table_name = $1"
  objectKindQuery :=
    "SELECT t.table_type, v.view_definition FROM information_schema.tables t " ++
    "LEFT JOIN information_schema.views v " ++
    "ON v.table_schema = t.table_schema AND v.table_name = t.table_name " ++
    "WHERE t.table_schema = current_schema() AND t.table_name = $1"

namespace SqlServer

/-- The native name of a type; only texts have a size. -/
def nativeType (type : ColumnType) (size : Option UInt32) : String :=
  match type with
  | .bool => "BIT"
  | .uint8 => "TINYINT"
  | .int8 | .int16 => "SMALLINT"
  | .int32 | .uint16 => "INT"
  | .int64 | .uint32 | .uint64 => "BIGINT"
  | .float32 => "REAL"
  | .float64 => "FLOAT"
  | .decimal => "DECIMAL(18, 6)"
  | .text | .custom _ =>
    match size with
    | some n => s!"NVARCHAR({n.toNat})"
    | none => "NVARCHAR(MAX)"
  | .char => "NCHAR(1)"
  | .bytes => "VARBINARY(MAX)"
  | .dateTime => "DATETIME2"
  | .date => "DATE"
  | .time => "TIME"
  | .uuid => "UNIQUEIDENTIFIER"

/-- The one name of a type that has several. -/
def normalType (native : String) : String :=
  match baseType native with
  | "NVARCHAR" | "VARCHAR" | "NTEXT" | "TEXT" => "NVARCHAR"
  | "NCHAR" | "CHAR" => "NCHAR"
  | "INTEGER" => "INT"
  | "DOUBLE PRECISION" => "FLOAT"
  | "DATETIME" => "DATETIME2"
  | "NUMERIC" => "DECIMAL"
  | other => other

/-- Rows are skipped and fetched in an order, so a query without one is ordered by nothing. -/
def paging (limit offset : Option UInt64) (ordered : Bool) : String :=
  if limit.isNone && offset.isNone then ""
  else
    (if ordered then "" else "ORDER BY (SELECT NULL) ") ++
      s!"OFFSET {(offset.getD 0).toNat} ROWS" ++
      match limit with
      | some l => s!" FETCH NEXT {l.toNat} ROWS ONLY"
      | none => ""

/-- Truncation restarts the numbering, deletion keeps it. -/
def truncate (table : String) (resetSequence : Bool) : List String :=
  [(if resetSequence then "TRUNCATE TABLE " else "DELETE FROM ") ++
    Text.Quoted.enclose '[' ']' table]

end SqlServer

/-- SQL Server. -/
def Dialect.sqlServer : Dialect where
  name := "mssql"
  openQuote := '['
  closeQuote := ']'
  marker := fun n => s!"@p{n}"
  nativeType := SqlServer.nativeType
  normalType := SqlServer.normalType
  toBound := Value.boolAsInt
  keyStyle := .identity
  paging := SqlServer.paging
  addColumnKeywords := "ADD"
  alterStyle := .together
  dropsIndexOnTable := true
  renameStyle := .procedure
  truncate := SqlServer.truncate
  tableExistsQuery :=
    "SELECT COUNT(*) FROM INFORMATION_SCHEMA.TABLES " ++
    "WHERE TABLE_TYPE = 'BASE TABLE' AND TABLE_NAME = @p1"
  objectKindQuery :=
    "SELECT CASE o.type WHEN 'U' THEN 'table' WHEN 'V' THEN 'view' ELSE o.type_desc END, " ++
    "OBJECT_DEFINITION(o.object_id) FROM sys.objects o WHERE o.name = @p1"

/-- The dialects that the library comes with. -/
def Dialect.shipped : List Dialect := [.sqlite, .postgres, .sqlServer]

end EntitySql
