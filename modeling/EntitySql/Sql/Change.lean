import EntitySql.Sql.Dialect
import EntitySql.Text.Blank

/-!
# Changes of a schema

A change creates, drops or alters a table, an index, a view or one of their parts, or copies the
rows of a table that is rebuilt. `Change.statements` spells it in a dialect; most changes are one
statement.
-/

namespace EntitySql

/-- Where a column of a rebuilt table takes its value from. -/
inductive CopySource where
  /-- An old column, as it is. -/
  | column (old : String)
  /-- An old column, with the fill literal of the new one in the place of a missing value. -/
  | columnOrFill (old : String) (new : Column)
  /-- The fill literal of the new column. -/
  | fill (new : Column)
deriving DecidableEq, Inhabited, Repr

/-- A change of a schema. -/
inductive Change where
  | createTable (m : Model)
  | createIndex (table : String) (index : Index)
  | dropIndex (table name : String)
  | addUnique (table : String) (unique : Unique)
  | addColumn (table : String) (column : Column)
  | dropColumn (table name : String)
  /-- Gives a column the type and nullability of the model. -/
  | alterColumn (table : String) (column : Column)
  /-- Renames a table that is about to be rebuilt under its old name. -/
  | moveAside (table scratch : String)
  /-- Copies all rows of one table into another, column by column. -/
  | copyRows (scratch table : String) (cells : List (String × CopySource))
  | dropTable (name : String)
  | createView (name definition : String)
  | dropView (name : String)
deriving DecidableEq, Inhabited, Repr

namespace Dialect

/-- The statement that creates a table: one line for each column and each constraint. -/
def createTable (d : Dialect) (m : Model) : String :=
  let definitions := m.columns.map d.columnDefinition ++ m.uniques.map (d.uniqueConstraint m.name)
  s!"CREATE TABLE {d.quote m.name} (\n" ++
    ",\n".intercalate (definitions.map ("    " ++ ·)) ++ "\n)"

/-- The statement that creates an index. -/
def createIndex (d : Dialect) (table : String) (i : Index) : String :=
  s!"CREATE INDEX {d.quote i.name} ON {d.quote table} ({d.quoteAll i.columns})"

/-- The statement that drops an index. -/
def dropIndex (d : Dialect) (table name : String) : String :=
  s!"DROP INDEX IF EXISTS {d.quote name}" ++ clauseIf d.dropsIndexOnTable s!" ON {d.quote table}"

/-- The statement that adds a constraint to a table. -/
def addUnique (d : Dialect) (table : String) (u : Unique) : String :=
  match d.uniqueStyle with
  | .constraint => s!"ALTER TABLE {d.quote table} ADD {d.uniqueConstraint table u}"
  | .index =>
    s!"CREATE UNIQUE INDEX {d.quote (u.nameOn table)} ON {d.quote table} ({d.quoteAll u.columns})"

/-- The statement that adds a column to a table with rows. -/
def addColumn (d : Dialect) (table : String) (c : Column) : String :=
  s!"ALTER TABLE {d.quote table} {d.addColumnKeywords} {d.columnDefinition (d.withFill c)}"

/-- The statement that drops a column. -/
def dropColumn (d : Dialect) (table name : String) : String :=
  s!"ALTER TABLE {d.quote table} DROP COLUMN {d.quote name}"

/-- The statements that alter a column in place, none when the table must be rebuilt instead. -/
def alterColumn? (d : Dialect) (table : String) (c : Column) : Option (List String) :=
  let start := s!"ALTER TABLE {d.quote table} ALTER COLUMN {d.quote c.name}"
  let native := d.nativeType c.type c.size
  match d.alterStyle with
  | .rebuild => none
  | .typeThenNullability =>
    some
      [s!"{start} TYPE {native} USING {d.quote c.name}::{native}",
        start ++ if c.requiresValue then " SET NOT NULL" else " DROP NOT NULL"]
  | .together => some [s!"{start} {native} " ++ if c.requiresValue then "NOT NULL" else "NULL"]

/-- The statement that renames a table. -/
def renameTable (d : Dialect) (table name : String) : String :=
  match d.renameStyle with
  | .procedure => s!"EXEC sp_rename {textLiteral table}, {textLiteral name}"
  | _ => s!"ALTER TABLE {d.quote table} RENAME TO {d.quote name}"

/-- The statements that move a table aside, so that dependent views find the rebuilt one. -/
def moveAside (d : Dialect) (table scratch : String) : List String :=
  match d.renameStyle with
  | .alterBehindViews =>
    ["PRAGMA legacy_alter_table = ON", d.renameTable table scratch,
      "PRAGMA legacy_alter_table = OFF"]
  | _ => [d.renameTable table scratch]

/-- The statement that drops a table. -/
def dropTable (d : Dialect) (name : String) : String := s!"DROP TABLE IF EXISTS {d.quote name}"

/-- The statement that creates a view. -/
def createView (d : Dialect) (name definition : String) : String :=
  s!"CREATE VIEW {d.quote name} AS {Text.trim definition}"

/-- The statement that drops a view. -/
def dropView (d : Dialect) (name : String) : String := s!"DROP VIEW IF EXISTS {d.quote name}"

/-- The expression that gives a column of a rebuilt table its value. -/
def copyExpression (d : Dialect) : CopySource → String
  | .column old => d.quote old
  | .columnOrFill old new => s!"COALESCE({d.quote old}, {d.fillLiteral new})"
  | .fill new => d.fillLiteral new

/-- The statement that copies rows. -/
def copyRows (d : Dialect) (scratch table : String) (cells : List (String × CopySource)) : String :=
  let sources := ", ".intercalate (cells.map fun cell => d.copyExpression cell.2)
  s!"INSERT INTO {d.quote table} ({d.quoteAll (cells.map (·.1))}) SELECT {sources} " ++
    s!"FROM {d.quote scratch}"

end Dialect

/-- The statements of a change. -/
def Change.statements (d : Dialect) : Change → List String
  | createTable m => [d.createTable m]
  | createIndex table index => [d.createIndex table index]
  | dropIndex table name => [d.dropIndex table name]
  | addUnique table unique => [d.addUnique table unique]
  | addColumn table column => [d.addColumn table column]
  | dropColumn table name => [d.dropColumn table name]
  | alterColumn table column => (d.alterColumn? table column).getD []
  | moveAside table scratch => d.moveAside table scratch
  | copyRows scratch table cells => [d.copyRows scratch table cells]
  | dropTable name => [d.dropTable name]
  | createView name definition => [d.createView name definition]
  | dropView name => [d.dropView name]

end EntitySql
