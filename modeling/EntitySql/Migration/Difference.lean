import EntitySql.Catalog.Live
import EntitySql.Sql.Dialect

/-!
# Differences

What separates a live table from its model: columns, indexes and constraints that only one side has,
and columns and indexes that both have in different form. Columns and indexes are matched by name
ignoring ASCII case, constraints by their set of columns. Declared defaults and the order of columns
are not compared.
-/

namespace EntitySql

/-- How a single column differs. -/
inductive ColumnChange where
  /-- Only the model has the column. -/
  | missing (model : Column)
  /-- Only the table has the column. -/
  | obsolete (live : LiveColumn)
  /-- Both have it, with another type, key, uniqueness or nullability. -/
  | altered (model : Column) (live : LiveColumn)
deriving DecidableEq, Inhabited, Repr

/-- What separates a live table from its model. -/
structure Difference where
  /-- The name of the table in the model. -/
  table : String
  /-- The differing columns, those that only the table has first. -/
  columns : List ColumnChange
  /-- The indexes that only the model has. -/
  missingIndexes : List Index
  /-- The indexes that only the table has. -/
  obsoleteIndexes : List Index
  /-- The model's version of the indexes with other columns in the table. -/
  alteredIndexes : List Index
  /-- The constraints that only the model has. -/
  missingUniques : List Unique
  /-- The constraints that only the table has. -/
  obsoleteUniques : List Unique
  /-- The table that was compared. -/
  live : LiveTable
deriving DecidableEq, Inhabited, Repr

/-- Whether a column of the model and its live counterpart differ. -/
def Column.differs (d : Dialect) (c : Column) (live : LiveColumn) : Bool :=
  !d.sameType (d.nativeType c.type c.size) live.nativeType ||
    c.primaryKey != live.primaryKey ||
    c.autoincrement != live.autoincrement ||
    c.rejectsDuplicates != live.rejectsDuplicates ||
    c.requiresValue != live.requiresValue

/-- Whether a constraint over the same set of columns is among the given ones. -/
def Unique.isAmong (u : Unique) (us : List Unique) : Bool :=
  us.any fun v => v.columnSet == u.columnSet

namespace Difference

/-- The change of a column of the table: none unless the model lacks it. -/
def ofLiveColumn (m : Model) (c : LiveColumn) : Option ColumnChange :=
  if (m.column? c.name).isNone then some (.obsolete c) else none

/-- The change of a column of the model. -/
def ofColumn (d : Dialect) (live : LiveTable) (c : Column) : Option ColumnChange :=
  match live.column? c.name with
  | none => some (.missing c)
  | some existing => if c.differs d existing then some (.altered c existing) else none

/-- Whether the table has the index of a model with other columns. -/
def isAltered (live : LiveTable) (i : Index) : Bool :=
  match live.index? i.name with
  | none => false
  | some existing => !Text.sameNames i.columns existing.columns

/-- Compares a live table with its model. -/
def diagnose (d : Dialect) (m : Model) (live : LiveTable) : Difference where
  table := m.name
  columns := live.columns.filterMap (ofLiveColumn m) ++ m.columns.filterMap (ofColumn d live)
  missingIndexes := m.indexes.filter fun i => (live.index? i.name).isNone
  obsoleteIndexes := live.indexes.filter fun i =>
    !m.indexes.any fun j => Text.sameName j.name i.name
  alteredIndexes := m.indexes.filter (isAltered live)
  missingUniques := m.uniques.filter fun u => !u.isAmong live.uniques
  obsoleteUniques := live.uniques.filter fun u => !u.isAmong m.uniques
  live := live

/-- Whether model and table agree. -/
def isEmpty (x : Difference) : Bool :=
  x.columns.isEmpty && x.missingIndexes.isEmpty && x.obsoleteIndexes.isEmpty &&
    x.alteredIndexes.isEmpty && x.missingUniques.isEmpty && x.obsoleteUniques.isEmpty

/-- The columns that only the model has. -/
def missing (x : Difference) : List Column :=
  x.columns.filterMap fun
    | .missing c => some c
    | _ => none

/-- The columns that only the table has. -/
def obsolete (x : Difference) : List LiveColumn :=
  x.columns.filterMap fun
    | .obsolete c => some c
    | _ => none

/-- The columns that both have in different form. -/
def altered (x : Difference) : List (Column × LiveColumn) :=
  x.columns.filterMap fun
    | .altered c live => some (c, live)
    | _ => none

/-- Whether an altered column changes its key, numbering or uniqueness. -/
def changesKeyOrUniqueness (change : Column × LiveColumn) : Bool :=
  change.1.primaryKey != change.2.primaryKey || change.1.autoincrement != change.2.autoincrement ||
    change.1.rejectsDuplicates != change.2.rejectsDuplicates

/-- Whether a default is an expression. -/
def isExpression : Option Default → Bool
  | some (.expression _) => true
  | _ => false

/-- Whether the differences can only be removed by rebuilding the table. Constraints that only the
table has never force it. -/
def requiresRebuild (d : Dialect) (x : Difference) : Bool :=
  match d.rebuildRule with
  | .keysAndUniqueness =>
    x.missing.any (fun c => c.primaryKey || c.autoincrement) ||
      x.altered.any (fun change => changesKeyOrUniqueness change || d.alterStyle == .rebuild)
  | .allButPlainColumns =>
    !x.altered.isEmpty || !x.missingUniques.isEmpty ||
      x.missing.any (fun c => c.primaryKey || c.unique || isExpression c.default) ||
      x.obsolete.any (fun c => c.primaryKey || c.unique || x.live.isIndexed c.name)

end Difference

end EntitySql
