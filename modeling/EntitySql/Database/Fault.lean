/-!
# Faults

Why a database refuses a statement. Each fault is a cause; `Fault.code` is the number by which a
database tells its class, `Fault.message` its wording.
-/

namespace EntitySql

/-- What a name already stands for. -/
inductive NameOwner where
  | table
  | index
deriving DecidableEq, Inhabited, Repr

/-- What cannot be done to a table that the database keeps for itself. -/
inductive ProtectedAct where
  | drop
  | alter
  | index
deriving DecidableEq, Inhabited, Repr

/-- A refusal of a statement. -/
inductive Fault where
  /-- A token does not continue a statement. -/
  | unexpectedToken (text : String)
  /-- The text ends within a statement. -/
  | unfinished
  /-- Characters form no token. -/
  | illegalToken (text : String)
  /-- A table does not exist. -/
  | missingTable (name : String)
  /-- A view does not exist. -/
  | missingView (name : String)
  /-- An index does not exist. -/
  | missingIndex (name : String)
  /-- A name is no column. -/
  | missingColumn (name : String)
  /-- A table does not have the column that a row is inserted into. -/
  | columnNotInTable (table column : String)
  /-- All columns are asked for, but there is no table. -/
  | noTable
  /-- A function does not exist. -/
  | unknownFunction (name : String)
  /-- A function does not take that many arguments. -/
  | wrongArity (name : String)
  /-- An aggregate stands in a command that combines no rows, or within another aggregate. -/
  | barredAggregate (name : String)
  /-- The alias of an aggregate stands within another aggregate. -/
  | aliasedAggregate (name : String)
  /-- An aggregate stands where the rows are not combined yet. -/
  | misplacedAggregate (name : String)
  /-- Rows are grouped by an aggregate. -/
  | groupedAggregate
  /-- Groups are to meet a condition, but the query has none. -/
  | conditionWithoutGroups
  /-- Rows are numbered where they are not gathered yet. -/
  | barredWindow (name : String)
  /-- The alias of a row number stands where the rows are not gathered yet. -/
  | aliasedWindow (name : String)
  /-- A list stands where there is room for one value. -/
  | misusedRow
  /-- A list is looked for among something that has another number of values. -/
  | memberWidth (found expected : Nat)
  /-- The number that a term of the grouping or the order consists of is no column. -/
  | termOutOfRange (grouping : Bool) (position columns : Nat)
  /-- A view depends on itself. -/
  | circularView (name : String)
  /-- A table or view of the name exists. -/
  | objectExists (isView : Bool) (written : String)
  /-- An index of the name exists. -/
  | indexExists (name : String)
  /-- The name belongs to an object of another kind. -/
  | nameTaken (owner : NameOwner) (name : String)
  /-- A table cannot get the name of another table or index. -/
  | renameTaken (name : String)
  /-- The name is kept for the database itself. -/
  | reservedName (name : String)
  /-- Two columns have the same name. -/
  | duplicateColumn (name : String)
  /-- A table has two primary keys. -/
  | severalKeys (table : String)
  /-- A key is numbered that is not an integer key. -/
  | numberedOtherKey
  /-- A view was to be dropped as a table. -/
  | dropViewInstead (name : String)
  /-- A table was to be dropped as a view. -/
  | dropTableInstead (name : String)
  /-- The table is kept by the database itself. -/
  | protectedTable (name : String) (act : ProtectedAct)
  /-- A view cannot be indexed. -/
  | indexOnView
  /-- An index belongs to a constraint. -/
  | indexOfConstraint
  /-- A view cannot be renamed. -/
  | alteredView (name : String)
  /-- A view cannot get a column. -/
  | columnAddedToView
  /-- A view cannot lose a column. -/
  | columnDroppedFromView (name : String)
  /-- The rows of a view cannot be written. -/
  | writtenView (name : String)
  /-- A key column cannot be added. -/
  | keyColumnAdded
  /-- A unique column cannot be added. -/
  | uniqueColumnAdded
  /-- Existing rows would lack a required value. -/
  | requiredColumnAdded
  /-- Existing rows cannot get a default that varies. -/
  | varyingDefaultAdded
  /-- A key column cannot be dropped. -/
  | keyColumnDropped (name : String)
  /-- A unique column cannot be dropped. -/
  | uniqueColumnDropped (name : String)
  /-- The only column cannot be dropped. -/
  | lastColumnDropped (name : String)
  /-- An object of the catalog does not fit the others. -/
  | brokenObject (kind name occasion : String) (reason : Fault)
  /-- A row has another number of values than the named columns. -/
  | valuesForColumns (values columns : Nat)
  /-- A row has another number of values than the table has columns. -/
  | valuesForTable (table : String) (columns values : Nat)
  /-- The rows of one statement differ in length. -/
  | raggedRows
  /-- A required value is missing. -/
  | missingValue (table column : String)
  /-- A value occurs twice that must be unique. -/
  | duplicateValue (ofKey : Bool) (table : String) (columns : List String)
  /-- A value is not of the type that is needed. -/
  | mismatch
  /-- No number is left for a new row. -/
  | full
  /-- A result exceeds the integers. -/
  | overflow
  /-- The database can only be read. -/
  | readOnly
deriving DecidableEq, Inhabited, Repr

namespace Fault

/-- The number of a fault's class. -/
def code : Fault → Nat
  | missingValue .. => 1299
  | duplicateValue true .. => 1555
  | duplicateValue false .. => 2067
  | full => 13
  | mismatch => 20
  | readOnly => 8
  | _ => 1

/-- A position in words: 1st, 2nd, 3rd, 4th. -/
def ordinal (n : Nat) : String :=
  let ending :=
    if n / 10 % 10 = 1 then "th"
    else match n % 10 with
      | 1 => "st"
      | 2 => "nd"
      | 3 => "rd"
      | _ => "th"
  toString n ++ ending

/-- A text in double quotes. -/
def inQuotes (s : String) : String := "\"" ++ s ++ "\""

/-- The words that begin a grouping or an order. -/
def clause (grouping : Bool) : String := if grouping then "GROUP BY" else "ORDER BY"

/-- The word for a number of terms. -/
def terms (n : Nat) : String := if n > 1 then "terms" else "term"

/-- The wording of a fault. -/
def message : Fault → String
  | unexpectedToken text => s!"near {inQuotes text}: syntax error"
  | unfinished => "incomplete input"
  | illegalToken text => s!"unrecognized token: {inQuotes text}"
  | missingTable name => s!"no such table: {name}"
  | missingView name => s!"no such view: {name}"
  | missingIndex name => s!"no such index: {name}"
  | missingColumn name => s!"no such column: {name}"
  | columnNotInTable table column => s!"table {table} has no column named {column}"
  | noTable => "no tables specified"
  | unknownFunction name => s!"no such function: {name}"
  | wrongArity name => s!"wrong number of arguments to function {name}()"
  | barredAggregate name => s!"misuse of aggregate function {name}()"
  | aliasedAggregate name => s!"misuse of aliased aggregate {name}"
  | misplacedAggregate name => s!"misuse of aggregate: {name}()"
  | groupedAggregate => "aggregate functions are not allowed in the GROUP BY clause"
  | conditionWithoutGroups => "HAVING clause on a non-aggregate query"
  | barredWindow name => s!"misuse of window function {name}()"
  | aliasedWindow name => s!"misuse of aliased window function {name}"
  | misusedRow => "row value misused"
  | memberWidth found expected =>
    s!"IN(...) element has {found} {terms found} - expected {expected}"
  | termOutOfRange grouping position columns =>
    s!"{ordinal position} {clause grouping} term out of range - should be between 1 and {columns}"
  | circularView name => s!"view {name} is circularly defined"
  | objectExists isView written =>
    (if isView then "view " else "table ") ++ s!"{written} already exists"
  | indexExists name => s!"index {name} already exists"
  | nameTaken .table name => s!"there is already a table named {name}"
  | nameTaken .index name => s!"there is already an index named {name}"
  | renameTaken name => s!"there is already another table or index with this name: {name}"
  | reservedName name => s!"object name reserved for internal use: {name}"
  | duplicateColumn name => s!"duplicate column name: {name}"
  | severalKeys table => s!"table {inQuotes table} has more than one primary key"
  | numberedOtherKey => "AUTOINCREMENT is only allowed on an INTEGER PRIMARY KEY"
  | dropViewInstead name => s!"use DROP VIEW to delete view {name}"
  | dropTableInstead name => s!"use DROP TABLE to delete table {name}"
  | protectedTable name .drop => s!"table {name} may not be dropped"
  | protectedTable name .alter => s!"table {name} may not be altered"
  | protectedTable name .index => s!"table {name} may not be indexed"
  | indexOnView => "views may not be indexed"
  | indexOfConstraint => "index associated with UNIQUE or PRIMARY KEY constraint cannot be dropped"
  | alteredView name => s!"view {name} may not be altered"
  | columnAddedToView => "Cannot add a column to a view"
  | columnDroppedFromView name => s!"cannot drop column from view {inQuotes name}"
  | writtenView name => s!"cannot modify {name} because it is a view"
  | keyColumnAdded => "Cannot add a PRIMARY KEY column"
  | uniqueColumnAdded => "Cannot add a UNIQUE column"
  | requiredColumnAdded => "Cannot add a NOT NULL column with default value NULL"
  | varyingDefaultAdded => "Cannot add a column with non-constant default"
  | keyColumnDropped name => s!"cannot drop PRIMARY KEY column: {inQuotes name}"
  | uniqueColumnDropped name => s!"cannot drop UNIQUE column: {inQuotes name}"
  | lastColumnDropped name => s!"cannot drop column {inQuotes name}: no other columns exist"
  | brokenObject kind name occasion reason =>
    s!"error in {kind} {name}" ++ (if occasion.isEmpty then "" else " " ++ occasion) ++
      ": " ++ reason.message
  | valuesForColumns values columns => s!"{values} values for {columns} columns"
  | valuesForTable table columns values =>
    s!"table {table} has {columns} columns but {values} values were supplied"
  | raggedRows => "all VALUES must have the same number of terms"
  | missingValue table column => s!"NOT NULL constraint failed: {table}.{column}"
  | duplicateValue _ table columns =>
    "UNIQUE constraint failed: " ++ ", ".intercalate (columns.map fun c => s!"{table}.{c}")
  | mismatch => "datatype mismatch"
  | full => "database or disk is full"
  | overflow => "integer overflow"
  | readOnly => "attempt to write a readonly database"

end Fault

end EntitySql
