import EntitySql.Error
import EntitySql.Model.ColumnType
import EntitySql.Model.Mapping
import EntitySql.Text.Ascii
import EntitySql.Text.Lowercase

/-!
# Models

A model is what a mapping implies: the columns of the stored fields in order, one index for each
distinct index group, and one constraint for each uniqueness group of several columns. A uniqueness
group of a single column is the uniqueness of that column.

`Model.build` refuses a mapping with more than one primary key, with two columns of one name, or
with an auto-incremented column that is not the key; names are compared ignoring ASCII case.
-/

namespace EntitySql

/-- A column that a model declares. -/
structure Column where
  /-- The field the column is mapped from. -/
  field : String
  /-- The name of the column. -/
  name : String
  /-- Its type. -/
  type : ColumnType
  /-- The size of a sized type. -/
  size : Option UInt32 := none
  /-- Whether the column is the primary key. -/
  primaryKey : Bool := false
  /-- Whether the database numbers the column. -/
  autoincrement : Bool := false
  /-- Whether the column is declared unique. -/
  unique : Bool := false
  /-- Whether the column is declared to require a value. -/
  notNull : Bool := false
  /-- The declared default; a key has none. -/
  default : Option Default := none
deriving DecidableEq, Inhabited, Repr

/-- An index over columns. -/
structure Index where
  /-- The name of the index. -/
  name : String
  /-- The columns in index order. -/
  columns : List String
deriving DecidableEq, Inhabited, Repr

/-- A uniqueness constraint over several columns. -/
structure Unique where
  /-- The name of the constraint, when one is known. -/
  name : Option String
  /-- The columns, in any order. -/
  columns : List String
deriving DecidableEq, Inhabited, Repr

/-- What a mapping implies. -/
structure Model where
  /-- The name of the table or view. -/
  name : String
  /-- Whether it is a table or a view. -/
  storage : Storage
  /-- The columns in field order. -/
  columns : List Column
  /-- The indexes, in the order in which fields first name them. -/
  indexes : List Index
  /-- The constraints over several columns, in the order in which fields first name them. -/
  uniques : List Unique
deriving DecidableEq, Inhabited, Repr

namespace Column

/-- Whether the column rejects a missing value; a key always does. -/
def requiresValue (c : Column) : Bool := c.notNull || c.primaryKey

/-- Whether the column rejects duplicates; a key always does. -/
def rejectsDuplicates (c : Column) : Bool := c.unique || c.primaryKey

/-- The name of a field's column. -/
def nameOf (f : Field) : String := f.column.getD (Text.lowercase f.name)

/-- The column of a field. A field stored as another type takes that type but keeps its own
nullability, and a key has no default. -/
def ofField (f : Field) : Column :=
  let declared := ColumnType.ofSpelling f.spelling
  let type := match f.representation with
    | some spelling => (ColumnType.ofSpelling spelling).type
    | none => declared.type
  { field := f.name
    name := nameOf f
    type := type
    size := f.size
    primaryKey := f.primaryKey
    autoincrement := f.autoincrement
    unique := f.uniques.contains .alone
    notNull := f.notNull.getD (!declared.nullable && type.isValueType)
    default := if f.primaryKey then none else f.default }

end Column

namespace Unique

/-- The columns of the constraint as a set: in lower case, sorted, each once. -/
def columnSet (u : Unique) : List String :=
  ((u.columns.map Text.lowercase).mergeSort fun a b => decide (a ≤ b)).eraseReps

end Unique

/-- Named groups of columns, in the order in which the names first occur. -/
abbrev Groups := List (String × List String)

namespace Groups

/-- Adds a column to the group of that name, behind its other members unless it is one already. -/
def add (groups : Groups) (name column : String) : Groups :=
  match groups with
  | [] => [(name, [column])]
  | (n, columns) :: rest =>
    if n = name then (n, if columns.contains column then columns else columns ++ [column]) :: rest
    else (n, columns) :: add rest name column

/-- Collects memberships, each a group and a column. -/
def collect (members : List (String × String)) : Groups :=
  members.foldl (fun groups m => groups.add m.1 m.2) []

end Groups

namespace Model

/-- The index memberships of a field: the index and the column. -/
def indexMembers (f : Field) : List (String × String) :=
  f.indexes.map fun
    | .alone => (Column.nameOf f, Column.nameOf f)
    | .inGroup name => (name, Column.nameOf f)

/-- The named uniqueness memberships of a field: the group and the column. -/
def uniqueMembers (f : Field) : List (String × String) :=
  f.uniques.filterMap fun
    | .alone => none
    | .inGroup name => some (name, Column.nameOf f)

/-- The model of the stored fields, before it is checked. -/
def ofFields (name : String) (storage : Storage) (fields : List Field) : Model :=
  let groups := Groups.collect (fields.flatMap uniqueMembers)
  let single := groups.filterMap fun g => match g.2 with
    | [column] => some column
    | _ => none
  { name := name
    storage := storage
    columns := (fields.map Column.ofField).map fun c =>
      { c with unique := c.unique || single.contains c.name }
    indexes := (Groups.collect (fields.flatMap indexMembers)).map fun g => ⟨g.1, g.2⟩
    uniques := (groups.filter fun g => g.2.length != 1).map fun g => ⟨some g.1, g.2⟩ }

/-- The first column, after those already seen, that repeats a name or is auto-incremented without
being the key. -/
def columnFault? (seen : List String) : List Column → Option ModelFault
  | [] => none
  | c :: rest =>
    if seen.any (Text.sameName · c.name) then some (.duplicateColumn c.name)
    else if c.autoincrement && !c.primaryKey then some (.autoincrementOffKey c.name)
    else columnFault? (seen ++ [c.name]) rest

/-- What is inconsistent in a model, if anything is. -/
def fault? (m : Model) : Option ModelFault :=
  let keys := (m.columns.filter (·.primaryKey)).map (·.name)
  if 1 < keys.length then some (.severalKeys keys) else columnFault? [] m.columns

/-- Builds and checks the model of a mapping. -/
def build (mapping : Mapping) : Except Error Model :=
  let m := ofFields mapping.name mapping.storage (mapping.fields.filter (!·.ignored))
  match m.fault? with
  | some fault => .error (.invalidModel m.name fault)
  | none => .ok m

/-- Whether the entity is stored in a view. -/
def isView (m : Model) : Bool :=
  match m.storage with
  | .table => false
  | .view _ => true

/-- The primary key, if there is one. -/
def primaryKey? (m : Model) : Option Column := m.columns.find? (·.primaryKey)

/-- The column of that name, ignoring ASCII case. -/
def column? (m : Model) (name : String) : Option Column :=
  m.columns.find? fun c => Text.sameName c.name name

/-- The column mapped from a field, by the exact name or ignoring ASCII case. -/
def columnOfField? (m : Model) (field : String) (ignoreCase : Bool) : Option Column :=
  m.columns.find? fun c => if ignoreCase then Text.sameName c.field field else c.field = field

/-- The names of the columns in order. -/
def columnNames (m : Model) : List String := m.columns.map (·.name)

end Model

end EntitySql
