import EntitySql.Model.Basic

/-!
# Live objects

What a database reports about the tables and views that exist, as opposed to what a model declares.
-/

namespace EntitySql

/-- A column that a database reports. -/
structure LiveColumn where
  /-- The name of the column. -/
  name : String
  /-- The declared native type. -/
  nativeType : String
  /-- Whether the column is part of the primary key. -/
  primaryKey : Bool
  /-- Whether the database numbers the column. -/
  autoincrement : Bool
  /-- Whether a constraint of its own makes the column unique. -/
  unique : Bool
  /-- Whether the column rejects a missing value. -/
  notNull : Bool
  /-- The text of the default. -/
  default : Option String
deriving DecidableEq, Inhabited, Repr

/-- A table that a database reports. -/
structure LiveTable where
  /-- The name of the table. -/
  name : String
  /-- Its columns in order. -/
  columns : List LiveColumn
  /-- Its indexes other than those of constraints. -/
  indexes : List Index
  /-- Its uniqueness constraints over several columns. -/
  uniques : List Unique
deriving DecidableEq, Inhabited, Repr

/-- A view that a database reports. -/
structure LiveView where
  /-- The name of the view. -/
  name : String
  /-- The body of the view. -/
  definition : String
deriving DecidableEq, Inhabited, Repr

/-- A table or a view that a database reports. -/
inductive LiveObject where
  | table (t : LiveTable)
  | view (v : LiveView)
deriving DecidableEq, Inhabited, Repr

/-- The kinds of objects that an entity can be stored in. -/
inductive ObjectKind where
  | table
  | view
deriving DecidableEq, Inhabited, Repr

namespace LiveColumn

/-- Whether the column rejects a missing value; a key always does. -/
def requiresValue (c : LiveColumn) : Bool := c.notNull || c.primaryKey

/-- Whether the column rejects duplicates; a key always does. -/
def rejectsDuplicates (c : LiveColumn) : Bool := c.unique || c.primaryKey

end LiveColumn

namespace LiveTable

/-- The column of that name, ignoring ASCII case. -/
def column? (t : LiveTable) (name : String) : Option LiveColumn :=
  t.columns.find? fun c => Text.sameName c.name name

/-- The index of that name, ignoring ASCII case. -/
def index? (t : LiveTable) (name : String) : Option Index :=
  t.indexes.find? fun i => Text.sameName i.name name

/-- Whether a column belongs to an index or a constraint over several columns. -/
def isIndexed (t : LiveTable) (column : String) : Bool :=
  (t.indexes.flatMap (·.columns) ++ t.uniques.flatMap (·.columns)).any (Text.sameName · column)

end LiveTable

namespace LiveObject

/-- The name of the object. -/
def name : LiveObject → String
  | table t => t.name
  | view v => v.name

end LiveObject

namespace ObjectKind

/-- The word for the kind. -/
def word : ObjectKind → String
  | table => "table"
  | view => "view"

/-- Reads the kind that a catalog reports; blanks around it and ASCII case do not matter. -/
def parse (kind : String) : Except Error ObjectKind :=
  match Text.lowerAscii (Text.trim kind) with
  | "table" | "base table" => .ok table
  | "view" => .ok view
  | _ => .error (.unknownKind kind)

end ObjectKind

end EntitySql
