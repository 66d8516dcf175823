import EntitySql.Value

/-!
# Mappings

A mapping is the declaration of an entity as its author writes it: the table or view it is stored
in, and for each field the choices that deviate from the defaults. `Model.build` turns it into the
columns, indexes and uniqueness constraints that it implies.
-/

namespace EntitySql

/-- What stores an entity. -/
inductive Storage where
  /-- A table. -/
  | table
  /-- A view with the given body. -/
  | view (definition : String)
deriving DecidableEq, Inhabited, Repr

/-- Membership of a field in an index or uniqueness group. -/
inductive Membership where
  /-- A group of its own: an index named after the column, or the uniqueness of the column. -/
  | alone
  /-- The group of that name; all fields that name it form one index or one constraint. -/
  | inGroup (name : String)
deriving DecidableEq, Inhabited, Repr

/-- The declaration of one field. -/
structure Field where
  /-- The name of the field. -/
  name : String
  /-- The spelling of its type. -/
  spelling : String
  /-- The name of its column, if it is not the field's name in lower case. -/
  column : Option String := none
  /-- Whether the column is the primary key. -/
  primaryKey : Bool := false
  /-- Whether the database numbers the column. -/
  autoincrement : Bool := false
  /-- Whether the column requires a value, if that is not left to the type. -/
  notNull : Option Bool := none
  /-- The declared default. -/
  default : Option Default := none
  /-- The size of a sized type. -/
  size : Option UInt32 := none
  /-- The spelling of the type that an enumeration is stored as. -/
  representation : Option String := none
  /-- The indexes that the column belongs to, in order. -/
  indexes : List Membership := []
  /-- The uniqueness groups that the column belongs to, in order. -/
  uniques : List Membership := []
  /-- Whether the field is not stored. -/
  ignored : Bool := false
deriving DecidableEq, Inhabited, Repr

/-- The declaration of an entity. -/
structure Mapping where
  /-- The name of the table or view. -/
  name : String
  /-- Whether it is a table or a view. -/
  storage : Storage := .table
  /-- The fields in declaration order. -/
  fields : List Field := []
deriving DecidableEq, Inhabited, Repr

end EntitySql
