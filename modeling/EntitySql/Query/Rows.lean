import EntitySql.Query.Select

/-!
# Commands on rows

The commands that write the rows of an entity, one value of the entity at a time, and those that
load and count rows. A writing command is an operation with one slot for each value it needs, and
comes with the arguments that an entity's field values give. A view cannot be written, and a row is
found by its primary key.
-/

namespace EntitySql

/-- The field values of one entity, by field name; the first of a name counts. -/
abbrev RowValues := List (String × Value)

/-- The value of a field, absent when the entity has no such field. -/
def RowValues.get (values : RowValues) (field : String) : Value :=
  (values.lookup field).getD .null

/-- The commands of one entity in one dialect. -/
structure Rows where
  /-- The entity's model. -/
  model : Model
  /-- The dialect of the statements. -/
  dialect : Dialect
  /-- Whether filters find properties ignoring case. -/
  ignoreCase : Bool := false

namespace Rows

/-- The columns that take a value on insertion: all but a numbered key. -/
def insertColumns (r : Rows) : List Column := r.model.columns.filter (!·.autoincrement)

/-- The columns that an update assigns: all but the key. -/
def updateColumns (r : Rows) : List Column := r.model.columns.filter (!·.primaryKey)

/-- Refuses a writing command on a view. -/
def requireTable (r : Rows) (command : RowCommand) : Except Error Unit :=
  if r.model.isView then .error (.misuse command r.model.name .readOnly) else .ok ()

/-- The primary key, which the command needs. -/
def requireKey (r : Rows) (command : RowCommand) : Except Error Column :=
  match r.model.primaryKey? with
  | some key => .ok key
  | none => .error (.misuse command r.model.name .noKey)

/-- The fragments with commas between them. -/
def commaSeparated (parts : List (List Fragment)) : List Fragment :=
  [Fragment.text ", "].intercalate parts

/-- Inserts a row, with one slot for each inserted column. -/
def insert (r : Rows) : Except Error Operation := do
  r.requireTable .insert
  let columns := r.insertColumns
  if columns.isEmpty then .error (.misuse .insert r.model.name .nothingToInsert)
  else
    let d := r.dialect
    return Operation.ofFragments d <|
      .text s!"INSERT INTO {d.quote r.model.name} (" ::
        .text (d.quoteAll (columns.map (·.name))) :: .text ") VALUES (" ::
        commaSeparated (columns.map fun _ => [.slot]) ++ [.text ")"]

/-- The arguments of `insert` for an entity. -/
def insertArguments (r : Rows) (values : RowValues) : List Argument :=
  r.insertColumns.map fun c => .value (values.get c.field)

/-- Updates the row of a key, with one slot for each column and one for the key. -/
def update (r : Rows) : Except Error Operation := do
  r.requireTable .update
  let key ← r.requireKey .update
  let columns := r.updateColumns
  if columns.isEmpty then .error (.misuse .update r.model.name .onlyKey)
  else
    let d := r.dialect
    return Operation.ofFragments d <|
      .text s!"UPDATE {d.quote r.model.name} SET " ::
        commaSeparated (columns.map fun c => [.text (d.quote c.name ++ " = "), .slot]) ++
        [.text s!" WHERE {d.quote key.name} = ", .slot]

/-- The arguments of `update` for an entity: the new values, then the key. -/
def updateArguments (r : Rows) (values : RowValues) : List Argument :=
  (r.updateColumns ++ r.model.primaryKey?.toList).map fun c => .value (values.get c.field)

/-- Deletes the row of a key. -/
def delete (r : Rows) : Except Error Operation := do
  r.requireTable .delete
  let key ← r.requireKey .delete
  let d := r.dialect
  return Operation.ofFragments d
    [.text s!"DELETE FROM {d.quote r.model.name} WHERE {d.quote key.name} = ", .slot]

/-- The arguments of `delete` for an entity. -/
def deleteArguments (r : Rows) (values : RowValues) : List Argument :=
  r.model.primaryKey?.toList.map fun c => .value (values.get c.field)

/-- Deletes the rows of a list of keys. -/
def deleteMany (r : Rows) : Except Error Operation := do
  r.requireTable .delete
  let key ← r.requireKey .delete
  let d := r.dialect
  return Operation.ofFragments d
    [.text s!"DELETE FROM {d.quote r.model.name} WHERE {d.quote key.name} IN (", .listSlot,
      .text ")"]

/-- A query over the entity. -/
def select (r : Rows) : Select := Select.ofModel r.model r.ignoreCase

/-- Loads the mapped columns of the rows that meet a condition. -/
def load (r : Rows) (filter : Option Expr) : Except Error Operation :=
  ({ r.select with condition := filter } : Select).build r.dialect

/-- Counts the rows that meet a condition. -/
def count (r : Rows) (filter : Option Expr) : Except Error Operation := do
  let condition ← (⟨r.model, r.ignoreCase, none⟩ : Scope).compileOption filter
  let d := r.dialect
  return Operation.ofFragments d <|
    .text s!"SELECT COUNT(*) FROM {d.quote r.model.name}" ::
      Term.optionFragments d " WHERE " condition

end Rows

end EntitySql
