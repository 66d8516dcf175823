import EntitySql.Database.Catalog

/-!
# Definitions

How statements create, alter and drop the objects of a database. Each gives the database afterwards
or the reason for which nothing changes.
-/

namespace EntitySql

namespace StoredColumn

/-- The column of a definition. -/
def ofClause (c : ColumnClause) (inKey : Bool) : StoredColumn where
  name := c.name
  type := c.type
  required := c.rules.any fun | .required => true | _ => false
  unique := c.rules.any fun | .unique => true | _ => false
  inKey := inKey
  default := c.rules.findSome? fun | .default p written => some (p, written) | _ => none
  lead := c.lead
  written := c.written

end StoredColumn

namespace TableClause

/-- The primary keys that a definition declares: their columns, and whether they are numbered. -/
def keys (c : TableClause) : List (List String × Bool) :=
  c.columns.flatMap (fun column => column.rules.filterMap fun
    | .key numbered => some ([column.name], numbered)
    | _ => none) ++
  c.rules.filterMap fun
    | .key columns numbered => some (columns, numbered)
    | .unique _ => none

/-- The constraints of a definition in the order in which their indexes are made. -/
def constraints (c : TableClause) : List (IndexOrigin × List String) :=
  c.columns.flatMap (fun column => column.rules.filterMap fun
    | .key _ => some (.key, [column.name])
    | .unique => some (.unique, [column.name])
    | _ => none) ++
  c.rules.map fun
    | .key columns _ => (.key, columns)
    | .unique columns => (.unique, columns)

/-- A name that two columns have. -/
def repeatedName? : List String → Option String
  | [] => none
  | s :: rest => (repeatedName? rest).or (rest.find? (Text.sameName s))

/-- The column that is the number of the row: a lone key declared as `INTEGER`. -/
def numberColumn? (c : TableClause) : Option Nat :=
  match c.keys with
  | [([key], _)] => c.columns.findIdx? fun column =>
      Text.sameName column.name key && Text.sameName column.type "INTEGER"
  | _ => none

end TableClause

namespace StoredTable

/-- Makes the index of a constraint, unless one over the same columns exists; the primary key takes
that one over. -/
def addConstraint (t : StoredTable) (origin : IndexOrigin) (columns : List String) : StoredTable :=
  if t.indexes.any fun i => Text.sameNames i.columns columns then
    { t with indexes := t.indexes.map fun i =>
        if Text.sameNames i.columns columns && origin == .key then { i with origin := .key }
        else i }
  else
    let name := s!"sqlite_autoindex_{t.name}_{t.indexes.length + 1}"
    { t with indexes := ⟨name, columns, true, origin⟩ :: t.indexes }

/-- The columns of a constraint or an index as the table spells them. -/
def spell (t : StoredTable) (columns : List String) : Except Fault (List String) :=
  columns.mapM fun c =>
    match t.column? c with
    | some column => .ok column.name
    | none => .error (.missingColumn c)

/-- The table of a definition. -/
def ofClause (c : TableClause) : Except Fault StoredTable := do
  match TableClause.repeatedName? (c.columns.map ColumnClause.name) with
  | some name => throw (.duplicateColumn name)
  | none => pure ()
  if 1 < c.keys.length then throw (.severalKeys c.name)
  let numberColumn := c.numberColumn?
  if (c.keys.any (·.2)) && numberColumn.isNone then throw .numberedOtherKey
  let keyColumns := c.keys.flatMap (·.1)
  let bare : StoredTable := {
    name := c.name
    writtenName := c.writtenName
    columns := c.columns.map fun column =>
      .ofClause column (keyColumns.any (Text.sameName column.name))
    tail := c.tail
    numberColumn := numberColumn
    neverReuses := c.keys.any (·.2) }
  c.constraints.foldlM (fun t k => do
    let columns ← t.spell k.2
    if k.1 == .key && numberColumn.isSome then return t
    return t.addConstraint k.1 columns) bare

/-- The table that keeps the last numbers given out. -/
def sequences : StoredTable where
  name := Database.sequenceName
  writtenName := Database.sequenceName
  columns :=
    [⟨"name", "", false, false, false, none, "(", "name"⟩,
      ⟨"seq", "", false, false, false, none, ",", "seq"⟩]
  tail := ")"

/-- Whether a default is the same for all rows. -/
def isFixed : Option (Phrase × String) → Bool
  | none => true
  | some (.datum _, _) => true
  | some _ => false

/-- Adds a column, which the existing rows have the default of. -/
def addColumn (t : StoredTable) (b : Bindings) (c : ColumnClause) : Except Fault StoredTable := do
  if (t.column? c.name).isSome then throw (.duplicateColumn c.name)
  if c.rules.any fun | .key _ => true | _ => false then throw .keyColumnAdded
  if c.rules.any fun | .unique => true | _ => false then throw .uniqueColumnAdded
  let column := StoredColumn.ofClause c false
  let value ← column.defaultValue b
  if !t.rows.isEmpty then
    if column.required && value.isNull then throw .requiredColumnAdded
    if !isFixed column.default then throw .varyingDefaultAdded
  let cell := column.affinity.store value
  return { t with
    columns := t.columns ++ [column]
    rows := t.rows.map fun r => { r with cells := r.cells ++ [cell] } }

/-- The columns without the one at a position. The column behind it moves up to its lead. -/
def withoutColumn : Nat → List StoredColumn → List StoredColumn
  | 0, c :: next :: rest => { next with lead := c.lead } :: rest
  | n + 1, c :: rest => c :: withoutColumn n rest
  | _, _ => []

/-- Drops the column at a position, with its cells. -/
def dropColumnAt (t : StoredTable) (p : Nat) : StoredTable :=
  { t with
    columns := withoutColumn p t.columns
    numberColumn := t.numberColumn.map fun n => if p < n then n - 1 else n
    rows := t.rows.map fun r => { r with cells := r.cells.eraseIdx p } }

/-- Drops a column, which must be neither part of the key nor unique nor the only one. -/
def dropColumn (t : StoredTable) (name written : String) : Except Fault StoredTable := do
  match t.position? name, t.column? name with
  | some p, some c =>
    if c.inKey then throw (.keyColumnDropped name)
    if c.unique then throw (.uniqueColumnDropped name)
    if t.columns.length = 1 then throw (.lastColumnDropped name)
    return t.dropColumnAt p
  | _, _ => throw (.missingColumn (Fault.inQuotes written))

/-- The first index over a column that does not exist, as a fault. -/
def brokenIndex? (t : StoredTable) (occasion : String) : Option Fault :=
  t.indexes.reverse.findSome? fun i =>
    (i.columns.find? fun c => (t.column? c).isNone).map fun c =>
      if i.origin = .statement then .brokenObject "index" i.name occasion (.missingColumn c)
      else .brokenObject "table" t.name occasion (.missingColumn c)

/-- The table under another name. -/
def rename (t : StoredTable) (name : String) : StoredTable :=
  let automatic := "sqlite_autoindex_" ++ t.name
  { t with
    name := name
    writtenName := Text.Quoted.enclose '"' '"' name
    indexes := t.indexes.map fun i =>
      if i.origin = .statement then i
      else { i with
        name := "sqlite_autoindex_" ++ name ++
          String.ofList (i.name.toList.drop automatic.length) } }

end StoredTable

namespace Database

/-- Refuses a name for a new table or view that is reserved or taken; says whether the statement has
nothing to do because the object exists. -/
def claimName (db : Database) (ifMissing : Bool) (name written : String) : Except Fault Bool := do
  if isReservedName name then throw (.reservedName name)
  let isView := (db.view? name).isSome
  if isView || (db.table? name).isSome then
    if ifMissing then return true else throw (.objectExists isView written)
  if (db.index? name).isSome then throw (.nameTaken .index name)
  return false

/-- Creates a table, and the table of the last numbers if the new one is the first to need it. -/
def createTable (db : Database) (c : TableClause) : Except Fault Database := do
  if ← db.claimName c.ifMissing c.name c.writtenName then return db
  let t ← StoredTable.ofClause c
  let needed := t.neverReuses && (db.table? sequenceName).isNone
  return { db with
    tables := db.tables ++ [t] ++ if needed then [.sequences] else [] }

/-- Creates an index. -/
def createIndex (db : Database) (unique ifMissing : Bool) (name table : String)
    (columns : List String) : Except Fault Database := do
  match db.table? table with
  | none =>
    if isCatalogName table then throw (.protectedTable table .index)
    if (db.view? table).isSome then throw .indexOnView
    throw (.missingTable ("main." ++ table))
  | some t =>
    if isReservedName t.name then throw (.protectedTable t.name .index)
    if isReservedName name then throw (.reservedName name)
    if (db.table? name).isSome || (db.view? name).isSome then throw (.nameTaken .table name)
    if (db.index? name).isSome then
      if ifMissing then return db else throw (.indexExists name)
    let i : StoredIndex := ⟨name, ← t.spell columns, unique, .statement⟩
    if unique && t.hasDuplicates i then throw (t.duplicateFault i)
    return db.changeTable table fun t => { t with indexes := i :: t.indexes }

/-- Creates a view. Its query is not looked up yet. -/
def createView (db : Database) (ifMissing : Bool) (name written : String) (q : Query)
    (sql : String) : Except Fault Database := do
  if ← db.claimName ifMissing name written then return db
  return { db with views := db.views ++ [⟨name, q, sql⟩] }

/-- Forgets the last number given out for a table. -/
def forgetLastNumber (db : Database) (table : String) : Database :=
  db.changeTable sequenceName fun t =>
    { t with rows := t.rows.filter fun r => r.cells.head? != some (.text table) }

/-- Drops a table with its rows and indexes. -/
def dropTable (db : Database) (ifExists : Bool) (name : String) : Except Fault Database := do
  match db.table? name with
  | some t =>
    if isReservedName t.name then throw (.protectedTable t.name .drop)
    let rest := { db with tables := db.tables.filter fun u => !Text.sameName u.name name }
    return rest.forgetLastNumber t.name
  | none =>
    match db.view? name with
    | some v => throw (.dropViewInstead v.name)
    | none =>
      if isCatalogName name then throw (.protectedTable name .drop)
      if ifExists then return db else throw (.missingTable name)

/-- Drops a view. -/
def dropView (db : Database) (ifExists : Bool) (name : String) : Except Fault Database := do
  match db.view? name with
  | some _ => return { db with views := db.views.filter fun v => !Text.sameName v.name name }
  | none =>
    match db.table? name with
    | some t => throw (.dropTableInstead t.name)
    | none => if ifExists then return db else throw (.missingView name)

/-- Drops an index that a statement created. -/
def dropIndex (db : Database) (ifExists : Bool) (name : String) : Except Fault Database := do
  match db.index? name with
  | some i =>
    if i.origin != .statement then throw .indexOfConstraint
    return { db with tables := db.tables.map fun t =>
      { t with indexes := t.indexes.filter fun i => !Text.sameName i.name name } }
  | none => if ifExists then return db else throw (.missingIndex name)

/-- The table that a statement alters. -/
def alterable (db : Database) (table : String) (ofView : Fault) : Except Fault StoredTable := do
  match db.table? table with
  | some t =>
    if isReservedName t.name then throw (.protectedTable t.name .alter)
    return t
  | none =>
    if (db.view? table).isSome then throw ofView
    if isCatalogName table then throw (.protectedTable table .alter)
    throw (.missingTable table)

/-- Renames a table; its rows, indexes and last number stay with it, and views stay as they are, as
with the setting `Connection.legacyRename`. -/
def renameTable (db : Database) (table name : String) : Except Fault Database := do
  let taken := (db.table? name).isSome || (db.view? name).isSome || (db.index? name).isSome
  if taken && ((db.table? table).isSome || (db.view? table).isSome) then
    throw (.renameTaken name)
  let t ← db.alterable table (.alteredView table)
  if isReservedName name then throw (.reservedName name)
  let last := db.lastNumber t.name
  let renamed := (db.changeTable table (·.rename name)).forgetLastNumber t.name
  return if t.neverReuses && last != 0 then renamed.keepLastNumber name last else renamed

/-- Adds a column to a table. -/
def addColumn (db : Database) (b : Bindings) (table : String) (c : ColumnClause) :
    Except Fault Database := do
  let t ← db.alterable table .columnAddedToView
  let changed ← t.addColumn b c
  return db.changeTable table fun _ => changed

/-- Refuses a database in which a view cannot be answered. -/
def requireViews (db : Database) (occasion : String) : Except Fault Unit :=
  match db.brokenView? with
  | some (name, fault) => .error (.brokenObject "view" name occasion fault)
  | none => .ok ()

/-- Drops a column of a table, on which no index or view may depend. -/
def dropColumn (db : Database) (table column written : String) : Except Fault Database := do
  let t ← db.alterable table (.columnDroppedFromView table)
  let changed ← t.dropColumn column written
  db.requireViews ""
  let occasion := "after drop column"
  match changed.brokenIndex? occasion with
  | some fault => throw fault
  | none => pure ()
  let after := db.changeTable table fun _ => changed
  after.requireViews occasion
  return after

end Database

end EntitySql
