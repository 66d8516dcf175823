import EntitySql.Database.Catalog

/-!
# Writing rows

How statements insert, update and delete rows. A statement writes all of its rows or none; with the
database afterwards comes the number of rows that it wrote.
-/

namespace EntitySql.Database

/-- The table that a statement writes to. -/
def writable (db : Database) (table : String) : Except Fault StoredTable := do
  match db.table? table with
  | some t => return t
  | none =>
    match db.view? table with
    | some v => do
      db.requireView v.name
      throw (.writtenView v.name)
    | none => throw (.missingTable table)

/-- The rows of values that an insertion brings, with their number of values. -/
def insertedRows (db : Database) (b : Bindings) : RowSource → Except Fault (List Record × Nat)
  | .listed rows => do
    let width := (rows.head?.map List.length).getD 0
    if rows.any fun row => row.length != width then throw .raggedRows
    return (← rows.mapM fun row => row.mapM (Phrase.value b), width)
  | .query q => do
    let r ← db.answer b q
    return (r.rows, r.headings.length)
  | .defaults => return ([[]], 0)

/-- Where each column of a table takes its value from: the position among the inserted values, or
none for the default. A refusal names the table as the statement does. -/
def valuePositions (t : StoredTable) (table : String) (named : Option (List String)) (width : Nat)
    (defaults : Bool) : Except Fault (List (Option Nat)) := do
  if defaults then return t.columns.map fun _ => none
  match named with
  | none =>
    if width != t.columns.length then throw (.valuesForTable table t.columns.length width)
    return (List.range width).map some
  | some names =>
    for name in names do
      if (t.column? name).isNone then throw (.columnNotInTable table name)
    if width != names.length then throw (.valuesForColumns width names.length)
    return t.columns.map fun c => names.findIdx? (Text.sameName c.name)

/-- What a row has in the columns that no value is inserted for: their defaults. -/
def defaultsFor (t : StoredTable) (b : Bindings) (positions : List (Option Nat)) :
    Except Fault Record :=
  (positions.zip t.columns).mapM fun p =>
    match p.1 with
    | some _ => .ok .null
    | none => p.2.defaultValue b

/-- The cells of a new row: the values at the given positions, and defaults elsewhere. -/
def newCells (positions : List (Option Nat)) (defaults values : Record) : Record :=
  (positions.zip defaults).map fun p =>
    match p.1 with
    | some i => values[i]?.getD .null
    | none => p.2

/-- Whether an insertion is of defaults only. -/
def isDefaults : RowSource → Bool
  | .defaults => true
  | _ => false

/-- Inserts rows. -/
def insert (db : Database) (b : Bindings) (table : String) (named : Option (List String))
    (source : RowSource) : Except Fault (Database × Nat) := do
  let t ← db.writable table
  let (rows, width) ← db.insertedRows b source
  let positions ← valuePositions t table named width (isDefaults source)
  let defaults ← defaultsFor t b positions
  let last := db.lastNumber t.name
  let (written, greatest) ← rows.foldlM (fun (t, last) row => do
    let (t, n) ← t.insertRow last (newCells positions defaults row)
    return (t, max last n)) (t, last)
  let after := db.changeTable table fun _ => written
  let after :=
    if t.neverReuses && (greatest != last || !db.keepsNumber t.name) then
      after.keepLastNumber t.name greatest
    else after
  return (after, rows.length)

/-- The rows of a table for which a condition holds. -/
def rowsWhere (t : StoredTable) (b : Bindings) (condition : Option Phrase) :
    Except Fault (List StoredRow) := do
  let n : Naming := { bindings := b, headings := t.headings t.name }
  match ← Phrase.resolveOption n condition with
  | none => return t.rows
  | some f =>
    if Formula.hasRow [f] then throw .misusedRow
    t.rows.filterM fun r => return (← f.eval { row := r.cells }).isTrue

/-- Updates the rows for which a condition holds. -/
def update (db : Database) (b : Bindings) (table : String) (assignments : List (String × Phrase))
    (condition : Option Phrase) : Except Fault (Database × Nat) := do
  let t ← db.writable table
  let n : Naming := { bindings := b, headings := t.headings t.name }
  let assigned ← assignments.mapM fun a => do
    let f ← a.2.resolve n
    if Formula.hasRow [f] then throw .misusedRow
    match t.position? a.1 with
    | some p => return (p, f)
    | none => throw (.missingColumn a.1)
  let rows ← rowsWhere t b condition
  let written ← rows.foldlM (fun (t : StoredTable) row => do
    let cells ← assigned.foldlM (fun cells a => do
      return cells.set a.1 (← a.2.eval { row := row.cells })) row.cells
    t.replaceRow row.number cells) t
  return (db.changeTable table fun _ => written, rows.length)

/-- Deletes the rows for which a condition holds. -/
def delete (db : Database) (b : Bindings) (table : String) (condition : Option Phrase) :
    Except Fault (Database × Nat) := do
  let t ← db.writable table
  let rows ← rowsWhere t b condition
  let kept := t.rows.filter fun r => !rows.any (·.number == r.number)
  return (db.changeTable table fun t => { t with rows := kept }, rows.length)

end EntitySql.Database
