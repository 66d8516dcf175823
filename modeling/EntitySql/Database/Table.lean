import EntitySql.Database.Relation

/-!
# Stored tables

A table keeps its rows in the order of their numbers. An `INTEGER PRIMARY KEY` column is the number
of its row; every other table numbers its rows unseen. A row is stored only if every required value
is there and no unique index finds its values in another row, where a missing value equals none.

The statement that created the table is kept in pieces, one for each column, so that it can follow
the columns that are added and dropped.
-/

namespace EntitySql

/-- Why an index exists. -/
inductive IndexOrigin where
  /-- A statement created it. -/
  | statement
  /-- It enforces a uniqueness constraint. -/
  | unique
  /-- It enforces the primary key. -/
  | key
deriving DecidableEq, Inhabited, Repr

/-- An index of a table. -/
structure StoredIndex where
  /-- The name of the index. -/
  name : String
  /-- The columns in order, as the table spells them. -/
  columns : List String
  /-- Whether it rejects duplicates. -/
  unique : Bool
  /-- Why it exists. -/
  origin : IndexOrigin
deriving DecidableEq, Inhabited, Repr

/-- A column of a table. -/
structure StoredColumn where
  /-- The name of the column. -/
  name : String
  /-- The declared type, empty without one. -/
  type : String
  /-- Whether a missing value is rejected. -/
  required : Bool
  /-- Whether its definition makes it unique. -/
  unique : Bool
  /-- Whether it belongs to the primary key. -/
  inKey : Bool
  /-- The default, with its text. -/
  default : Option (Phrase × String)
  /-- What stands between the definition and the one before it. -/
  lead : String
  /-- The characters of the definition. -/
  written : String
deriving Inhabited, Repr

/-- A row of a table. -/
structure StoredRow where
  /-- The number of the row. -/
  number : Int
  /-- The cells in the order of the columns. -/
  cells : Record
deriving DecidableEq, Inhabited, Repr

/-- A table. -/
structure StoredTable where
  /-- The name of the table. -/
  name : String
  /-- The name with the quotes that it is written with. -/
  writtenName : String
  /-- The columns in order. -/
  columns : List StoredColumn
  /-- What stands behind the last column. -/
  tail : String
  /-- The position of the column that is the number of the row. -/
  numberColumn : Option Nat := none
  /-- Whether no number is given out twice. -/
  neverReuses : Bool := false
  /-- The indexes, the newest first. -/
  indexes : List StoredIndex := []
  /-- The rows by increasing number. -/
  rows : List StoredRow := []
deriving Inhabited, Repr

/-- The start of the names that the database keeps for itself, compared ignoring case. -/
def isReservedName (name : String) : Bool :=
  (Text.foldCase "sqlite_").isPrefixOf (Text.foldCase name)

namespace StoredColumn

/-- The affinity of the column. -/
def affinity (c : StoredColumn) : Affinity := .ofType c.type

/-- The value of the column for a row that leaves it out. -/
def defaultValue (c : StoredColumn) (b : Bindings) : Except Fault Datum :=
  match c.default with
  | some (p, _) => p.value b
  | none => .ok .null

end StoredColumn

namespace StoredTable

/-- The position of a column. -/
def position? (t : StoredTable) (column : String) : Option Nat :=
  t.columns.findIdx? fun c => Text.sameName c.name column

/-- The column of that name. -/
def column? (t : StoredTable) (column : String) : Option StoredColumn :=
  t.columns.find? fun c => Text.sameName c.name column

/-- The headings of the table under a name or alias. -/
def headings (t : StoredTable) (as : String) : List Heading :=
  t.columns.map fun c => ⟨as, c.name, some c.affinity⟩

/-- The table as a relation under a name or alias. -/
def relation (t : StoredTable) (as : String) : Relation :=
  ⟨t.headings as, t.rows.map StoredRow.cells⟩

/-- The statement that creates the table. -/
def sql (t : StoredTable) : String :=
  "CREATE TABLE " ++ t.writtenName ++ String.join (t.columns.map fun c => c.lead ++ c.written) ++
    t.tail

/-- The cells of a row that an index covers. -/
def indexed (t : StoredTable) (i : StoredIndex) (cells : Record) : Record :=
  i.columns.map fun c => ((t.position? c).bind fun p => cells[p]?).getD .null

/-- Whether two rows have the same values under an index; a missing value is never the same. -/
def collides (t : StoredTable) (i : StoredIndex) (a b : Record) : Bool :=
  ((t.indexed i a).zip (t.indexed i b)).all fun p => !p.1.isNull && p.1.same p.2

/-- What a unique index reports. -/
def duplicateFault (t : StoredTable) (i : StoredIndex) : Fault :=
  .duplicateValue (i.origin == .key) t.name i.columns

/-- The fault of the first unique index, the newest first, that finds the values of a row in another
row. -/
def duplicate? (t : StoredTable) (row : StoredRow) : Option Fault :=
  (t.indexes.find? fun i =>
    i.unique && t.rows.any fun r => r.number != row.number && t.collides i r.cells row.cells).map
    t.duplicateFault

/-- The fault of the first column that requires a value and has none. -/
def missing? (t : StoredTable) (cells : Record) : Option Fault :=
  ((t.columns.zip cells).find? fun p => p.1.required && p.2.isNull).map fun p =>
    .missingValue t.name p.1.name

/-- Whether a row has the number. -/
def hasNumber (t : StoredTable) (n : Int) : Bool := t.rows.any (·.number == n)

/-- The name of the column that is the number of the row. -/
def numberName (t : StoredTable) : String :=
  ((t.numberColumn.bind fun p => t.columns[p]?).map StoredColumn.name).getD "rowid"

/-- The cells in the form in which the columns store them. -/
def convert (t : StoredTable) (cells : Record) : Record :=
  List.zipWith (fun c d => StoredColumn.affinity c |>.store d) t.columns cells

/-- The smallest positive number that no row has. -/
def freeNumber (t : StoredTable) : Int :=
  let candidates := (List.range (t.rows.length + 1)).map fun n => Int.ofNat (n + 1)
  (candidates.find? (!t.hasNumber ·)).getD 1

/-- The number that follows those of the rows and the last one given out. When the numbers are used
up, a table that may use a number again takes a free one. -/
def nextNumber (t : StoredTable) (last : Int) : Except Fault Int :=
  let next := (t.rows.getLast?.map fun r => r.number + 1).getD 1
  let next := if t.neverReuses then max next (last + 1) else next
  if next < 0x8000000000000000 then .ok next
  else if t.neverReuses then .error .full
  else .ok t.freeNumber

/-- The number of a new row: the given one, or the next. -/
def numberFor (t : StoredTable) (last : Int) (cells : Record) : Except Fault Int :=
  match t.numberColumn.bind fun p => cells[p]? with
  | none | some .null => t.nextNumber last
  | some (.int n) => .ok n.toInt
  | some _ => .error .mismatch

/-- The cells with the number of the row in its column. -/
def withNumber (t : StoredTable) (n : Int) (cells : Record) : Record :=
  match t.numberColumn with
  | some p => cells.set p (.int (Int64.ofInt n))
  | none => cells

/-- The rows with another one among them, in the order of their numbers. -/
def place (row : StoredRow) : List StoredRow → List StoredRow
  | [] => [row]
  | r :: rest => if row.number < r.number then row :: r :: rest else r :: place row rest

/-- Adds a row whose cells are given in the order of the columns; `last` is the last number given
out. -/
def insertRow (t : StoredTable) (last : Int) (given : Record) :
    Except Fault (StoredTable × Int) := do
  let cells := t.convert given
  let n ← t.numberFor last cells
  let row : StoredRow := ⟨n, t.withNumber n cells⟩
  match t.missing? row.cells with
  | some fault => throw fault
  | none => pure ()
  if t.hasNumber n then throw (.duplicateValue true t.name [t.numberName])
  match t.duplicate? row with
  | some fault => throw fault
  | none => return ({ t with rows := place row t.rows }, n)

/-- Gives the row of a number other cells. -/
def replaceRow (t : StoredTable) (n : Int) (given : Record) : Except Fault StoredTable := do
  let cells := t.convert given
  let m ← match t.numberColumn.bind fun p => cells[p]? with
    | none => pure n
    | some (.int k) => pure k.toInt
    | some _ => throw .mismatch
  let others := { t with rows := t.rows.filter (·.number != n) }
  let row : StoredRow := ⟨m, cells⟩
  match t.missing? cells with
  | some fault => throw fault
  | none => pure ()
  if others.hasNumber m then throw (.duplicateValue true t.name [t.numberName])
  match others.duplicate? row with
  | some fault => throw fault
  | none => return { t with rows := place row others.rows }

/-- Whether two of the rows have the same values under an index. -/
def hasDuplicates (t : StoredTable) (i : StoredIndex) : Bool :=
  t.rows.any fun a => t.rows.any fun b =>
    a.number != b.number && t.collides i a.cells b.cells

end StoredTable

end EntitySql
