import EntitySql.Model.Basic

/-!
# Dialects

A dialect is the set of decisions in which databases differ: how a name is quoted, how a parameter
is marked, what a column type is called, how rows are paged, and in which way each change of a
schema is spelled. A decision that a dialect leaves open has the common answer.

The module also holds the three ways of reducing a native type to a comparable form and the writing
of names, column definitions and default values; changes of a schema are in `EntitySql.Sql.Change`.
-/

namespace EntitySql

/-- How a column definition says that the database numbers a key. -/
inductive KeyStyle where
  /-- A keyword behind `PRIMARY KEY`. -/
  | keyword
  /-- A type of its own in the place of the column's type. -/
  | serialType
  /-- A property before `PRIMARY KEY`; nullability is always written. -/
  | identity
deriving DecidableEq, Inhabited, Repr

/-- How an existing column is altered in place. -/
inductive AlterStyle where
  /-- Not at all: the table is rebuilt. -/
  | rebuild
  /-- One statement for the type and one for the nullability. -/
  | typeThenNullability
  /-- One statement that says both. -/
  | together
deriving DecidableEq, Inhabited, Repr

/-- What a uniqueness constraint on an existing table is. -/
inductive UniqueStyle where
  /-- A constraint of the table. -/
  | constraint
  /-- An index of its own. -/
  | index
deriving DecidableEq, Inhabited, Repr

/-- How a table gets another name. -/
inductive RenameStyle where
  /-- By altering it. -/
  | alter
  /-- By altering it with dependent views left as they are written. -/
  | alterBehindViews
  /-- By a stored procedure that takes both names as texts. -/
  | procedure
deriving DecidableEq, Inhabited, Repr

/-- Which changes force a table to be rebuilt. -/
inductive RebuildRule where
  /-- A change of a key or of uniqueness, and a column that cannot be altered in place. -/
  | keysAndUniqueness
  /-- Any altered column or added constraint, and the addition or removal of a column that is more
  than a plain one. -/
  | allButPlainColumns
deriving DecidableEq, Inhabited, Repr

/-- The comparable form of a native type: what stands before the first parenthesis, in capitals,
with single spaces. -/
def baseType (native : String) : String :=
  let head := native.toList.takeWhile (· != '(')
  Text.upperAscii (String.ofList ([' '].intercalate (Text.words head)))

/-- A paging clause that is empty when there is nothing to page, and names each bound by its own
keyword. -/
def plainPaging (limit offset : Option UInt64) (_ordered : Bool) : String :=
  match limit, offset with
  | none, none => ""
  | some l, none => s!"LIMIT {l.toNat}"
  | none, some o => s!"OFFSET {o.toNat}"
  | some l, some o => s!"LIMIT {l.toNat} OFFSET {o.toNat}"

/-- The decisions of a database. -/
structure Dialect where
  /-- The name of the dialect. -/
  name : String
  /-- The character that opens a quoted name. -/
  openQuote : Char := '"'
  /-- The character that closes a quoted name, and is doubled inside. -/
  closeQuote : Char := '"'
  /-- The marker of the parameter with that number, counted from 1. -/
  marker : Nat → String := fun _ => "?"
  /-- The native name of a column type. -/
  nativeType : ColumnType → Option UInt32 → String
  /-- The comparable form of a native type. -/
  normalType : String → String := baseType
  /-- The form in which a value is bound. -/
  toBound : Value → Value := id
  /-- The literal of a default. -/
  defaultLiteral : Default → String := Default.literal
  /-- What follows `PRIMARY KEY` for a key that the database numbers. -/
  autoincrementKeyword : String := ""
  /-- The type of a key that the database numbers, where that is a type of its own. -/
  serialType : ColumnType → String := fun _ => "SERIAL"
  /-- How a numbered key is defined. -/
  keyStyle : KeyStyle := .keyword
  /-- The paging clause for a limit, an offset, and whether the query is ordered. -/
  paging : Option UInt64 → Option UInt64 → Bool → String := plainPaging
  /-- The keywords that add a column. -/
  addColumnKeywords : String := "ADD COLUMN"
  /-- How a column is altered. -/
  alterStyle : AlterStyle := .rebuild
  /-- Whether an index is dropped by naming its table too. -/
  dropsIndexOnTable : Bool := false
  /-- What a constraint added to a table is. -/
  uniqueStyle : UniqueStyle := .constraint
  /-- How a table is renamed. -/
  renameStyle : RenameStyle := .alter
  /-- When a table is rebuilt. -/
  rebuildRule : RebuildRule := .keysAndUniqueness
  /-- The statements that empty a table, and reset the numbering of its key if asked to. -/
  truncate : String → Bool → List String
  /-- The query that counts the tables of the name bound to its only parameter. -/
  tableExistsQuery : String
  /-- The query for kind and definition of the object named by its only parameter. -/
  objectKindQuery : String

namespace Dialect

/-- A quoted name. -/
def quote (d : Dialect) (name : String) : String :=
  Text.Quoted.enclose d.openQuote d.closeQuote name

/-- A list of quoted names. -/
def quoteAll (d : Dialect) (names : List String) : String :=
  ", ".intercalate (names.map d.quote)

/-- Whether two native types store the same. -/
def sameType (d : Dialect) (a b : String) : Bool := d.normalType a == d.normalType b

/-- The literal that fills a required column where no value is known: the declared default, or else
the zero of the type. -/
def fillLiteral (d : Dialect) (c : Column) : String :=
  match c.default with
  | some declared => d.defaultLiteral declared
  | none => (d.toBound c.type.zeroValue).literal

/-- The clause that declares a default, empty without one. -/
def defaultClause (d : Dialect) (c : Column) : String :=
  match c.default with
  | some declared => " DEFAULT " ++ d.defaultLiteral declared
  | none => ""

/-- The text if the condition holds, else nothing. -/
def clauseIf (condition : Bool) (sql : String) : String := if condition then sql else ""

/-- The definition of a column. -/
def columnDefinition (d : Dialect) (c : Column) : String :=
  let typed := d.quote c.name ++ " " ++ d.nativeType c.type c.size
  let flags :=
    if c.primaryKey then " PRIMARY KEY" ++ clauseIf c.autoincrement d.autoincrementKeyword
    else clauseIf c.notNull " NOT NULL" ++ clauseIf c.unique " UNIQUE"
  match d.keyStyle with
  | .keyword => typed ++ flags ++ d.defaultClause c
  | .serialType =>
    if c.primaryKey && c.autoincrement then
      d.quote c.name ++ " " ++ d.serialType c.type ++ " PRIMARY KEY"
    else typed ++ flags ++ d.defaultClause c
  | .identity =>
    typed ++ (if c.requiresValue then " NOT NULL" else " NULL") ++
      clauseIf c.autoincrement " IDENTITY(1,1)" ++
      (if c.primaryKey then " PRIMARY KEY" else clauseIf c.unique " UNIQUE") ++ d.defaultClause c

/-- The column as it is added to a table that has rows: a required column without a default gets the
literal that fills it. -/
def withFill (d : Dialect) (c : Column) : Column :=
  if c.requiresValue && c.default.isNone then
    { c with default := some (.expression (d.fillLiteral c)) }
  else c

end Dialect

namespace Unique

/-- The name of the constraint on a table: its own, or one derived from the table and columns. -/
def nameOn (u : Unique) (table : String) : String :=
  u.name.getD (s!"uq_{table}_" ++ "_".intercalate u.columns)

end Unique

/-- The constraint as a clause of a table. -/
def Dialect.uniqueConstraint (d : Dialect) (table : String) (u : Unique) : String :=
  s!"CONSTRAINT {d.quote (u.nameOn table)} UNIQUE ({d.quoteAll u.columns})"

end EntitySql
