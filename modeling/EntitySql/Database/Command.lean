import EntitySql.Database.Datum
import EntitySql.Sql.Operator

/-!
# Commands

A statement of a database as it is read: an expression is a `Phrase`, whose names are not looked up
yet, and a statement a `Command`. Where a statement defines something that the database shows again,
the command keeps the characters of the definition.
-/

namespace EntitySql

/-- A form of the current time. -/
inductive ClockForm where
  | date
  | time
  | both
deriving DecidableEq, Inhabited, Repr

/-- An expression as it is read. -/
inductive Phrase where
  /-- A literal. -/
  | datum (d : Datum)
  /-- A bound value, counted from 0. -/
  | parameter (n : Nat)
  /-- The current time. -/
  | now (form : ClockForm)
  /-- A column, behind the name of its table if there is one. -/
  | column (table : Option String) (name : String)
  /-- A name in double quotes: a column, or else a text. -/
  | quoted (name : String)
  /-- A unary operation. -/
  | unary (op : UnaryOperator) (a : Phrase)
  /-- A binary operation. -/
  | binary (left : Phrase) (op : Operator) (right : Phrase)
  /-- Whether a value is among others. -/
  | among (a : Phrase) (members : List Phrase)
  /-- A function call; over `*` it has no arguments. -/
  | call (function : String) (distinct : Bool) (args : List Phrase)
  /-- The number of the row within its part, counted in an order, with the name of the function. -/
  | rowNumber (function : String) (parts : List Phrase) (order : List (Phrase × Bool))
  /-- A choice between branches, by the value of an operand or by conditions. -/
  | case (operand : Option Phrase) (branches : List (Phrase × Phrase)) (otherwise : Option Phrase)
  /-- A conversion to a declared type. -/
  | cast (a : Phrase) (type : String)
  /-- A list in parentheses. -/
  | row (items : List Phrase)
deriving Inhabited, Repr

namespace Phrase

/-- Whether an expression is plainly false, whatever its names stand for: it is a zero, or looks for
a value among none. -/
def isFalse : Phrase → Bool
  | datum (.int 0) | among _ [] => true
  | _ => false

/-- The negation of an expression; that of a real literal is a literal. -/
def negation : Phrase → Phrase
  | datum (.real x) => datum (.real x.negate)
  | p => unary .negate p

/-- Whether an expression is the literal null. -/
def isNull : Phrase → Bool
  | datum .null => true
  | _ => false

/-- A binary operation. A conjunction with something plainly false is a zero. -/
def join (left : Phrase) (op : Operator) (right : Phrase) : Phrase :=
  if op = .and && (left.isFalse || right.isFalse) then datum (.int 0) else binary left op right

/-- Whether a value is among others. Among none it is not, whatever it is. -/
def isAmong (a : Phrase) : List Phrase → Phrase
  | [] => among (datum .null) []
  | members => among a members

/-- Whether a name is that of the function that numbers rows. -/
def isNumbering (name : String) : Bool := Text.sameName name "ROW_NUMBER"

/-- How many values an expression has: those of a list, otherwise one. -/
def width : Phrase → Nat
  | row items => items.length
  | _ => 1

/-- The integer that an expression consists of, if it is one of at most 31 bits and a sign. -/
def integer? : Phrase → Option Int
  | datum (.int n) => if n.toInt.natAbs < 0x80000000 then some n.toInt else none
  | unary .negate a => a.integer?.map (- ·)
  | _ => none

end Phrase

/-- What a query selects. -/
inductive Selected where
  /-- All columns, of the named table if there is one. -/
  | all (table : Option String)
  /-- An expression, with its alias and the characters that it is written with. -/
  | phrase (p : Phrase) (name : Option String) (written : String)
deriving Inhabited, Repr

/-- A query over at most one table. -/
structure Query where
  /-- Whether equal rows are merged. -/
  distinct : Bool := false
  /-- What is selected. -/
  selected : List Selected
  /-- The table and its alias. -/
  source : Option (String × Option String) := none
  /-- The condition that rows meet. -/
  condition : Option Phrase := none
  /-- The terms that rows are grouped by. -/
  groups : List Phrase := []
  /-- The condition that groups meet. -/
  having : Option Phrase := none
  /-- The terms that rows are ordered by, each ascending or descending. -/
  order : List (Phrase × Bool) := []
  /-- The greatest number of rows. -/
  limit : Option Phrase := none
  /-- The number of rows skipped. -/
  offset : Option Phrase := none
deriving Inhabited, Repr

/-- A rule in the definition of a column. -/
inductive ColumnRule where
  /-- The column is the primary key, and the database numbers it if asked to. -/
  | key (numbered : Bool)
  /-- The column requires a value. -/
  | required
  /-- The column rejects duplicates. -/
  | unique
  /-- The column has a default, kept with its text. -/
  | default (p : Phrase) (written : String)
deriving Inhabited, Repr

/-- The definition of a column. -/
structure ColumnClause where
  /-- The name of the column. -/
  name : String
  /-- The declared type, empty without one. -/
  type : String
  /-- The rules in order. -/
  rules : List ColumnRule
  /-- What stands between the definition and the one before it. -/
  lead : String
  /-- The characters of the definition. -/
  written : String
deriving Inhabited, Repr

/-- A constraint on the columns of a table. -/
inductive TableRule where
  /-- The columns are the primary key. -/
  | key (columns : List String) (numbered : Bool)
  /-- The columns together reject duplicates. -/
  | unique (columns : List String)
deriving Inhabited, Repr

/-- The definition of a table. -/
structure TableClause where
  /-- The name of the table. -/
  name : String
  /-- The name with the quotes that it is written with. -/
  writtenName : String
  /-- Whether the statement does nothing when the name is taken. -/
  ifMissing : Bool
  /-- The columns in order. -/
  columns : List ColumnClause
  /-- The constraints in order. -/
  rules : List TableRule
  /-- What stands behind the last column. -/
  tail : String
deriving Inhabited, Repr

/-- A kind of object that can be dropped. -/
inductive DropKind where
  | table
  | view
  | index
deriving DecidableEq, Inhabited, Repr

/-- Where inserted rows come from. -/
inductive RowSource where
  /-- They are listed. -/
  | listed (rows : List (List Phrase))
  /-- They are the rows of a query. -/
  | query (q : Query)
  /-- One row of defaults. -/
  | defaults
deriving Inhabited, Repr

/-- A statement. -/
inductive Command where
  | createTable (t : TableClause)
  | createIndex (unique ifMissing : Bool) (name table : String) (columns : List String)
  /-- Creates a view; its text and its name are kept as they are written. -/
  | createView (ifMissing : Bool) (name writtenName : String) (q : Query) (written : String)
  | drop (kind : DropKind) (ifExists : Bool) (name : String)
  | renameTable (table name : String)
  | addColumn (table : String) (column : ColumnClause)
  /-- Drops a column; its name is kept as it is written. -/
  | dropColumn (table column writtenColumn : String)
  | insert (table : String) (columns : Option (List String)) (source : RowSource)
  | update (table : String) (assignments : List (String × Phrase)) (condition : Option Phrase)
  | delete (table : String) (condition : Option Phrase)
  | query (q : Query)
  /-- Asks whether a rename leaves dependent views as they are written. -/
  | askLegacyRename
  /-- Says whether a rename leaves dependent views as they are written. -/
  | setLegacyRename (on : Bool)
deriving Inhabited, Repr

/-- Whether the statement changes a table that exists. -/
def Command.changesTable : Command → Bool
  | renameTable .. | addColumn .. | dropColumn .. | insert .. | update .. | delete .. => true
  | _ => false

end EntitySql
