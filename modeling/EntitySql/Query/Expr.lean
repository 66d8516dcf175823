import EntitySql.Model.ColumnType

/-!
# Expressions

An expression is a condition or value over the properties of an entity, before any column is looked
up. The functions of this module build expressions; `Scope.compile` turns one into a term.
-/

namespace EntitySql

/-- A binary operator of an expression. -/
inductive BinaryOp where
  | mul
  | div
  | rem
  | add
  | sub
  | eq
  | ne
  | lt
  | le
  | gt
  | ge
  | like
  | bitAnd
  | bitOr
  | bitXor
  | and
  | or
  | shiftLeft
  | shiftRight
deriving DecidableEq, Inhabited, Repr

/-- A unary operator of an expression. -/
inductive UnaryOp where
  | neg
  | not
deriving DecidableEq, Inhabited, Repr

/-- An expression over the properties of an entity. -/
inductive Expr where
  /-- A field of the entity. -/
  | property (name : String)
  /-- A value. -/
  | constant (v : Value)
  /-- A value given by each call. -/
  | arg
  /-- A list of values given by each call. -/
  | listArg
  /-- A binary operation. -/
  | binary (op : BinaryOp) (left right : Expr)
  /-- A unary operation. -/
  | unary (op : UnaryOp) (operand : Expr)
  /-- A call by name; only known functions compile. -/
  | call (function : String) (args : List Expr)
  /-- A choice between branches, by the value of an operand or by conditions. -/
  | case (operand : Option Expr) (branches : List (Expr × Expr)) (otherwise : Option Expr)
  /-- A conversion to a column type. -/
  | cast (operand : Expr) (target : ColumnType)
  /-- A list in parentheses. -/
  | tuple (items : List Expr)
  /-- An expression with a name. -/
  | named (operand : Expr) (name : String)
  /-- All columns. -/
  | all
  /-- The number of the row within its partition, in an order. -/
  | rowNumber (partition : List Expr) (order : List (Expr × Bool))
deriving Inhabited, Repr

namespace Expr

/-- The number of rows of a group. -/
def countAll : Expr := call "count" []

/-- The number of rows of a group in which the expression has a value. -/
def count (e : Expr) : Expr := call "count" [e]

/-- The number of different values of the expression. -/
def countDistinct (e : Expr) : Expr := call "count_distinct" [e]

/-- The sum of the expression over a group. -/
def sum (e : Expr) : Expr := call "sum" [e]

/-- The average of the expression over a group. -/
def avg (e : Expr) : Expr := call "avg" [e]

/-- The least value of the expression in a group. -/
def min (e : Expr) : Expr := call "min" [e]

/-- The greatest value of the expression in a group. -/
def max (e : Expr) : Expr := call "max" [e]

/-- The first of the expressions that has a value. -/
def coalesce (es : List Expr) : Expr := call "coalesce" es

/-- One of two values, by a condition. -/
def ifThen (condition yes no : Expr) : Expr := call "if" [condition, yes, no]

/-- A list in parentheses, which must not be empty. -/
def tupleOf (es : List Expr) : Expr := call "tuple" es

/-- Whether the first expression is among those of the second. -/
def any (needle haystack : Expr) : Expr := call "any" [needle, haystack]

/-- Adds a term to the partition of a row number; other expressions stay as they are. -/
def partitionBy (e : Expr) (term : Expr) : Expr :=
  match e with
  | rowNumber partition order => rowNumber (partition ++ [term]) order
  | e => e

/-- Adds a term to the order of a row number; other expressions stay as they are. -/
def orderBy (e : Expr) (term : Expr) (descending : Bool) : Expr :=
  match e with
  | rowNumber partition order => rowNumber partition (order ++ [(term, descending)])
  | e => e

/-- Whether the expression is the absent value. -/
def isNull : Expr → Bool
  | constant .null => true
  | _ => false

end Expr

end EntitySql
