import EntitySql.Sql.Dialect
import EntitySql.Sql.Fragment
import EntitySql.Sql.Operator

/-!
# Terms

A term is an SQL expression, or another part of a statement that is written from a tree. Writing a
term gives fragments: text, the values captured in the term, and slots for the values of a call. An
operand is put in parentheses where standing bare would regroup the expression; no value ever
becomes text, except that the absent value is the word `NULL`.
-/

namespace EntitySql

/-- A part of a statement. -/
inductive Term where
  /-- A column, behind a table alias if there is one. -/
  | column (qualifier : Option String) (name : String)
  /-- A captured value. -/
  | constant (v : Value)
  /-- A slot for one value of a call, or for a list of them. -/
  | argument (list : Bool)
  /-- A binary operation. -/
  | operation (left : Term) (op : Operator) (right : Term)
  /-- A unary operation. -/
  | unary (op : UnaryOperator) (operand : Term)
  /-- A function call; without arguments it is over `*`. -/
  | call (function : Function) (distinct : Bool) (args : List Term)
  /-- A choice between branches, by the value of an operand or by conditions. -/
  | case (operand : Option Term) (branches : List (Term × Term)) (otherwise : Option Term)
  /-- A choice between two values. -/
  | cond (condition yes no : Term)
  /-- A conversion to a column type. -/
  | cast (operand : Term) (target : ColumnType)
  /-- A list in parentheses. -/
  | tuple (items : List Term)
  /-- A term with a name. -/
  | named (operand : Term) (name : String)
  /-- All columns, of an aliased table if there is one. -/
  | all (qualifier : Option String)
  /-- The number of the row within its partition, in an order. -/
  | rowNumber (partition : List Term) (order : List (Term × Bool))
  /-- The paging clause of a query that is ordered or not. -/
  | paging (limit offset : Option UInt64) (ordered : Bool)
deriving Inhabited, Repr

namespace Term

/-- How tightly the outermost operator binds; a term without one is atomic. -/
def priority? : Term → Option Nat
  | operation _ op _ => some op.priority
  | unary op _ => some op.priority
  | _ => none

/-- Whether an operand of a binary operation needs parentheses: it binds looser than the operator,
or equally tight on its right side. `NOT` binds looser than every comparison and computation. -/
def needsParens (operand : Term) (parent : Operator) (onRight : Bool) : Bool :=
  match operand with
  | operation _ op _ =>
    parent.priority < op.priority || (onRight && op.priority == parent.priority)
  | unary .not _ => parent.priority < Operator.and.priority
  | unary op _ => parent.priority < op.priority
  | _ => false

/-- Whether a term is a list in parentheses. -/
def isTuple : Term → Bool
  | tuple _ => true
  | _ => false

/-- Whether the right operand of a binary operation is put in parentheses. What follows `IN` always
is, unless it brings its own. -/
def wrapsRight (op : Operator) (right : Term) : Bool :=
  if op = .isIn then !right.isTuple else right.needsParens op true

/-- The fragments between parentheses, if they are wanted. -/
def wrapIf (wanted : Bool) (inner : List Fragment) : List Fragment :=
  if wanted then .text "(" :: inner ++ [.text ")"] else inner

/-- The alias of a table and the point behind it. -/
def qualifierText (d : Dialect) : Option String → String
  | some a => d.quote a ++ "."
  | none => ""

/-- The mark of a descending order. -/
def orderMark (descending : Bool) : List Fragment := if descending then [.text " DESC"] else []

mutual

/-- The fragments of a term. -/
def fragments (d : Dialect) : Term → List Fragment
  | column qualifier name => [.text (qualifierText d qualifier ++ d.quote name)]
  | constant v => [.captured v]
  | argument list => [if list then .listSlot else .slot]
  | operation left op right =>
    wrapIf (left.needsParens op false) (left.fragments d) ++ .text s!" {op.sql} " ::
      wrapIf (wrapsRight op right) (right.fragments d)
  | unary op operand =>
    .text op.sql :: wrapIf operand.priority?.isSome (operand.fragments d)
  | call function distinct args =>
    .text (function.sql ++ "(" ++ if distinct then "DISTINCT " else "") ::
      (if args.isEmpty then [.text "*"] else listFragments d args) ++ [.text ")"]
  | case operand branches otherwise =>
    .text "CASE" :: optionFragments d " " operand ++ branchFragments d branches ++
      optionFragments d " ELSE " otherwise ++ [.text " END"]
  | cond condition yes no =>
    .text "CASE WHEN " :: condition.fragments d ++ .text " THEN " :: yes.fragments d ++
      .text " ELSE " :: no.fragments d ++ [.text " END"]
  | cast operand target =>
    .text "CAST(" :: operand.fragments d ++ [.text s!" AS {d.nativeType target none})"]
  | tuple items => .text "(" :: listFragments d items ++ [.text ")"]
  | named operand name => operand.fragments d ++ [.text (" AS " ++ d.quote name)]
  | all qualifier => [.text (qualifierText d qualifier ++ "*")]
  | rowNumber partition order =>
    .text "ROW_NUMBER() OVER (" ::
      (if partition.isEmpty then [] else .text "PARTITION BY " :: listFragments d partition) ++
      (if order.isEmpty then []
        else .text (if partition.isEmpty then "ORDER BY " else " ORDER BY ") ::
          orderFragments d order) ++ [.text ")"]
  | paging limit offset ordered => [.text (d.paging limit offset ordered)]

/-- The fragments of terms, divided by commas. -/
def listFragments (d : Dialect) : List Term → List Fragment
  | [] => []
  | [t] => t.fragments d
  | t :: ts => t.fragments d ++ .text ", " :: listFragments d ts

/-- The fragments of an optional term behind a keyword. -/
def optionFragments (d : Dialect) (keyword : String) : Option Term → List Fragment
  | none => []
  | some t => .text keyword :: t.fragments d

/-- The fragments of the branches of a choice. -/
def branchFragments (d : Dialect) : List (Term × Term) → List Fragment
  | [] => []
  | (condition, result) :: rest =>
    .text " WHEN " :: condition.fragments d ++ .text " THEN " :: result.fragments d ++
      branchFragments d rest

/-- The fragments of order terms, divided by commas. -/
def orderFragments (d : Dialect) : List (Term × Bool) → List Fragment
  | [] => []
  | [(t, descending)] => t.fragments d ++ orderMark descending
  | (t, descending) :: rest =>
    t.fragments d ++ orderMark descending ++ .text ", " :: orderFragments d rest

end

end Term

end EntitySql
