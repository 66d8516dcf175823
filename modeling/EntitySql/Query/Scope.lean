import EntitySql.Model.Basic
import EntitySql.Query.Expr
import EntitySql.Sql.Operation

/-!
# Compiling expressions

A scope is what an expression is compiled in: the model whose fields it names, whether they are
found ignoring case, and the alias in front of their columns. Compiling looks every property up and
every function name too; the first one that is not known, from left to right, is the error. A
comparison for equality with the absent value becomes `IS` or `IS NOT` with that value on the right.
-/

namespace EntitySql

/-- What an expression is compiled in. -/
structure Scope where
  /-- The model whose fields are the properties. -/
  model : Model
  /-- Whether properties are found ignoring ASCII case. -/
  ignoreCase : Bool := false
  /-- The table alias in front of every column. -/
  qualifier : Option String := none

/-- The SQL operator of a binary operator. -/
def BinaryOp.operator : BinaryOp → Operator
  | mul => .multiply
  | div => .divide
  | rem => .modulo
  | add => .add
  | sub => .subtract
  | eq => .equal
  | ne => .notEqual
  | lt => .less
  | le => .lessOrEqual
  | gt => .greater
  | ge => .greaterOrEqual
  | like => .like
  | bitAnd => .bitAnd
  | bitOr => .bitOr
  | bitXor => .bitXor
  | and => .and
  | or => .or
  | shiftLeft => .shiftLeft
  | shiftRight => .shiftRight

/-- The SQL operator of a unary operator. -/
def UnaryOp.operator : UnaryOp → UnaryOperator
  | neg => .negate
  | not => .not

/-- What a function name stands for. -/
inductive Callee where
  /-- A function of SQL. -/
  | function (f : Function) (distinct : Bool)
  /-- A choice between two values. -/
  | cond
  /-- A list in parentheses. -/
  | tuple
  /-- A membership test. -/
  | membership
deriving DecidableEq, Inhabited, Repr

namespace Callee

/-- What a name in lower case stands for with that many arguments. -/
def ofName? (name : String) (arity : Nat) : Option Callee :=
  match name, arity with
  | "count", 0 | "count", 1 => some (function .count false)
  | "count_distinct", 1 => some (function .count true)
  | "sum", 1 => some (function .sum false)
  | "avg", 1 => some (function .avg false)
  | "min", 1 => some (function .min false)
  | "max", 1 => some (function .max false)
  | "coalesce", _ + 1 => some (function .coalesce false)
  | "lower", 1 => some (function .lower false)
  | "upper", 1 => some (function .upper false)
  | "length", 1 => some (function .length false)
  | "abs", 1 => some (function .abs false)
  | "if", 3 => some cond
  | "tuple", _ + 1 => some tuple
  | "any", 2 => some membership
  | _, _ => none

/-- The term of a call with compiled arguments, of which there are as many as `ofName?` asks
for. -/
def apply : Callee → List Term → Term
  | cond, [c, yes, no] => .cond c yes no
  | membership, [needle, haystack] => .operation needle .isIn haystack
  | function f distinct, args => .call f distinct args
  | _, args => .tuple args

end Callee

namespace Scope

/-- The column of a property. -/
def column (s : Scope) (property : String) : Except Error Term :=
  match s.model.columnOfField? property s.ignoreCase with
  | some c => .ok (.column s.qualifier c.name)
  | none => .error (.propertyNotFound property s.model.name s.model.columnNames)

/-- The operator of a comparison, of which one side may be the absent value. -/
def nullOperator (op : BinaryOp) (withNull : Bool) : Operator :=
  match op, withNull with
  | .eq, true => .is
  | .ne, true => .isNot
  | op, _ => op.operator

/-- Whether the operands of a comparison change places so that the absent value is on the right. -/
def swapsNull (op : BinaryOp) (left : Expr) : Bool := (op = .eq || op = .ne) && left.isNull

mutual

/-- Compiles an expression. -/
def compile (s : Scope) : Expr → Except Error Term
  | .property name => s.column name
  | .constant v => .ok (.constant v)
  | .arg => .ok (.argument false)
  | .listArg => .ok (.argument true)
  | .binary op left right => do
    let operator := nullOperator op (left.isNull || right.isNull)
    if swapsNull op left then
      let r ← s.compile right
      let l ← s.compile left
      return .operation r operator l
    else
      let l ← s.compile left
      let r ← s.compile right
      return .operation l operator r
  | .unary op operand => return .unary op.operator (← s.compile operand)
  | .call function args =>
    match Callee.ofName? (Text.lowerAscii function) args.length with
    | some callee => return callee.apply (← s.compileList args)
    | none => .error (.unsupportedCall function args.length)
  | .case operand branches otherwise => do
    let o ← s.compileOption operand
    let bs ← s.compileBranches branches
    let e ← s.compileOption otherwise
    return .case o bs e
  | .cast operand target => return .cast (← s.compile operand) target
  | .tuple items => return .tuple (← s.compileList items)
  | .named operand name => return .named (← s.compile operand) name
  | .all => .ok (.all s.qualifier)
  | .rowNumber partition order => do
    let p ← s.compileList partition
    let o ← s.compileOrder order
    return .rowNumber p o

/-- Compiles expressions from left to right. -/
def compileList (s : Scope) : List Expr → Except Error (List Term)
  | [] => .ok []
  | e :: es => do
    let t ← s.compile e
    let ts ← s.compileList es
    return t :: ts

/-- Compiles an optional expression. -/
def compileOption (s : Scope) : Option Expr → Except Error (Option Term)
  | none => .ok none
  | some e => return some (← s.compile e)

/-- Compiles the branches of a choice. -/
def compileBranches (s : Scope) : List (Expr × Expr) → Except Error (List (Term × Term))
  | [] => .ok []
  | (condition, result) :: rest => do
    let c ← s.compile condition
    let r ← s.compile result
    let ts ← s.compileBranches rest
    return (c, r) :: ts

/-- Compiles order terms. -/
def compileOrder (s : Scope) : List (Expr × Bool) → Except Error (List (Term × Bool))
  | [] => .ok []
  | (e, descending) :: rest => do
    let t ← s.compile e
    let ts ← s.compileOrder rest
    return (t, descending) :: ts

end

/-- The operation of a single expression. -/
def prepare (s : Scope) (d : Dialect) (e : Expr) : Except Error Operation :=
  (s.compile e).map fun t => (Draft.term ⟨d, []⟩ t).build

end Scope

end EntitySql
