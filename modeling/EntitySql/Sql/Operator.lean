/-!
# Operators and functions

The operators and functions of an SQL expression, with their spelling and, for operators, the
priority by which operands are grouped: a lower number binds tighter.
-/

namespace EntitySql

/-- An operator between two operands. -/
inductive Operator where
  | multiply
  | divide
  | modulo
  | add
  | subtract
  | equal
  | notEqual
  | less
  | lessOrEqual
  | greater
  | greaterOrEqual
  | like
  | is
  | isNot
  | isIn
  | bitAnd
  | bitOr
  | bitXor
  | and
  | or
  | shiftLeft
  | shiftRight
deriving DecidableEq, Inhabited, Repr

namespace Operator

/-- All operators, tightest first except for the shifts. -/
def all : List Operator :=
  [multiply, divide, modulo, add, subtract, equal, notEqual, less, lessOrEqual, greater,
    greaterOrEqual, like, is, isNot, isIn, bitAnd, bitOr, bitXor, and, or, shiftLeft, shiftRight]

/-- How tightly the operator binds; lower is tighter. -/
def priority : Operator → Nat
  | multiply | divide | modulo => 0
  | add | subtract => 1
  | equal | notEqual | less | lessOrEqual | greater | greaterOrEqual | like | is | isNot | isIn => 3
  | bitAnd => 4
  | bitOr => 5
  | bitXor => 6
  | and => 7
  | or => 8
  | shiftLeft | shiftRight => 9

/-- The spelling of the operator. -/
def sql : Operator → String
  | multiply => "*"
  | divide => "/"
  | modulo => "%"
  | add => "+"
  | subtract => "-"
  | equal => "="
  | notEqual => "<>"
  | less => "<"
  | lessOrEqual => "<="
  | greater => ">"
  | greaterOrEqual => ">="
  | like => "LIKE"
  | is => "IS"
  | isNot => "IS NOT"
  | isIn => "IN"
  | bitAnd => "&"
  | bitOr => "|"
  | bitXor => "^"
  | and => "AND"
  | or => "OR"
  | shiftLeft => "<<"
  | shiftRight => ">>"

end Operator

/-- An operator in front of one operand. -/
inductive UnaryOperator where
  | negate
  | not
deriving DecidableEq, Inhabited, Repr

namespace UnaryOperator

/-- All operators with one operand. -/
def all : List UnaryOperator := [negate, not]

/-- How tightly the operator binds, on the scale of `Operator.priority`. -/
def priority (_ : UnaryOperator) : Nat := 2

/-- The spelling of the operator, with the blank that follows it. -/
def sql : UnaryOperator → String
  | negate => "-"
  | not => "NOT "

end UnaryOperator

/-- A function of an SQL expression. -/
inductive Function where
  | count
  | sum
  | avg
  | min
  | max
  | coalesce
  | lower
  | upper
  | length
  | abs
deriving DecidableEq, Inhabited, Repr

namespace Function

/-- All functions. -/
def all : List Function := [count, sum, avg, min, max, coalesce, lower, upper, length, abs]

/-- The name of the function. -/
def sql : Function → String
  | count => "COUNT"
  | sum => "SUM"
  | avg => "AVG"
  | min => "MIN"
  | max => "MAX"
  | coalesce => "COALESCE"
  | lower => "LOWER"
  | upper => "UPPER"
  | length => "LENGTH"
  | abs => "ABS"

/-- Whether the function combines the rows of a group. -/
def isAggregate : Function → Bool
  | count | sum | avg | min | max => true
  | _ => false

end Function

end EntitySql
