import EntitySql.Database.Operation

/-!
# Formulas

A formula is an expression whose names are looked up: a column is the position of a cell, a bound
value is a datum. `Formula.eval` computes it for a candidate: a row, the group of rows that its
aggregates range over, and its numbers among the other candidates.

Two operands of a comparison are first brought to a common type. If one of them is a column, the
other is converted by the column's affinity; between two columns, numbers prevail.
-/

namespace EntitySql

/-- The cells of a row in the order of its columns. -/
abbrev Record := List Datum

/-- An expression over the cells of a row. -/
inductive Formula where
  /-- A fixed datum. -/
  | datum (d : Datum)
  /-- The cell at a position, in a column that has an affinity unless it is computed. -/
  | cell (index : Nat) (affinity : Option Affinity)
  /-- A unary operation. -/
  | unary (op : UnaryOperator) (a : Formula)
  /-- A binary operation. -/
  | binary (left : Formula) (op : Operator) (right : Formula)
  /-- Whether a value is among others. -/
  | among (a : Formula) (members : List Formula)
  /-- A function of single values, or an aggregate over a group, with its name as it is written. -/
  | call (name : String) (function : Function) (distinct : Bool) (args : List Formula)
  /-- The number among the candidates that agree in some values, counted in an order. -/
  | rowNumber (parts : List Formula) (order : List (Formula × Bool))
  /-- A choice between branches, by the value of an operand or by conditions. -/
  | case (operand : Option Formula) (branches : List (Formula × Formula))
      (otherwise : Option Formula)
  /-- A conversion. -/
  | cast (a : Formula) (affinity : Affinity)
  /-- A list in parentheses, which has no value by itself. -/
  | row (items : List Formula)
deriving Inhabited, Repr

/-- What values are computed from. -/
structure Candidate where
  /-- The row that cells are taken from. -/
  row : Record
  /-- The rows that aggregates range over. -/
  group : List Record := []
  /-- The numbers given to it, each with the formula that asks for it. -/
  numbers : List (Formula × Nat) := []
deriving Inhabited, Repr

namespace Formula

mutual

/-- Whether two formulas are the same, but for the case in which functions are written. -/
def same : Formula → Formula → Bool
  | datum a, datum b => a == b
  | cell i _, cell j _ => i == j
  | unary op a, unary op' b => op == op' && a.same b
  | binary a op b, binary a' op' b' => op == op' && a.same a' && b.same b'
  | among a members, among b members' => a.same b && sameList members members'
  | call _ function distinct args, call _ function' distinct' args' =>
    function == function' && distinct == distinct' && sameList args args'
  | rowNumber parts order, rowNumber parts' order' =>
    sameList parts parts' && sameOrder order order'
  | case operand branches otherwise, case operand' branches' otherwise' =>
    sameOption operand operand' && sameBranches branches branches' &&
      sameOption otherwise otherwise'
  | cast a affinity, cast b affinity' => affinity == affinity' && a.same b
  | row items, row items' => sameList items items'
  | _, _ => false

/-- Whether two optional formulas are the same. -/
def sameOption : Option Formula → Option Formula → Bool
  | none, none => true
  | some a, some b => a.same b
  | _, _ => false

/-- Whether two lists of formulas are the same. -/
def sameList : List Formula → List Formula → Bool
  | [], [] => true
  | a :: rest, b :: rest' => a.same b && sameList rest rest'
  | _, _ => false

/-- Whether two lists of order terms are the same. -/
def sameOrder : List (Formula × Bool) → List (Formula × Bool) → Bool
  | [], [] => true
  | (a, descending) :: rest, (b, descending') :: rest' =>
    descending == descending' && a.same b && sameOrder rest rest'
  | _, _ => false

/-- Whether two lists of branches are the same. -/
def sameBranches : List (Formula × Formula) → List (Formula × Formula) → Bool
  | [], [] => true
  | (a, b) :: rest, (a', b') :: rest' => a.same a' && b.same b' && sameBranches rest rest'
  | _, _ => false

end

/-- Whether an operator compares its operands. -/
def compares : Operator → Bool
  | .equal | .notEqual | .less | .lessOrEqual | .greater | .greaterOrEqual | .is | .isNot => true
  | _ => false

/-- The comparison of two lists of as many formulas, given as pairs. They are equal if all pairs
are, and the first pair that is not equal decides which one is less. -/
def comparePairs (op : Operator) : List (Formula × Formula) → Formula
  | [] => datum (.ofBool true)
  | [(a, b)] => binary a op b
  | (a, b) :: rest =>
    let others := comparePairs op rest
    match op with
    | .notEqual | .isNot => binary (binary a op b) .or others
    | .less | .lessOrEqual =>
      binary (binary a .less b) .or (binary (binary a .equal b) .and others)
    | .greater | .greaterOrEqual =>
      binary (binary a .greater b) .or (binary (binary a .equal b) .and others)
    | _ => binary (binary a op b) .and others

/-- A binary operation; lists of as many formulas can be compared. -/
def join (left : Formula) (op : Operator) (right : Formula) : Formula :=
  match left, right with
  | row items, row others =>
    if compares op && items.length = others.length then comparePairs op (items.zip others)
    else binary left op right
  | _, _ => binary left op right

/-- Whether a value or a list of values is among others. -/
def isAmong (a : Formula) (members : List Formula) : Formula :=
  match a with
  | row _ =>
    members.foldl (fun found m => binary found .or (a.join .equal m)) (datum (.ofBool false))
  | _ => among a members

/-- A choice between branches. If the operand is a list, each branch compares it. -/
def choice (operand : Option Formula) (branches : List (Formula × Formula))
    (otherwise : Option Formula) : Formula :=
  match operand with
  | some (row items) =>
    case none (branches.map fun b => ((row items).join .equal b.1, b.2)) otherwise
  | _ => case operand branches otherwise

/-- Whether a formula counts as the wanted truth value, or does not if the test is negated. -/
def hasTruth (wanted negated : Bool) (a : Formula) : Formula :=
  .case none [(if wanted then a else .unary .not a, .datum (.ofBool !negated))]
    (some (.datum (.ofBool negated)))

/-- Whether a function with these arguments combines the rows of a group. -/
def isAggregate (function : Function) (args : List Formula) : Bool :=
  function.isAggregate && args.length ≤ 1

/-- The affinity that a formula brings into a comparison. -/
def affinity? : Formula → Option Affinity
  | cell _ a => a
  | cast _ a => some a
  | _ => none

/-- The affinity by which two operands are compared. -/
def comparisonAffinity : Option Affinity → Option Affinity → Affinity
  | some a, some b => if a.isNumeric || b.isNumeric then .numeric else .blob
  | some a, none | none, some a => a
  | none, none => .blob

/-- The result of a binary operation on operands that bring the given affinities. -/
def combine (left : Option Affinity) (a : Datum) (op : Operator) (right : Option Affinity)
    (b : Datum) : Datum :=
  if compares op then
    let common := comparisonAffinity left right
    (common.adjust a).binary op (common.adjust b)
  else a.binary op b

/-- The data without repetitions, each where it first occurs. -/
def withoutRepeats (data : List Datum) : List Datum :=
  data.foldl (fun kept d => if kept.any d.same then kept else kept ++ [d]) []

mutual

/-- The value of a formula for a candidate. -/
def eval (c : Candidate) : Formula → Except Fault Datum
  | datum d => .ok d
  | cell index _ => .ok (c.row[index]?.getD .null)
  | unary op a => return (← a.eval c).unary op
  | binary left op right => do
    let a ← left.eval c
    let b ← right.eval c
    return combine left.affinity? a op right.affinity? b
  | among a members => do
    let value ← a.eval c
    let common := a.affinity?.getD .blob
    let others ← evalList c members
    return .ofTruth ((common.adjust value).among (others.map common.adjust))
  | call _ function distinct args =>
    if isAggregate function args then
      match args with
      | [] => .ok (.int (Int64.ofNat c.group.length))
      | a :: _ => do
        let data ← c.group.mapM fun row => a.eval { row := row }
        function.onGroup (if distinct then withoutRepeats data else data)
    else do function.onValues (← evalList c args)
  | rowNumber parts order =>
    match c.numbers.find? fun known => (rowNumber parts order).same known.1 with
    | some (_, n) => .ok (.int (Int64.ofNat n))
    | none => .ok .null
  | case operand branches otherwise => do
    let subject ← match operand with
      | none => pure none
      | some a => do pure (some (a.affinity?, ← a.eval c))
    match ← evalBranches c subject branches with
    | some d => return d
    | none =>
      match otherwise with
      | none => return .null
      | some a => a.eval c
  | cast a affinity => return affinity.cast (← a.eval c)
  | row _ => .error .misusedRow

/-- The values of formulas. -/
def evalList (c : Candidate) : List Formula → Except Fault (List Datum)
  | [] => .ok []
  | a :: rest => do return (← a.eval c) :: (← evalList c rest)

/-- The value of the first branch that applies: whose condition equals the subject, or holds if
there is no subject. -/
def evalBranches (c : Candidate) (subject : Option (Option Affinity × Datum)) :
    List (Formula × Formula) → Except Fault (Option Datum)
  | [] => .ok none
  | (condition, result) :: rest => do
    let d ← condition.eval c
    let applies := match subject with
      | none => d
      | some (affinity, value) => combine affinity value .equal condition.affinity? d
    if applies.isTrue then some <$> result.eval c
    else evalBranches c subject rest

end

end Formula

end EntitySql
