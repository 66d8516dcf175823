import EntitySql.Proofs.Reading.Term

/-!
# The grammar of terms

A reader of terms that does not know the renderer. It climbs the levels of a table of priorities:
a lower number binds tighter, operators between two operands group to the left, and parentheses and
keywords delimit everything else. Which tree a text stands for is what this reader finds.

The table is a parameter, because a database may group differently from the library.

## Main definitions

* `Priorities`, `Priorities.declared`: a table of priorities, and that of the library
* `Grammar.level`: reads a term whose outermost operator binds tighter than a level
* `Grammar.atom`: reads a term that has no outermost operator
* `Grammar.read?`: the tree that fragments are read as
-/

namespace EntitySql

/-- How tightly the operators bind; lower is tighter. -/
structure Priorities where
  /-- The priorities of the operators between two operands. -/
  binary : Operator → Nat
  /-- The priorities of the operators in front of one operand. -/
  unary : UnaryOperator → Nat
  /-- A bound of the priorities. -/
  levels : Nat

/-- The priorities that the library declares. -/
def Priorities.declared : Priorities := ⟨Operator.priority, UnaryOperator.priority, 10⟩

/-- Takes symbols off the front, or refuses them. -/
abbrev Reader (α : Type) := List Symbol → Option (α × List Symbol)

namespace Grammar

/-- Takes the given symbol. -/
def expect (x : Symbol) : List Symbol → Option (List Symbol)
  | [] => none
  | y :: rest => if y = x then some rest else none

/-- Takes the given symbol if it comes next. -/
def accept (x : Symbol) : List Symbol → Bool × List Symbol
  | [] => (false, [])
  | y :: rest => if y = x then (true, rest) else (false, y :: rest)

/-- Takes items that are divided by commas; at most `n` items. -/
def separated {α : Type} (item : Reader α) : Nat → Reader (List α)
  | 0, _ => none
  | n + 1, xs => do
    let (first, rest) ← item xs
    match accept (.mark ",") rest with
    | (true, rest) =>
      let (others, rest) ← separated item n rest
      return (first :: others, rest)
    | (false, rest) => return ([first], rest)

/-! ### Operators -/

/-- The operator between two operands that comes next. `IS NOT` is one operator. -/
def operatorAt? : Reader Operator
  | [] => none
  | x :: rest =>
    if x = .word "IS" ∧ rest.head? = some (.word "NOT") then some (.isNot, rest.tail)
    else (Operator.all.find? fun op => Term.operatorSymbols op = [x]).map (·, rest)

/-- The operator in front of an operand that a symbol stands for. -/
def unaryOf? (x : Symbol) : Option UnaryOperator :=
  UnaryOperator.all.find? fun u => Term.unarySymbol u = x

/-- Reads operators of one priority in front of what `inner` reads. Two signs side by side would
begin a comment. -/
def prefixed (g : Priorities) (n : Nat) (inner : Reader Term) : Reader Term
  | [] => none
  | x :: rest =>
    match unaryOf? x with
    | some u =>
      if g.unary u ≠ n then inner (x :: rest)
      else if x = .mark "-" ∧ rest.head? = some (.mark "-") then none
      else (prefixed g n inner rest).map fun (t, rest) => (.unary u t, rest)
    | none => inner (x :: rest)

/-- Reads operators of one priority and their right operands behind a left operand, grouping to the
left; at most `count` operators. -/
def chain (g : Priorities) (n : Nat) (operand : Reader Term) : Nat → Term → Reader Term
  | 0, left, xs => some (left, xs)
  | count + 1, left, xs =>
    match operatorAt? xs with
    | some (op, rest) =>
      if g.binary op = n then do
        let (right, rest) ← operand rest
        chain g n operand count (.operation left op right) rest
      else some (left, xs)
    | none => some (left, xs)

/-- Reads a term whose outermost operator has a priority below `n`. -/
def level (g : Priorities) (atom : Reader Term) : Nat → Reader Term
  | 0, xs => atom xs
  | n + 1, xs => do
    let (left, rest) ← prefixed g n (level g atom n) xs
    chain g n (prefixed g n (level g atom n)) rest.length left rest

/-! ### Atoms -/

/-- Reads a column behind its qualifier or its own name. -/
def column (a : String) : Reader Term
  | .mark "." :: .name b :: rest => some (.column (some a) b, rest)
  | rest => some (.column none a, rest)

/-- Reads what follows an opening parenthesis: a list, or a term. -/
def parenthesized (phrase : Reader Term) (xs : List Symbol) : Option (Term × List Symbol) :=
  match accept (.mark ")") xs with
  | (true, rest) => some (.tuple [], rest)
  | (false, xs) => do
    let (items, rest) ← separated phrase xs.length xs
    let rest ← expect (.mark ")") rest
    return (if let [t] := items then t else .tuple items, rest)

/-- Reads a term behind a keyword, if the keyword comes next. -/
def optional (phrase : Reader Term) (keyword : Symbol) (xs : List Symbol) :
    Option (Option Term × List Symbol) :=
  match accept keyword xs with
  | (true, rest) => (phrase rest).map fun (t, rest) => (some t, rest)
  | (false, xs) => some (none, xs)

/-- Reads the branches of a choice; at most `n`. -/
def branches (phrase : Reader Term) : Nat → Reader (List (Term × Term))
  | 0, xs => some ([], xs)
  | n + 1, xs =>
    match accept (.word "WHEN") xs with
    | (true, rest) => do
      let (condition, rest) ← phrase rest
      let rest ← expect (.word "THEN") rest
      let (result, rest) ← phrase rest
      let (others, rest) ← branches phrase n rest
      return ((condition, result) :: others, rest)
    | (false, xs) => some ([], xs)

/-- Reads what follows `CASE`. -/
def choice (phrase : Reader Term) (xs : List Symbol) : Option (Term × List Symbol) := do
  let (operand, rest) ←
    if xs.head? = some (.word "WHEN") then some (none, xs)
    else (phrase xs).map fun (t, rest) => (some t, rest)
  let (branches, rest) ← branches phrase rest.length rest
  let (otherwise, rest) ← optional phrase (.word "ELSE") rest
  let rest ← expect (.word "END") rest
  return (.case operand branches otherwise, rest)

/-- Takes the symbols up to the parenthesis that closes `depth` open ones, and that parenthesis. -/
def closing : Nat → List Symbol → Option (List Symbol × List Symbol)
  | _, [] => none
  | depth, .mark ")" :: rest =>
    match depth with
    | 0 => some ([], rest)
    | depth + 1 => (closing depth rest).map fun (xs, rest) => (.mark ")" :: xs, rest)
  | depth, .mark "(" :: rest =>
    (closing (depth + 1) rest).map fun (xs, rest) => (.mark "(" :: xs, rest)
  | depth, x :: rest => (closing depth rest).map fun (xs, rest) => (x :: xs, rest)

/-- Reads what follows `CAST`. A native name stands for the first type that has it. -/
def conversion (d : Dialect) (phrase : Reader Term) (xs : List Symbol) :
    Option (Term × List Symbol) := do
  let rest ← expect (.mark "(") xs
  let (operand, rest) ← phrase rest
  let rest ← expect (.word "AS") rest
  let (native, rest) ← closing 0 rest
  let target ← ColumnType.builtIn.find? fun type => Term.typeSymbols d type = native
  return (.cast operand target, rest)

/-- Reads what follows the name of a function. -/
def arguments (phrase : Reader Term) (f : Function) (xs : List Symbol) :
    Option (Term × List Symbol) := do
  let rest ← expect (.mark "(") xs
  let (distinct, rest) := accept (.word "DISTINCT") rest
  match accept (.mark "*") rest with
  | (true, rest) =>
    let rest ← expect (.mark ")") rest
    return (.call f distinct [], rest)
  | (false, rest) =>
    let (args, rest) ← separated phrase rest.length rest
    let rest ← expect (.mark ")") rest
    return (.call f distinct args, rest)

/-- Reads an order term and its direction. -/
def ordering (phrase : Reader Term) : Reader (Term × Bool) := fun xs => do
  let (t, rest) ← phrase xs
  let (descending, rest) := accept (.word "DESC") rest
  return ((t, descending), rest)

/-- Reads items behind two keywords, if the first of them comes next. -/
def clause {α : Type} (item : Reader α) (keyword : Symbol) (xs : List Symbol) :
    Option (List α × List Symbol) :=
  match accept keyword xs with
  | (true, rest) => do
    let rest ← expect (.word "BY") rest
    separated item rest.length rest
  | (false, xs) => some ([], xs)

/-- Reads what follows `ROW_NUMBER`. -/
def numbering (phrase : Reader Term) (xs : List Symbol) : Option (Term × List Symbol) := do
  let rest ← expect (.mark "(") xs
  let rest ← expect (.mark ")") rest
  let rest ← expect (.word "OVER") rest
  let rest ← expect (.mark "(") rest
  let (partition, rest) ← clause phrase (.word "PARTITION") rest
  let (order, rest) ← clause (ordering phrase) (.word "ORDER") rest
  let rest ← expect (.mark ")") rest
  return (.rowNumber partition order, rest)

/-- Reads what a word that is not a name begins. -/
def worded (d : Dialect) (phrase : Reader Term) (w : String) (xs : List Symbol) :
    Option (Term × List Symbol) :=
  if w = "NULL" then some (.constant .null, xs)
  else if w = "CASE" then choice phrase xs
  else if w = "CAST" then conversion d phrase xs
  else if w = "ROW_NUMBER" then numbering phrase xs
  else (Function.all.find? (·.sql = w)).bind fun f => arguments phrase f xs

/-- Reads a term that has no outermost operator; `phrase` reads the terms inside it. -/
def atom (d : Dialect) (phrase : Reader Term) : Reader Term
  | .name a :: rest => column a rest
  | .value v :: rest => some (.constant v, rest)
  | .slot list :: rest => some (.argument list, rest)
  | .mark m :: rest => if m = "(" then parenthesized phrase rest else none
  | .word w :: rest => worded d phrase w rest
  | _ => none

/-- Reads a term with at most `depth` others around each other. -/
def phrase (d : Dialect) (g : Priorities) : Nat → Reader Term
  | 0, _ => none
  | depth + 1, xs => level g (atom d (phrase d g depth)) g.levels xs

/-- The tree that symbols are read as, if they are read to the end. -/
def readSymbols? (d : Dialect) (g : Priorities) (xs : List Symbol) : Option Term :=
  match phrase d g (xs.length + 1) xs with
  | some (t, []) => some t
  | _ => none

/-- The tree that fragments are read as. -/
def read? (d : Dialect) (g : Priorities) (fs : List Fragment) : Option Term :=
  readSymbols? d g (d.symbols (Fragment.allSigns fs))

end Grammar

end EntitySql
