import EntitySql.Database.Command
import EntitySql.Database.Gathering

/-!
# Looking up names

What the names of an expression stand for: columns of the rows at hand, or aliases of selected
expressions. A name in double quotes that is neither is a text. The lookup also puts in the bound
values and the current time, and refuses functions that do not exist and, where there are no groups
or no order of rows yet, aggregates and row numbers.
-/

namespace EntitySql

/-- A column of the rows at hand. -/
structure Heading where
  /-- The name or alias of its table. -/
  table : String
  /-- The name of the column. -/
  name : String
  /-- The affinity of the column, unless it is computed. -/
  affinity : Option Affinity
deriving DecidableEq, Inhabited, Repr

/-- What is bound from outside while a statement runs. -/
structure Bindings where
  /-- The bound values. -/
  params : List Datum
  /-- The current time. -/
  now : Timestamp := .epoch
deriving DecidableEq, Inhabited, Repr

namespace Bindings

/-- The text of a form of the current time. -/
def clock (b : Bindings) (form : ClockForm) : String :=
  let text := (b.now.text.toList.takeWhile (· != '.'))
  String.ofList <|
    match form with
    | .both => text
    | .date => text.takeWhile (· != ' ')
    | .time => (text.dropWhile (· != ' ')).drop 1

end Bindings

/-- What names stand for. -/
structure Naming where
  /-- What is bound from outside. -/
  bindings : Bindings
  /-- The columns. -/
  headings : List Heading := []
  /-- The aliases of selected expressions. -/
  aliases : List (String × Formula) := []
  /-- Whether there are groups of rows, which aggregates range over. -/
  combined : Bool := false
  /-- Whether the rows can be numbered. -/
  numbered : Bool := false

namespace Naming

/-- The position of a column, behind the name of its table if there is one. -/
def position? (n : Naming) (table : Option String) (name : String) : Option Nat :=
  n.headings.findIdx? fun h =>
    Text.sameName h.name name && (table.map (Text.sameName h.table)).getD true

/-- The cell of the column at a position. -/
def cellAt (n : Naming) (index : Nat) : Formula :=
  .cell index (n.headings[index]?.bind Heading.affinity)

/-- The formula that a name stands for as an alias. -/
def aliased? (n : Naming) (name : String) : Option (Except Fault Formula) :=
  (n.aliases.find? fun a => Text.sameName a.1 name).map fun (known, f) =>
    if !n.combined && !(Aggregate.ofFormulas [f]).isEmpty then .error (.aliasedAggregate known)
    else if !n.numbered && !(Numbering.ofFormulas [f]).isEmpty then .error (.aliasedWindow known)
    else .ok f

/-- The formula that a name stands for as a column or an alias. -/
def find? (n : Naming) (table : Option String) (name : String) : Option (Except Fault Formula) :=
  match n.position? table name with
  | some index => some (.ok (n.cellAt index))
  | none => if table.isSome then none else n.aliased? name

/-- The truth value that a name spells, unless it stands for something. -/
def truthOfName? (n : Naming) (name : String) : Option Bool :=
  if (n.find? none name).isSome then none
  else if Text.sameName name "true" then some true
  else if Text.sameName name "false" then some false
  else none

/-- The truth value that an expression consists of: a name that spells one, or a search for a value
among none. -/
def truth? (n : Naming) : Phrase → Option Bool
  | .column none name => n.truthOfName? name
  | .among _ [] => some false
  | .unary .not (.among _ []) => some true
  | _ => none

/-- The formula of a name: one that is not known is a truth value if it spells one, and else
refused. -/
def column (n : Naming) (table : Option String) (name : String) : Except Fault Formula :=
  match n.find? table name with
  | some found => found
  | none =>
    match table, n.truthOfName? name with
    | none, some b => .ok (.datum (.ofBool b))
    | _, _ => .error (.missingColumn ((table.map (· ++ ".")).getD "" ++ name))

/-- The function of a name with a number of arguments. -/
def function (name : String) (arity : Nat) : Except Fault Function :=
  match Function.all.find? fun f => Text.sameName f.sql name with
  | none =>
    if Phrase.isNumbering name && arity = 0 then .error (.barredWindow name)
    else .error (.unknownFunction name)
  | some f =>
    let fits : Bool := match f with
      | .count => arity ≤ 1
      | .min | .max => 1 ≤ arity
      | .coalesce => 2 ≤ arity
      | _ => arity = 1
    if fits then .ok f else .error (.wrongArity name)

end Naming

/-- The lookup of the names of one expression. A fault of a call or within it is pending while the
lookup goes on through names, calls and null tests, where a later fault takes its place; another
operator or a literal ends the lookup, or that of the call around it. -/
abbrev Lookup := StateT (Option Fault) (Except Fault)

namespace Lookup

/-- Ends the lookup if a fault is pending. -/
def settle : Lookup Unit := do
  match ← get with
  | some fault => throw fault
  | none => return ()

/-- Leaves a fault pending. -/
def postpone (fault : Fault) : Lookup Unit := set (some fault)

/-- A lookup within a call: its fault is pending for what stands around the call. -/
def within {α : Type} (fallback : α) (l : Lookup α) : Lookup α := fun pending =>
  match l.run pending with
  | .ok found => .ok found
  | .error fault => .ok (fallback, some fault)

/-- The result of a whole lookup. -/
def finish {α : Type} (l : Lookup α) : Except Fault α := do
  let (a, pending) ← l.run none
  match pending with
  | some fault => throw fault
  | none => return a

end Lookup

namespace Phrase

mutual

/-- Looks up the names of an expression. -/
def lookUp (n : Naming) : Phrase → Lookup Formula
  | datum d => do
    Lookup.settle
    return .datum d
  | parameter i => do
    Lookup.settle
    return .datum (n.bindings.params[i]?.getD .null)
  | now form => return .datum (.text (n.bindings.clock form))
  | column table name => n.column table name
  | quoted name => (n.find? none name).getD (.ok (.datum (.text name)))
  | unary op a => do
    Lookup.settle
    return .unary op (← a.lookUp n)
  | binary left op right => do
    let negated := op = .isNot
    if op = .is || negated then
      if right.isNull then
        return .binary (← Lookup.within (.datum .null) (left.lookUp n)) op (.datum .null)
      match n.truth? right with
      | some wanted => return Formula.hasTruth wanted negated (← left.lookUp n)
      | none => pure ()
    if Formula.compares op && left.width ≠ right.width then throw .misusedRow
    Lookup.settle
    return Formula.join (← left.lookUp n) op (← right.lookUp n)
  | among a members => do
    Lookup.settle
    return Formula.isAmong (← a.lookUp n) (← lookUpList n members)
  | call name distinct args => do
    match Naming.function name args.length with
    | .error fault =>
      Lookup.postpone fault
      let _ ← Lookup.within [] (lookUpList n args)
      return .datum .null
    | .ok f =>
      if f.isAggregate && args.length ≤ 1 then
        if !n.combined then Lookup.postpone (.barredAggregate name)
        let inner := { n with combined := false, numbered := false }
        return .call name f distinct (← Lookup.within [] (lookUpList inner args))
      else return .call name f distinct (← Lookup.within [] (lookUpList n args))
  | rowNumber function parts order => do
    if !n.numbered then
      Lookup.postpone (.barredWindow function)
      return .datum .null
    let inner := { n with numbered := false }
    let parts ← Lookup.within [] (lookUpList inner parts)
    return .rowNumber parts (← Lookup.within [] (lookUpOrder inner order))
  | case operand branches otherwise => do
    Lookup.settle
    let operand ← match operand with
      | none => pure none
      | some a => some <$> a.lookUp n
    let branches ← lookUpBranches n branches
    let otherwise ← match otherwise with
      | none => pure none
      | some a => some <$> a.lookUp n
    return Formula.choice operand branches otherwise
  | cast a type => do
    Lookup.settle
    return .cast (← a.lookUp n) (.ofType type)
  | row items => do
    Lookup.settle
    return .row (← lookUpList n items)

/-- Looks up the names of expressions. -/
def lookUpList (n : Naming) : List Phrase → Lookup (List Formula)
  | [] => return []
  | a :: rest => do return (← a.lookUp n) :: (← lookUpList n rest)

/-- Looks up the names of order terms. -/
def lookUpOrder (n : Naming) : List (Phrase × Bool) → Lookup (List (Formula × Bool))
  | [] => return []
  | (a, descending) :: rest => do
    return (← a.lookUp n, descending) :: (← lookUpOrder n rest)

/-- Looks up the names of branches. -/
def lookUpBranches (n : Naming) : List (Phrase × Phrase) → Lookup (List (Formula × Formula))
  | [] => return []
  | (condition, result) :: rest => do
    return (← condition.lookUp n, ← result.lookUp n) :: (← lookUpBranches n rest)

end

/-- The formula of an expression. -/
def resolve (n : Naming) (p : Phrase) : Except Fault Formula := (p.lookUp n).finish

/-- The formula of an optional expression. -/
def resolveOption (n : Naming) : Option Phrase → Except Fault (Option Formula)
  | none => .ok none
  | some p => some <$> p.resolve n

/-- The value of an expression that has no columns. -/
def value (b : Bindings) (p : Phrase) : Except Fault Datum := do
  (← p.resolve { bindings := b }).eval { row := [] }

end Phrase

end EntitySql
