import EntitySql.Query.Scope

/-!
# Queries

A query selects columns and expressions from the rows of one entity. Its clauses are added one by
one; several filters must all hold. A query that names no column selects every mapped column in
order, or everything when nothing is mapped.
-/

namespace EntitySql

/-- A query over one entity. -/
structure Select where
  /-- What the expressions are compiled in; its alias is that of the table. -/
  scope : Scope
  /-- The selected expressions. -/
  columns : List Expr := []
  /-- The condition that rows meet. -/
  condition : Option Expr := none
  /-- The terms that rows are grouped by. -/
  groups : List Expr := []
  /-- The terms that rows are ordered by, each ascending or descending. -/
  order : List (Expr × Bool) := []
  /-- The greatest number of rows. -/
  limit : Option UInt64 := none
  /-- The number of rows skipped. -/
  offset : Option UInt64 := none

namespace Select

/-- The query for all rows of a model. -/
def ofModel (m : Model) (ignoreCase : Bool) : Select := { scope := ⟨m, ignoreCase, none⟩ }

/-- Gives the table an alias, which then stands in front of every column. -/
def qualify (q : Select) (name : String) : Select :=
  { q with scope := { q.scope with qualifier := some name } }

/-- Finds properties ignoring case, or not. -/
def ignoreCase (q : Select) (enabled : Bool) : Select :=
  { q with scope := { q.scope with ignoreCase := enabled } }

/-- Adds a selected expression. -/
def column (q : Select) (e : Expr) : Select := { q with columns := q.columns ++ [e] }

/-- Adds a condition, which holds together with the earlier ones. -/
def filter (q : Select) (e : Expr) : Select :=
  { q with condition := some (match q.condition with
      | some earlier => .binary .and earlier e
      | none => e) }

/-- Adds a term to group by. -/
def groupBy (q : Select) (e : Expr) : Select := { q with groups := q.groups ++ [e] }

/-- Adds a term to order by. -/
def orderBy (q : Select) (e : Expr) (descending : Bool) : Select :=
  { q with order := q.order ++ [(e, descending)] }

/-- Caps the number of rows. -/
def take (q : Select) (n : UInt64) : Select := { q with limit := some n }

/-- Skips rows. -/
def skip (q : Select) (n : UInt64) : Select := { q with offset := some n }

/-- The terms of a query's clauses. -/
structure Clauses where
  /-- The selected terms. -/
  projection : List Term
  /-- The condition. -/
  condition : Option Term
  /-- The terms to group by. -/
  groups : List Term
  /-- The terms to order by. -/
  order : List (Term × Bool)

/-- The selected terms. -/
def projection (q : Select) : Except Error (List Term) :=
  if q.columns.isEmpty then
    if q.scope.model.columns.isEmpty then .ok [.all q.scope.qualifier]
    else .ok (q.scope.model.columns.map fun c => .column q.scope.qualifier c.name)
  else q.scope.compileList q.columns

/-- Compiles the clauses in the order in which they are written. -/
def compile (q : Select) : Except Error Clauses := do
  let projection ← q.projection
  let condition ← q.scope.compileOption q.condition
  let groups ← q.scope.compileList q.groups
  let order ← q.scope.compileOrder q.order
  return ⟨projection, condition, groups, order⟩

/-- The fragments of the grouping clause, none without terms. -/
def groupFragments (d : Dialect) : List Term → List Fragment
  | [] => []
  | ts => .text " GROUP BY " :: Term.listFragments d ts

/-- The fragments of the ordering clause, none without terms. -/
def orderFragments (d : Dialect) : List (Term × Bool) → List Fragment
  | [] => []
  | ts => .text " ORDER BY " :: Term.orderFragments d ts

/-- The fragments of the table with its alias. -/
def tableFragments (d : Dialect) (name : String) (qualifier : Option String) : List Fragment :=
  .text (d.quote name) :: match qualifier with
    | some a => [.text (" AS " ++ d.quote a)]
    | none => []

/-- The fragments of the paging clause. -/
def pagingFragments (q : Select) (d : Dialect) : List Fragment :=
  if q.limit.isSome || q.offset.isSome then
    .text " " :: (Term.paging q.limit q.offset !q.order.isEmpty).fragments d
  else []

/-- The fragments of a query with compiled clauses. -/
def fragments (q : Select) (d : Dialect) (c : Clauses) : List Fragment :=
  .text "SELECT " :: Term.listFragments d c.projection ++
    .text " FROM " :: tableFragments d q.scope.model.name q.scope.qualifier ++
    Term.optionFragments d " WHERE " c.condition ++
    groupFragments d c.groups ++ orderFragments d c.order ++ q.pagingFragments d

/-- The operation of a query. -/
def build (q : Select) (d : Dialect) : Except Error Operation :=
  q.compile.map fun c => Operation.ofFragments d (q.fragments d c)

end Select

end EntitySql
