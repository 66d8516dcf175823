import EntitySql.Database.Names

/-!
# Relations and queries

A relation is a list of rows under headings. A query makes one out of another, in this order: the
rows that meet the condition are grouped, the groups that meet their condition are numbered where
that is asked for and become rows of selected values, and these are freed from repetitions, ordered
and cut to the wanted window. A query without grouping has one group for each row, or a single one
if it aggregates.

A cell that is neither grouped by nor aggregated is taken from one row of its group, the row that
`Aggregate.representative` finds.
-/

namespace EntitySql

/-- Rows under headings. -/
structure Relation where
  /-- The columns. -/
  headings : List Heading
  /-- The rows in order. -/
  rows : List Record
deriving DecidableEq, Inhabited, Repr

/-- A query whose names are looked up. -/
structure Selection where
  /-- The columns of the result. -/
  headings : List Heading
  /-- The selected formulas. -/
  selected : List Formula
  /-- The condition that rows meet. -/
  condition : Option Formula
  /-- The formulas that rows are grouped by. -/
  groups : List Formula
  /-- The condition that groups meet. -/
  having : Option Formula
  /-- The formulas that rows are ordered by, each ascending or descending. -/
  order : List (Formula × Bool)
  /-- Whether equal rows are merged. -/
  distinct : Bool
  /-- The greatest number of rows, none if there is no limit. -/
  limit : Option Nat
  /-- The number of rows skipped. -/
  offset : Nat
deriving Inhabited, Repr

namespace Selection

/-- The aggregates of what is selected, of the order and of the groups' condition. -/
def aggregates (s : Selection) : List Aggregate :=
  Aggregate.allOf (s.selected ++ s.order.map (·.1) ++ s.having.toList)

/-- Whether rows are combined. -/
def combines (s : Selection) : Bool := !s.groups.isEmpty || !s.aggregates.isEmpty

/-- Whether there is a single row at most, which needs no order. -/
def isSingle (s : Selection) : Bool := s.combines && s.groups.isEmpty

/-- Compares two keys from the left; where a key is descending, the greater datum comes first. -/
def compareKeys : List (Datum × Bool) → List (Datum × Bool) → Ordering
  | (a, descending) :: as, (b, _) :: bs =>
    let c := a.compare b
    (if descending then c.swap else c).then (compareKeys as bs)
  | _, _ => .eq

/-- Sorts by keys, keeping the order of what has the same key. -/
def sortByKey {α : Type} (items : List (List (Datum × Bool) × α)) :
    List (List (Datum × Bool) × α) :=
  items.mergeSort fun a b => compareKeys a.1 b.1 != .gt

/-- Gathers what has the same key and stands together. -/
def gather {α : Type} : List (List (Datum × Bool) × α) → List (List α)
  | [] => []
  | (key, a) :: rest =>
    match rest, gather rest with
    | (next, _) :: _, group :: groups =>
      if compareKeys key next == .eq then (a :: group) :: groups else [a] :: group :: groups
    | _, groups => [a] :: groups

/-- The rows for which a condition holds. -/
def filter (condition : Option Formula) (rows : List Record) : Except Fault (List Record) :=
  match condition with
  | none => .ok rows
  | some f => rows.filterM fun row => return (← f.eval { row := row }).isTrue

/-- The groups of rows, each with the row that cells are taken from. -/
def grouped (s : Selection) (rows : List Record) : Except Fault (List Candidate) := do
  if !s.combines then return rows.map fun row => { row := row }
  let groups ←
    if s.groups.isEmpty then pure [rows]
    else do
      let keyed ← rows.mapM fun row => do
        return ((← s.groups.mapM fun f => f.eval { row := row }).map fun d => (d, false), row)
      pure (gather (sortByKey keyed))
  let aggregates := s.aggregates
  groups.mapM fun group => do
    aggregates.forM fun a => do let _ ← a.ofGroup group
    return { row := ← Aggregate.representative aggregates group, group := group }

/-- Numbers candidates. They are left in the order in which they are counted, part by part. -/
def number (n : Numbering) (candidates : List Candidate) : Except Fault (List Candidate) := do
  let keyed ← candidates.mapM fun c => do
    let part ← n.parts.mapM fun f => return (← f.eval c, false)
    let key ← n.order.mapM fun o => return (← o.1.eval c, o.2)
    return (part ++ key, (part, c))
  let parts := gather ((sortByKey keyed).map (·.2))
  return parts.flatMap fun part =>
    (part.zipIdx 1).map fun (c, k) => { c with numbers := (n.formula, k) :: c.numbers }

/-- The keyed rows without repetitions of a row, each where it first occurs. -/
def withoutRepeats {α : Type} (rows : List (α × Record)) : List (α × Record) :=
  rows.foldl (fun kept row =>
    if kept.any fun k => (k.2.zip row.2).all fun p => p.1.same p.2 then kept
    else kept ++ [row]) []

/-- The rows from the offset on, as many as the limit allows. -/
def window {α : Type} (s : Selection) (rows : List α) : List α :=
  let rest := rows.drop s.offset
  match s.limit with
  | none => rest
  | some n => rest.take n

/-- The rows of the result. If no row is wanted, nothing is computed. -/
def run (s : Selection) (rows : List Record) : Except Fault (List Record) := do
  if s.limit = some 0 then return []
  let groups ← s.grouped (← filter s.condition rows)
  let groups ← match s.having with
    | none => pure groups
    | some f => groups.filterM fun c => return (← f.eval c).isTrue
  let numberings := Numbering.ofFormulas (s.selected ++ s.order.map (·.1))
  let groups ← numberings.reverse.foldlM (fun groups n => number n groups) groups
  let order := if s.isSingle then [] else s.order
  let keyed ← groups.mapM fun c => do
    let key ← order.mapM fun o => return (← o.1.eval c, o.2)
    return (key, ← s.selected.mapM fun f => f.eval c)
  let keyed := if s.distinct then withoutRepeats keyed else keyed
  return s.window ((if order.isEmpty then keyed else sortByKey keyed).map (·.2))

end Selection

namespace Query

/-- The name of a selected column: its alias, the name of the column that it is, or the characters
that it is written with. -/
def columnName (n : Naming) (given : Option String) (written : String) (f : Formula) : String :=
  match given, f with
  | some a, _ => a
  | none, .cell index _ => (n.headings[index]?.map Heading.name).getD written
  | none, _ => written

/-- The columns and formulas of a selected item, with its given. -/
def resolveItem (n : Naming) : Selected → Except Fault (List (Heading × Formula × Option String))
  | .all table => do
    if n.headings.isEmpty then throw .noTable
    let positions := (List.range n.headings.length).filter fun i =>
      match table, n.headings[i]? with
      | some t, some h => Text.sameName h.table t
      | _, _ => true
    match table with
    | some t => if positions.isEmpty then throw (.missingTable t)
    | none => pure ()
    return positions.map fun i =>
      (n.headings[i]?.getD default, n.cellAt i, none)
  | .phrase p given written => do
    let f ← p.resolve n
    return [(⟨"", columnName n given written f, f.affinity?⟩, f, given)]

/-- The formula of a term of the grouping or the order: a selected column by its number, in an order
also by its alias before all else, or an expression. -/
def resolveTerm (n : Naming) (selected : List Formula) (grouping : Bool) (p : Phrase)
    (position : Nat) : Except Fault Formula :=
  match p.integer? with
  | some k =>
    match if 1 ≤ k then selected[k.toNat - 1]? else none with
    | some f => .ok f
    | none => .error (.termOutOfRange grouping (position + 1) selected.length)
  | none =>
    match p with
    | .column none name | .quoted name =>
      match if grouping then none else n.aliased? name with
      | some found => found
      | none => p.resolve n
    | _ => p.resolve n

/-- Refuses what cannot be computed before there are groups, telling the last fault. -/
def refuseStrays (formulas : List Formula) : Except Fault Unit :=
  match (Formula.strays formulas).getLast? with
  | some fault => .error fault
  | none => .ok ()

/-- The integer that bounds a window. -/
def bound (f : Formula) : Except Fault Int := do
  match (← f.eval { row := [] }).readNumber.preferInt with
  | .int n => return n.toInt
  | _ => throw .mismatch

/-- The greatest number of rows, none if there is no limit, and the number of rows skipped, which is
not looked at if no row is wanted. -/
def window (limit offset : Option Formula) : Except Fault (Option Nat × Nat) := do
  let limit ← match limit with
    | none => pure none
    | some f => do
      let k ← bound f
      pure (if k < 0 then none else some k.toNat)
  match offset with
  | none => return (limit, 0)
  | some f => if limit = some 0 then return (limit, 0) else return (limit, (← bound f).toNat)

/-- A query over rows with the given headings. -/
def resolve (b : Bindings) (headings : List Heading) (q : Query) : Except Fault Selection := do
  let limit ← Phrase.resolveOption { bindings := b } q.limit
  let offset ← Phrase.resolveOption { bindings := b } q.offset
  let n : Naming := { bindings := b, headings := headings, combined := true, numbered := true }
  let items := (← q.selected.mapM (resolveItem n)).flatten
  let selected := items.map (·.2.1)
  let combines := !q.groups.isEmpty || !(Aggregate.ofFormulas selected).isEmpty
  let n := { n with aliases := items.filterMap fun i => i.2.2.map fun a => (a, i.2.1) }
  let unnumbered := { n with numbered := false }
  if q.having.isSome && !combines then throw .conditionWithoutGroups
  let having ← Phrase.resolveOption unnumbered q.having
  let condition ← Phrase.resolveOption { unnumbered with combined := combines } q.condition
  let order ← q.order.zipIdx.mapM fun (o, position) => do
    return (← resolveTerm n selected false o.1 position, o.2)
  let groups ← q.groups.zipIdx.mapM fun (p, position) =>
    resolveTerm unnumbered selected true p position
  if !(Aggregate.ofFormulas groups).isEmpty then throw .groupedAggregate
  refuseStrays condition.toList
  let ordered := order.map (·.1)
  if !combines then refuseStrays ordered
  let computed := selected ++ having.toList ++ groups ++
    if combines && groups.isEmpty then (Aggregate.ofFormulas ordered).flatMap (·.args) else ordered
  if Formula.hasRow computed then throw .misusedRow
  let (limit, offset) ← window limit offset
  return {
    headings := items.map (·.1)
    selected := selected
    condition := condition
    groups := groups
    having := having
    order := order
    distinct := q.distinct
    limit := limit
    offset := offset }

/-- The relation that a query makes out of another. -/
def run (b : Bindings) (source : Relation) (q : Query) : Except Fault Relation := do
  let s ← q.resolve b source.headings
  return ⟨s.headings, ← s.run source.rows⟩

end Query

end EntitySql
