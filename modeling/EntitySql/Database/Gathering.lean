import EntitySql.Database.Formula

/-!
# Gathering rows

What formulas ask of several rows at once: aggregates over the rows of a group, and the numbers of
rows in an order. This module collects both from formulas, and finds the row of a group that its
single cells are taken from: the row where the last `MIN` or `MAX` of a query found its value, and
without any the first.
-/

namespace EntitySql

namespace Formula

mutual

/-- The aggregates, row numbers and lists of a formula from left to right, but not those within an
aggregate. -/
def gatherings : Formula → List Formula
  | datum _ | cell _ _ => []
  | unary _ a => a.gatherings
  | binary left _ right => left.gatherings ++ right.gatherings
  | among a members => a.gatherings ++ gatheringsList members
  | call name function distinct args =>
    if isAggregate function args then [call name function distinct args] else gatheringsList args
  | rowNumber parts order =>
    gatheringsList parts ++ gatheringsOrder order ++ [rowNumber parts order]
  | case operand branches otherwise =>
    (match operand with
      | none => []
      | some a => a.gatherings) ++ gatheringsBranches branches ++
      match otherwise with
      | none => []
      | some a => a.gatherings
  | cast a _ => a.gatherings
  | row items => gatheringsList items ++ [row items]

/-- The aggregates, row numbers and lists of formulas. -/
def gatheringsList : List Formula → List Formula
  | [] => []
  | a :: rest => a.gatherings ++ gatheringsList rest

/-- The aggregates, row numbers and lists of order terms. -/
def gatheringsOrder : List (Formula × Bool) → List Formula
  | [] => []
  | (a, _) :: rest => a.gatherings ++ gatheringsOrder rest

/-- The aggregates, row numbers and lists of branches. -/
def gatheringsBranches : List (Formula × Formula) → List Formula
  | [] => []
  | (condition, result) :: rest =>
    condition.gatherings ++ result.gatherings ++ gatheringsBranches rest

end

/-- The faults of formulas that are computed before there are groups: aggregates, and lists. -/
def strays (formulas : List Formula) : List Fault :=
  (gatheringsList formulas).filterMap fun
    | call name _ _ _ => some (.misplacedAggregate name)
    | row _ => some .misusedRow
    | _ => none

/-- Whether there is a list in formulas, also within their aggregates. -/
def hasRow (formulas : List Formula) : Bool :=
  (gatheringsList formulas).any fun
    | call _ _ _ args => (gatheringsList args).any isRow
    | f => isRow f
where
  /-- Whether a formula is a list. -/
  isRow : Formula → Bool
    | row _ => true
    | _ => false

/-- Formulas without repetitions, each where it first occurs. -/
def different (formulas : List Formula) : List Formula :=
  formulas.foldl (fun kept f => if kept.any f.same then kept else kept ++ [f]) []

end Formula

/-- An aggregate of a query. -/
structure Aggregate where
  /-- Its name as it is written. -/
  name : String
  /-- The function. -/
  function : Function
  /-- Whether it leaves repetitions out. -/
  distinct : Bool
  /-- Its arguments. -/
  args : List Formula
deriving Inhabited, Repr

namespace Aggregate

/-- The aggregates of formulas, from left to right. -/
def ofFormulas (formulas : List Formula) : List Aggregate :=
  (Formula.gatheringsList formulas).filterMap fun
    | .call name function distinct args => some ⟨name, function, distinct, args⟩
    | _ => none

/-- The different aggregates of formulas, from left to right. -/
def allOf (formulas : List Formula) : List Aggregate :=
  ofFormulas (Formula.different (Formula.gatheringsList formulas))

/-- The value of the aggregate over a group. -/
def ofGroup (a : Aggregate) (group : List Record) : Except Fault Datum :=
  (Formula.call a.name a.function a.distinct a.args).eval { row := [], group := group }

/-- Whether a datum is the greatest or the least one yet; before any, a missing one is, too. -/
def improves (a : Aggregate) (best : Option Datum) (d : Datum) : Bool :=
  match best with
  | none => true
  | some b => !d.isNull && (if a.function == .max then b.compare d == .lt else d.compare b == .lt)

/-- For each datum in turn, whether it is the greatest or the least one yet; nothing is said of the
repetitions that the aggregate leaves out. -/
def improvements (a : Aggregate) (best : Option Datum) (seen : List Datum) :
    List Datum → List (Option Bool)
  | [] => []
  | d :: rest =>
    if a.distinct && seen.any d.same then none :: a.improvements best seen rest
    else
      let better := a.improves best d
      some better ::
        a.improvements (if better && !d.isNull then some d else best) (d :: seen) rest

/-- What is said of each row of a group by a search for the greatest or the least value; other
aggregates say nothing. -/
def findings (a : Aggregate) (group : List Record) : Except Fault (List (Option Bool)) :=
  match a.function, a.args with
  | .min, [f] | .max, [f] => do
    return a.improvements none [] (← group.mapM fun row => f.eval { row := row })
  | _, _ => return group.map fun _ => none

/-- The row of a group that cells are taken from. The last aggregate that says something of a row
decides whether it is taken; where none does, a row is taken like the one before it. -/
def representative (aggregates : List Aggregate) (group : List Record) : Except Fault Record := do
  let searches := aggregates.filter fun a => a.function == .min || a.function == .max
  if searches.isEmpty then return group.head?.getD []
  let nothing : List (Option Bool) := group.map fun _ => none
  let said ← searches.foldlM (fun said a => do
    return (said.zip (← a.findings group)).map fun p => p.2 <|> p.1) nothing
  return ((group.zip said).foldl (fun (state : Bool × Record) p =>
    if p.2.getD state.1 then (true, p.1) else (false, state.2)) (true, [])).2

end Aggregate

/-- A numbering of candidates: within their parts, in an order. -/
structure Numbering where
  /-- What the candidates of a part agree in. -/
  parts : List Formula
  /-- What a part is ordered by, each ascending or descending. -/
  order : List (Formula × Bool)
deriving Inhabited, Repr

namespace Numbering

/-- The different numberings that formulas ask for, from left to right. -/
def ofFormulas (formulas : List Formula) : List Numbering :=
  (Formula.different (Formula.gatheringsList formulas)).filterMap fun
    | .rowNumber parts order => some ⟨parts, order⟩
    | _ => none

/-- The formula that asks for a number. -/
def formula (n : Numbering) : Formula := .rowNumber n.parts n.order

end Numbering

end EntitySql
