import EntitySql.Database.Connection
import EntitySql.Proofs.Database.Yielding
import EntitySql.Proofs.Names
import Mathlib.Data.List.Sort

/-!
# Orders that are left open

A query that names no order has its rows in any, and one that does leaves open the order of rows
that it does not tell apart. The database takes the one that comes of how it goes about the query:
it reads a table by the numbers of its rows or along an index, from either end, and what it chooses
may depend on the limit. `Database.answer` is the answer where each table is read by its numbers
and sorting keeps what it does not tell apart in place. Here all of these choices are open.

A `TableScan` is a choice of every order that one query leaves open: in which its rows are taken,
in which its groups come, and in which its results are when they are sorted or, without an order,
answered. `Database.answerBy` answers with a scan for each table and view on the way. That goes for
indexes, for plans and for sorters of any kind, as far as they keep to the clauses of the query; it
also allows for orders that the database never comes to.

Where a query orders its rows without ties, nothing is open: every scan leads to the same answer.

## Main definitions

* `TableScan`: the orders that are left open by a query
* `Selection.runBy`, `Query.runBy`, `Database.answerBy`: what is answered with given scans
* `Selection.IsPlain`, `Selection.IsTotal`: one result for each row, and an order without ties

## Main results

* `Database.answerBy_inOrder`: the order of row numbers is one of those that are open
* `Selection.sortByKey_eq_of_perm`: what is sorted by different keys comes in one order
* `Database.answerBy_eq_of_total`: a query with an order without ties has one answer
* `Database.exists_answerBy_perm`: a plain query for all rows answers the same ones in every order
-/

namespace EntitySql

/-- The orders that a query leaves open. -/
structure TableScan where
  /-- The order in which the rows of the source are taken. -/
  rows : List Record → List Record
  /-- The order in which groups come. -/
  groups : List Candidate → List Candidate
  /-- The order of the results in front of sorting. -/
  results : List (List (Datum × Bool) × Record) → List (List (Datum × Bool) × Record)
  rows_perm : ∀ rs, (rows rs).Perm rs
  groups_perm : ∀ cs, (groups cs).Perm cs
  results_perm : ∀ rs, (results rs).Perm rs

/-- Rows by their numbers, and everything else in the order in which it comes of them. -/
def TableScan.inOrder : TableScan := ⟨id, id, id, fun _ => .rfl, fun _ => .rfl, fun _ => .rfl⟩

/-- A scan for each table or view that is asked, and one for a query of none. -/
abbrev TableScans := Option String → TableScan

@[simp] theorem TableScan.rows_inOrder (rs : List Record) : inOrder.rows rs = rs := rfl

@[simp] theorem TableScan.groups_inOrder (cs : List Candidate) : inOrder.groups cs = cs := rfl

@[simp] theorem TableScan.results_inOrder (rs : List (List (Datum × Bool) × Record)) :
    inOrder.results rs = rs := rfl

/-- Every table is read by the numbers of its rows. -/
def TableScans.inOrder : TableScans := fun _ => .inOrder

/-! ### Answers with given scans -/

namespace Selection

/-- The key and the result of a candidate. -/
def result (s : Selection) (order : List (Formula × Bool)) (c : Candidate) :
    Except Fault (List (Datum × Bool) × Record) := do
  let key ← order.mapM fun o => return (← o.1.eval c, o.2)
  return (key, ← s.selected.mapM fun f => f.eval c)

/-- The rows of the result, with the orders of a scan. -/
def runBy (scan : TableScan) (s : Selection) (rows : List Record) :
    Except Fault (List Record) := do
  if s.limit = some 0 then return []
  let groups ← s.grouped (← filter s.condition (scan.rows rows))
  let groups ← match s.having with
    | none => pure (scan.groups groups)
    | some f => (scan.groups groups).filterM fun c => return (← f.eval c).isTrue
  let numberings := Numbering.ofFormulas (s.selected ++ s.order.map (·.1))
  let groups ← numberings.reverse.foldlM (fun groups n => number n groups) groups
  let order := if s.isSingle then [] else s.order
  let keyed ← groups.mapM (s.result order)
  let keyed := if s.distinct then withoutRepeats (scan.results keyed) else scan.results keyed
  return s.window ((if order.isEmpty then keyed else sortByKey keyed).map (·.2))

theorem runBy_inOrder (s : Selection) (rows : List Record) :
    s.runBy .inOrder rows = s.run rows := by
  simp only [runBy, run, TableScan.rows_inOrder, TableScan.groups_inOrder,
    TableScan.results_inOrder]
  rfl

end Selection

/-- The relation that a query makes out of another, with the orders of a scan. -/
def Query.runBy (scan : TableScan) (b : Bindings) (source : Relation) (q : Query) :
    Except Fault Relation := do
  let s ← q.resolve b source.headings
  return ⟨s.headings, ← s.runBy scan source.rows⟩

theorem Query.runBy_inOrder (b : Bindings) (source : Relation) (q : Query) :
    q.runBy .inOrder b source = q.run b source := by
  simp only [runBy, run, Selection.runBy_inOrder]

namespace Database

/-- The relation of a name under an alias, with the orders of scans in the views on the way. -/
def relationBy (scans : TableScans) (db : Database) (b : Bindings) (inView : Bool)
    (name as : String) : Nat → Except Fault Relation
  | 0 => .error (.circularView (((db.view? name).map StoredView.name).getD name))
  | depth + 1 =>
    if isCatalogName name then .ok (db.catalog as)
    else match db.table? name, db.view? name with
      | some t, _ => .ok (t.relation as)
      | none, some v => do
        let source ← match v.query.source with
          | none => pure ⟨[], [[]]⟩
          | some (inner, given) => db.relationBy scans b true inner (given.getD inner) depth
        let r ← v.query.runBy (scans (v.query.source.map (·.1))) b source
        return { r with headings := r.headings.map fun h => { h with table := as } }
      | none, none => .error (.missingTable (if inView then "main." ++ name else name))

/-- The answer to a query, with the orders of scans. -/
def answerBy (scans : TableScans) (db : Database) (b : Bindings) (q : Query) :
    Except Fault Relation := do
  let source ← match q.source with
    | none => pure ⟨[], [[]]⟩
    | some (name, given) =>
      db.relationBy scans b false name (given.getD name) (db.views.length + 1)
  q.runBy (scans (q.source.map (·.1))) b source

theorem relationBy_inOrder (db : Database) (b : Bindings) (inView : Bool) (name as : String)
    (depth : Nat) :
    db.relationBy .inOrder b inView name as depth = db.relation b inView name as depth := by
  induction depth generalizing inView name as with
  | zero => rfl
  | succ depth ih =>
    rw [relationBy, relation]
    cases db.table? name with
    | some t => rfl
    | none =>
      cases db.view? name with
      | none => rfl
      | some v =>
        dsimp only
        cases v.query.source <;> simp only [ih, TableScans.inOrder, Query.runBy_inOrder]

theorem answerBy_inOrder (db : Database) (b : Bindings) (q : Query) :
    db.answerBy .inOrder b q = db.answer b q := by
  rw [answerBy, answer]
  cases q.source <;> simp only [relationBy_inOrder, TableScans.inOrder, Query.runBy_inOrder]

end Database

/-! ### Orders without ties -/

namespace Datum

theorem compareChars_swap (as bs : List Char) :
    compareChars bs as = (compareChars as bs).swap := by
  induction as generalizing bs with
  | nil => cases bs <;> rfl
  | cons a as ih =>
    cases bs with
    | nil => rfl
    | cons b bs => rw [compareChars, compareChars, ih, Ordering.swap_then, Nat.compare_swap]

theorem compareBytes_swap (as bs : List UInt8) :
    compareBytes bs as = (compareBytes as bs).swap := by
  induction as generalizing bs with
  | nil => cases bs <;> rfl
  | cons a as ih =>
    cases bs with
    | nil => rfl
    | cons b bs => rw [compareBytes, compareBytes, ih, Ordering.swap_then, Nat.compare_swap]

/-- Data are compared the other way round with the opposite outcome. -/
theorem compare_swap (a b : Datum) : b.compare a = (a.compare b).swap := by
  cases a with
  | null => cases b <;> rfl
  | int m =>
    cases b with
    | int n => exact (Int.compare_swap _ _).symm
    | real y => exact (Ordering.swap_swap).symm
    | _ => rfl
  | real x =>
    cases b with
    | real y => exact (Int.compare_swap _ _).symm
    | _ => rfl
  | text s =>
    cases b with
    | text s' => exact compareChars_swap _ _
    | _ => rfl
  | blob bytes =>
    cases b with
    | blob bytes' => exact compareBytes_swap _ _
    | _ => rfl

end Datum

namespace Selection

/-- Keys that are descending in the same places are compared the other way round with the opposite
outcome. -/
theorem compareKeys_swap {as bs : List (Datum × Bool)} (h : as.map Prod.snd = bs.map Prod.snd) :
    compareKeys bs as = (compareKeys as bs).swap := by
  induction as generalizing bs with
  | nil => cases bs <;> rfl
  | cons a as ih =>
    cases bs with
    | nil => rfl
    | cons b bs =>
      obtain ⟨hflag, hrest⟩ := List.cons.inj h
      rw [compareKeys, compareKeys, ih hrest, Ordering.swap_then, Datum.compare_swap, hflag]
      cases b.2 <;> rfl

/-- **What is sorted by different keys comes in one order**, in whatever order it was before. -/
theorem sortByKey_eq_of_perm {items items' : List (List (Datum × Bool) × Record)}
    (hperm : items'.Perm items)
    (hflags : ∀ a ∈ items, ∀ b ∈ items, a.1.map Prod.snd = b.1.map Prod.snd)
    (hstrict : (sortByKey items).Pairwise fun a b => compareKeys a.1 b.1 = .lt) :
    sortByKey items' = sortByKey items := by
  obtain ⟨sorted, hsorted⟩ : ∃ sorted, sortByKey items = sorted := ⟨_, rfl⟩
  rw [hsorted] at hstrict ⊢
  have hitems : sorted.Perm items := hsorted ▸ List.mergeSort_perm _ _
  have hswap : ∀ a ∈ sorted, ∀ b ∈ sorted, compareKeys b.1 a.1 = (compareKeys a.1 b.1).swap :=
    fun a ha b hb => compareKeys_swap (hflags a (hitems.mem_iff.mp ha) b (hitems.mem_iff.mp hb))
  have hself : ∀ a ∈ sorted, compareKeys a.1 a.1 = .eq := by
    intro a ha
    have h := hswap a ha a ha
    cases hc : compareKeys a.1 a.1 <;> simp_all
  have hnodup : sorted.Nodup := hstrict.imp_of_mem fun {a b} ha _ hlt heq => by
    subst heq
    simp [hself a ha] at hlt
  -- where the keys are different, they are in the order of the positions
  have hpositions : ∀ a ∈ sorted, ∀ b ∈ sorted, (compareKeys a.1 b.1 != .gt) =
      decide (sorted.idxOf a ≤ sorted.idxOf b) := by
    intro a ha b hb
    obtain ⟨i, hi, rfl⟩ := List.getElem_of_mem ha
    obtain ⟨j, hj, rfl⟩ := List.getElem_of_mem hb
    rw [hnodup.idxOf_getElem, hnodup.idxOf_getElem]
    rw [List.pairwise_iff_getElem] at hstrict
    rcases Nat.lt_trichotomy i j with hij | rfl | hij
    · simp [hstrict i j hi hj hij, hij.le]
    · simp [hself _ ha]
    · simp [hswap _ hb _ ha, hstrict j i hj hi hij, hij]
  have hmem : ∀ {a}, a ∈ items' → a ∈ sorted := fun ha =>
    hitems.mem_iff.mpr (hperm.mem_iff.mp ha)
  have hmap : (sortByKey items').map sorted.idxOf =
      (items'.map sorted.idxOf).mergeSort (fun i j => decide (i ≤ j)) :=
    List.map_mergeSort fun a ha b hb => hpositions a (hmem ha) b (hmem hb)
  have hfirst : (sortByKey items').Pairwise fun a b => sorted.idxOf a ≤ sorted.idxOf b := by
    rw [← List.pairwise_map, hmap]
    exact List.pairwise_mergeSort' (· ≤ ·) _
  have hsecond : sorted.Pairwise fun a b => sorted.idxOf a ≤ sorted.idxOf b := by
    rw [List.pairwise_iff_getElem]
    intro i j hi hj hij
    rw [hnodup.idxOf_getElem, hnodup.idxOf_getElem]
    exact hij.le
  have hall : (sortByKey items').Perm sorted :=
    (List.mergeSort_perm _ _).trans (hperm.trans hitems.symm)
  exact List.Perm.eq_of_pairwise
    (fun a b ha _ hab hba => (List.idxOf_inj (hall.mem_iff.mp ha)).mp (Nat.le_antisymm hab hba))
    hfirst hsecond hall

/-- A condition leaves the same rows, in whatever order they come. -/
theorem exists_filter_of_perm {condition : Option Formula} {rows rows' kept : List Record}
    (h : filter condition rows = .ok kept) (hperm : rows'.Perm rows) :
    ∃ kept', filter condition rows' = .ok kept' ∧ kept'.Perm kept := by
  cases condition with
  | none =>
    obtain rfl : rows = kept := Except.ok.inj h
    exact ⟨rows', rfl, hperm⟩
  | some f =>
    obtain ⟨p, hp, rfl⟩ := exists_of_filterM_eq_ok h
    exact ⟨rows'.filter p, filterM_eq_ok fun a ha => hp a (hperm.mem_iff.mp ha), hperm.filter p⟩

/-- A query has a result for each of its rows, which only the row decides. -/
structure IsPlain (s : Selection) : Prop where
  combines : s.combines = false
  having : s.having = none
  numberings : Numbering.ofFormulas (s.selected ++ s.order.map (·.1)) = []
  distinct : s.distinct = false

/-- The results of a query that is plain, in the order in which they are answered. -/
def arranged (s : Selection) (keyed : List (List (Datum × Bool) × Record)) :
    List (List (Datum × Bool) × Record) := if s.order.isEmpty then keyed else sortByKey keyed

/-- What is done by a query that is plain. -/
theorem IsPlain.runBy_eq {s : Selection} (h : s.IsPlain) (scan : TableScan) (rows : List Record) :
    s.runBy scan rows = if s.limit = some 0 then .ok [] else do
      let kept ← filter s.condition (scan.rows rows)
      let keyed ← (scan.groups (kept.map fun row => { row := row })).mapM (s.result s.order)
      return s.window ((s.arranged (scan.results keyed)).map (·.2)) := by
  have hgrouped : ∀ kept, s.grouped kept = .ok (kept.map fun row => { row := row }) := by
    intro kept
    rw [grouped, h.combines]
    rfl
  have hsingle : s.isSingle = false := by rw [isSingle, h.combines, Bool.false_and]
  rw [runBy, h.having, h.numberings, hsingle, h.distinct]
  simp [hgrouped, arranged, Reading.ok_bind, pure, Except.pure]

/-- The results of its rows are the same in every order. -/
theorem IsPlain.exists_keyed {s : Selection} {rows kept : List Record}
    {keyed : List (List (Datum × Bool) × Record)} (scan : TableScan)
    (hkept : filter s.condition rows = .ok kept)
    (hkeyed : (kept.map fun row => { row := row }).mapM (s.result s.order) = .ok keyed) :
    ∃ kept' keyed', filter s.condition (scan.rows rows) = .ok kept' ∧
      (scan.groups (kept'.map fun row => { row := row })).mapM (s.result s.order) = .ok keyed' ∧
      (scan.results keyed').Perm keyed := by
  obtain ⟨kept', hkept', hperm⟩ := exists_filter_of_perm hkept (scan.rows_perm rows)
  obtain ⟨keyed', hkeyed', hperm'⟩ := exists_mapM_of_perm hkeyed
    ((scan.groups_perm _).trans (hperm.map fun row => ({ row := row } : Candidate)))
  exact ⟨kept', keyed', hkept', hkeyed', (scan.results_perm keyed').trans hperm'⟩

/-- **A query that is plain** answers the same rows in every order, if it asks for all of them. -/
theorem IsPlain.exists_runBy_perm {s : Selection} (h : s.IsPlain)
    (hall : s.limit = none ∧ s.offset = 0) {rows rs : List Record} (hrun : s.run rows = .ok rs)
    (scan : TableScan) : ∃ rs', s.runBy scan rows = .ok rs' ∧ rs'.Perm rs := by
  have hlimit : s.limit ≠ some 0 := by simp [hall.1]
  have hwindow : ∀ rs : List Record, s.window rs = rs := by simp [window, hall.1, hall.2]
  have harranged : ∀ keyed, (s.arranged keyed).Perm keyed := by
    intro keyed
    rw [arranged]
    split
    · exact .rfl
    · exact List.mergeSort_perm _ _
  rw [← runBy_inOrder, h.runBy_eq, if_neg hlimit] at hrun
  simp only [TableScan.rows_inOrder, TableScan.groups_inOrder, TableScan.results_inOrder] at hrun
  obtain ⟨kept, hkept, hrun⟩ := exists_of_bind_eq_ok hrun
  obtain ⟨keyed, hkeyed, hrun⟩ := exists_of_bind_eq_ok hrun
  obtain ⟨kept', keyed', hkept', hkeyed', hperm⟩ := exists_keyed scan hkept hkeyed
  rw [h.runBy_eq, if_neg hlimit, hkept', Reading.ok_bind, hkeyed', ← Except.ok.inj hrun]
  refine ⟨_, rfl, ?_⟩
  rw [hwindow, hwindow]
  exact (((harranged _).trans hperm).trans (harranged _).symm).map Prod.snd

/-- A query is plain, and its order tells its rows apart. -/
structure IsTotal (s : Selection) (rows : List Record) : Prop extends s.IsPlain where
  ordered : s.order ≠ []
  /-- Of two rows the first has the smaller key. -/
  strict : ∀ kept keyed, filter s.condition rows = .ok kept →
    (kept.map fun row => { row := row }).mapM (s.result s.order) = .ok keyed →
    (sortByKey keyed).Pairwise fun a b => compareKeys a.1 b.1 = .lt

/-- The flags of a key are those of the order. -/
theorem map_snd_of_result {s : Selection} {order : List (Formula × Bool)} {c : Candidate}
    {x : List (Datum × Bool) × Record} (h : s.result order c = .ok x) :
    x.1.map Prod.snd = order.map Prod.snd := by
  obtain ⟨key, hkey, h⟩ := exists_of_bind_eq_ok h
  obtain ⟨row, -, h⟩ := exists_of_bind_eq_ok h
  obtain rfl : (key, row) = x := Except.ok.inj h
  rw [← List.forall₂_eq_eq_eq, List.forall₂_map_left_iff, List.forall₂_map_right_iff]
  refine (mapM_eq_ok_iff.mp hkey).flip.imp fun d o hd => ?_
  obtain ⟨e, -, hd⟩ := exists_of_bind_eq_ok hd
  rw [← Except.ok.inj hd]

/-- **A query with an order without ties** has one result. -/
theorem IsTotal.runBy_eq_run {s : Selection} {rows rs : List Record} (h : s.IsTotal rows)
    (hrun : s.run rows = .ok rs) (scan : TableScan) : s.runBy scan rows = .ok rs := by
  have hordered : s.order.isEmpty = false := by simpa using h.ordered
  rw [← runBy_inOrder, h.runBy_eq] at hrun
  rw [h.runBy_eq]
  by_cases hlimit : s.limit = some 0
  · rwa [if_pos hlimit] at hrun ⊢
  rw [if_neg hlimit] at hrun ⊢
  simp only [TableScan.rows_inOrder, TableScan.groups_inOrder, TableScan.results_inOrder] at hrun
  obtain ⟨kept, hkept, hrun⟩ := exists_of_bind_eq_ok hrun
  obtain ⟨keyed, hkeyed, hrun⟩ := exists_of_bind_eq_ok hrun
  obtain ⟨kept', keyed', hkept', hkeyed', hperm⟩ := IsPlain.exists_keyed scan hkept hkeyed
  have hflags : ∀ a ∈ keyed, a.1.map Prod.snd = s.order.map Prod.snd := by
    intro a ha
    obtain ⟨c, -, hc⟩ := Text.exists_mem_of_forall₂ (mapM_eq_ok_iff.mp hkeyed) ha
    exact map_snd_of_result hc
  have hsorted : s.arranged (scan.results keyed') = s.arranged keyed := by
    rw [arranged, arranged, hordered]
    exact sortByKey_eq_of_perm hperm (fun a ha b hb => (hflags a ha).trans (hflags b hb).symm)
      (h.strict kept keyed hkept hkeyed)
  rw [hkept', Reading.ok_bind, hkeyed', Reading.ok_bind, hsorted]
  exact hrun

end Selection

namespace Database

variable {db : Database} {b : Bindings} {q : Query} {r : Relation}

/-- A query asks a table of the database, and what it selects there has the property. -/
def Asks (db : Database) (b : Bindings) (q : Query) (P : Selection → List Record → Prop) : Prop :=
  ∃ name given t s, q.source = some (name, given) ∧ isCatalogName name = false ∧
    db.table? name = some t ∧ q.resolve b (t.headings (given.getD name)) = .ok s ∧
    P s (t.rows.map StoredRow.cells)

/-- A query of a table is answered by the rows of the table. -/
theorem exists_answerBy_of_asks {P : Selection → List Record → Prop} (h : db.Asks b q P)
    (hanswer : db.answer b q = .ok r) : ∃ s rows, P s rows ∧ s.run rows = .ok r.rows ∧
      ∀ scans, ∃ scan,
        db.answerBy scans b q = (s.runBy scan rows).map fun rs => ⟨r.headings, rs⟩ := by
  obtain ⟨name, given, t, s, hsource, hcatalog, ht, hresolve, hs⟩ := h
  have hscans : ∀ scans, db.answerBy scans b q =
      (s.runBy (scans (some name)) (t.rows.map StoredRow.cells)).map fun rs =>
        ⟨s.headings, rs⟩ := by
    intro scans
    simp [answerBy, hsource, relationBy, hcatalog, ht, Query.runBy, StoredTable.relation, hresolve,
      Reading.ok_bind]
    rfl
  rw [← answerBy_inOrder, hscans, TableScans.inOrder, Selection.runBy_inOrder] at hanswer
  obtain ⟨rs, hrun, rfl⟩ := exists_of_map_eq_ok hanswer
  exact ⟨s, _, hs, hrun, fun scans => ⟨_, hscans scans⟩⟩

/-- **A query of a table that orders its rows without ties has one answer.** -/
theorem answerBy_eq_of_total (h : db.Asks b q Selection.IsTotal) (hanswer : db.answer b q = .ok r)
    (scans : TableScans) : db.answerBy scans b q = .ok r := by
  obtain ⟨s, rows, htotal, hrun, hscans⟩ := exists_answerBy_of_asks h hanswer
  obtain ⟨scan, hscan⟩ := hscans scans
  rw [hscan, htotal.runBy_eq_run hrun scan]
  rfl

/-- **A plain query for all rows of a table** answers the same rows in every order. -/
theorem exists_answerBy_perm
    (h : db.Asks b q fun s _ => s.IsPlain ∧ s.limit = none ∧ s.offset = 0)
    (hanswer : db.answer b q = .ok r) (scans : TableScans) :
    ∃ rs, db.answerBy scans b q = .ok ⟨r.headings, rs⟩ ∧ rs.Perm r.rows := by
  obtain ⟨s, rows, ⟨hplain, hall⟩, hrun, hscans⟩ := exists_answerBy_of_asks h hanswer
  obtain ⟨scan, hscan⟩ := hscans scans
  obtain ⟨rs, hrs, hperm⟩ := hplain.exists_runBy_perm hall hrun scan
  exact ⟨rs, by rw [hscan, hrs]; rfl, hperm⟩

end Database

end EntitySql
