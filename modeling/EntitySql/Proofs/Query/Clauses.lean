import EntitySql.Proofs.Query.Parameters
import EntitySql.Query.Select

/-!
# The parameters of a query

The clauses of a query are written one after the other: what it selects, its condition, what it
groups by and what it orders by. Calls add to the clauses in any order, and each clause keeps the
order of its own calls. So the leaves of a query are those of its calls, clause by clause, whatever
stands between the calls of one clause; the rest of the text, with the names of the table and its
alias and the paging clause, has neither markers nor values.

## Main definitions

* `Select.Call`, `Select.ofCalls`: the calls that build a query
* `Select.callLeaves`: the leaves of calls, clause by clause

## Main results

* `Select.leaves_ofCalls`: the query that calls build has their leaves
* `Select.binds_build`: a query binds the leaves of its clauses
* `Operation.binds_in_order`: expressions and queries bind their leaves in order
-/

namespace EntitySql

namespace Select

/-! ### Calls -/

/-- A call that changes a query. -/
inductive Call where
  /-- Gives the table an alias. -/
  | qualify (name : String)
  /-- Finds properties ignoring case, or not. -/
  | ignoreCase (enabled : Bool)
  /-- Adds a selected expression. -/
  | column (e : Expr)
  /-- Adds a condition. -/
  | filter (e : Expr)
  /-- Adds a term to group by. -/
  | groupBy (e : Expr)
  /-- Adds a term to order by. -/
  | orderBy (e : Expr) (descending : Bool)
  /-- Caps the number of rows. -/
  | take (n : UInt64)
  /-- Skips rows. -/
  | skip (n : UInt64)

/-- The query after a call. -/
def apply (q : Select) : Call → Select
  | .qualify name => q.qualify name
  | .ignoreCase enabled => q.ignoreCase enabled
  | .column e => q.column e
  | .filter e => q.filter e
  | .groupBy e => q.groupBy e
  | .orderBy e descending => q.orderBy e descending
  | .take n => q.take n
  | .skip n => q.skip n

/-- The query that calls build from the query for all rows of a model. -/
def ofCalls (m : Model) (ignoreCase : Bool) (calls : List Call) : Select :=
  calls.foldl apply (ofModel m ignoreCase)

namespace Call

/-- The leaves that a call adds to the selection. -/
def columnLeaves : Call → List Leaf
  | column e => e.leaves
  | _ => []

/-- The leaves that a call adds to the condition. -/
def filterLeaves : Call → List Leaf
  | filter e => e.leaves
  | _ => []

/-- The leaves that a call adds to the terms to group by. -/
def groupLeaves : Call → List Leaf
  | groupBy e => e.leaves
  | _ => []

/-- The leaves that a call adds to the terms to order by. -/
def orderLeaves : Call → List Leaf
  | orderBy e _ => e.leaves
  | _ => []

end Call

/-- The leaves of calls, clause by clause, each clause in the order of its calls. -/
def callLeaves (calls : List Call) : List Leaf :=
  calls.flatMap Call.columnLeaves ++ calls.flatMap Call.filterLeaves ++
    calls.flatMap Call.groupLeaves ++ calls.flatMap Call.orderLeaves

/-- The leaves of a query, clause by clause. -/
def leaves (q : Select) : List Leaf :=
  Expr.listLeaves q.columns ++ Expr.optionLeaves q.condition ++ Expr.listLeaves q.groups ++
    Expr.orderLeaves q.order

end Select

namespace Expr

theorem listLeaves_append (xs ys : List Expr) :
    listLeaves (xs ++ ys) = listLeaves xs ++ listLeaves ys := by
  induction xs with
  | nil => rfl
  | cons x xs ih => rw [List.cons_append, listLeaves, ih, listLeaves, List.append_assoc]

theorem orderLeaves_append (xs ys : List (Expr × Bool)) :
    orderLeaves (xs ++ ys) = orderLeaves xs ++ orderLeaves ys := by
  induction xs with
  | nil => rfl
  | cons x xs ih => rw [List.cons_append, orderLeaves, ih, orderLeaves, List.append_assoc]

end Expr

namespace Select

open EntitySql.Expr (listLeaves optionLeaves listLeaves_append orderLeaves_append)

/-- A call adds its leaves at the end of their clause, and leaves the other clauses as they are. -/
theorem leaves_apply (q : Select) (c : Call) :
    listLeaves (q.apply c).columns = listLeaves q.columns ++ c.columnLeaves ∧
      optionLeaves (q.apply c).condition = optionLeaves q.condition ++ c.filterLeaves ∧
      listLeaves (q.apply c).groups = listLeaves q.groups ++ c.groupLeaves ∧
      Expr.orderLeaves (q.apply c).order = Expr.orderLeaves q.order ++ c.orderLeaves := by
  cases c with
  | filter e =>
    have hcondition : optionLeaves (q.filter e).condition =
        optionLeaves q.condition ++ e.leaves := by
      cases hq : q.condition <;> simp [filter, hq, optionLeaves, Expr.leaves]
    simp [apply, Call.columnLeaves, Call.filterLeaves, Call.groupLeaves, Call.orderLeaves,
      hcondition]
    exact ⟨rfl, rfl, rfl⟩
  | _ =>
    simp [apply, qualify, ignoreCase, column, groupBy, orderBy, take, skip, Call.columnLeaves,
      Call.filterLeaves, Call.groupLeaves, Call.orderLeaves, listLeaves_append, orderLeaves_append,
      listLeaves, Expr.orderLeaves]

/-- So do calls one after the other. -/
theorem leaves_foldl_apply (q : Select) (calls : List Call) :
    listLeaves (calls.foldl apply q).columns =
        listLeaves q.columns ++ calls.flatMap Call.columnLeaves ∧
      optionLeaves (calls.foldl apply q).condition =
        optionLeaves q.condition ++ calls.flatMap Call.filterLeaves ∧
      listLeaves (calls.foldl apply q).groups =
        listLeaves q.groups ++ calls.flatMap Call.groupLeaves ∧
      Expr.orderLeaves (calls.foldl apply q).order =
        Expr.orderLeaves q.order ++ calls.flatMap Call.orderLeaves := by
  induction calls generalizing q with
  | nil => simp
  | cons c calls ih =>
    obtain ⟨hcolumns, hcondition, hgroups, horder⟩ := leaves_apply q c
    obtain ⟨hcolumns', hcondition', hgroups', horder'⟩ := ih (q.apply c)
    rw [hcolumns, List.append_assoc] at hcolumns'
    rw [hcondition, List.append_assoc] at hcondition'
    rw [hgroups, List.append_assoc] at hgroups'
    rw [horder, List.append_assoc] at horder'
    exact ⟨hcolumns', hcondition', hgroups', horder'⟩

/-- **The query that calls build has their leaves**, in whatever order the calls of different
clauses come. -/
theorem leaves_ofCalls (m : Model) (enabled : Bool) (calls : List Call) :
    (ofCalls m enabled calls).leaves = callLeaves calls := by
  obtain ⟨hcolumns, hcondition, hgroups, horder⟩ := leaves_foldl_apply (ofModel m enabled) calls
  rw [leaves, ofCalls, hcolumns, hcondition, hgroups, horder]
  rfl

/-! ### The text of a query -/

section

variable {d : Dialect}

/-- The symbols of the table with its alias. -/
def tableSymbols (name : String) : Option String → List Symbol
  | none => [.name name]
  | some a => [.name name, .word "AS", .name a]

/-- The symbols of the grouping clause. -/
def groupSymbols (d : Dialect) : List Term → List Symbol
  | [] => []
  | ts => .word "GROUP" :: .word "BY" :: Term.listSymbols d ts

/-- The symbols of the ordering clause. -/
def orderSymbols (d : Dialect) : List (Term × Bool) → List Symbol
  | [] => []
  | os => .word "ORDER" :: .word "BY" :: Term.orderSymbols d os

/-- The symbols of the paging clause. -/
def pagingSymbols (q : Select) (d : Dialect) : List Symbol :=
  if q.limit.isSome || q.offset.isSome then
    (Term.paging q.limit q.offset !q.order.isEmpty).symbols d
  else []

/-- The symbols of a query with compiled clauses. -/
def symbols (q : Select) (d : Dialect) (c : Clauses) : List Symbol :=
  .word "SELECT" :: (Term.listSymbols d c.projection ++ (.word "FROM" ::
    tableSymbols q.scope.model.name q.scope.qualifier ++
    (Term.optionSymbols d [.word "WHERE"] c.condition ++ (groupSymbols d c.groups ++
    (orderSymbols d c.order ++ q.pagingSymbols d)))))

theorem scans_table (hd : d ∈ Dialect.shipped) (name : String) (qualifier : Option String) :
    Scans d (Fragment.allSigns (tableFragments d name qualifier)) (tableSymbols name qualifier) := by
  cases qualifier with
  | none => simpa [tableFragments, tableSymbols, Fragment.signs] using scans_quote d name
  | some a =>
    have has : ScansBehind d _ ([Symbol.word "AS"] ++ _) :=
      Term.behind_text (s := " AS ") hd rfl rfl (by decide) (scans_quote d a)
    simpa [tableFragments, tableSymbols, Fragment.signs] using
      (scans_quote d name).append_behind (Dialect.hasPlainQuotes_of_shipped hd) has

theorem scansBehind_groups (hd : d ∈ Dialect.shipped) (ts : List Term) :
    ScansBehind d (Fragment.allSigns (groupFragments d ts)) (groupSymbols d ts) := by
  cases ts with
  | nil => exact ScansBehind.nil
  | cons t ts =>
    have hlist := Term.scans_list hd fun u (_ : u ∈ t :: ts) => u.scans_fragments hd
    have hby : ScansBehind d _ ([Symbol.word "GROUP", .word "BY"] ++ _) :=
      Term.behind_text (s := " GROUP BY ") hd rfl rfl (by decide) hlist
    simpa [groupFragments, groupSymbols, Fragment.signs] using hby

theorem scansBehind_order (hd : d ∈ Dialect.shipped) (os : List (Term × Bool)) :
    ScansBehind d (Fragment.allSigns (orderFragments d os)) (orderSymbols d os) := by
  cases os with
  | nil => exact ScansBehind.nil
  | cons o os =>
    have hlist := Term.scans_order hd fun b (_ : b ∈ o :: os) => b.1.scans_fragments hd
    have hby : ScansBehind d _ ([Symbol.word "ORDER", .word "BY"] ++ _) :=
      Term.behind_text (s := " ORDER BY ") hd rfl rfl (by decide) hlist
    simpa [orderFragments, orderSymbols, Fragment.signs] using hby

theorem scansBehind_paging (hd : d ∈ Dialect.shipped) (q : Select) :
    ScansBehind d (Fragment.allSigns (q.pagingFragments d)) (q.pagingSymbols d) := by
  rw [pagingFragments, pagingSymbols]
  split
  · have hpaging : ScansBehind d _ ([] ++ _) :=
      Term.behind_text (s := " ") hd rfl rfl (by decide) (Term.scans_fragments hd
        (.paging q.limit q.offset !q.order.isEmpty))
    simpa [Fragment.signs] using hpaging
  · exact ScansBehind.nil

/-- **A query is scanned as its symbols.** -/
theorem scans_fragments (hd : d ∈ Dialect.shipped) (q : Select) (c : Clauses) :
    Scans d (Fragment.allSigns (q.fragments d c)) (q.symbols d c) := by
  have hquotes := Dialect.hasPlainQuotes_of_shipped hd
  have hselect : Settles d (Sign.ofText "SELECT ") [.word "SELECT"] :=
    Term.settles_text hd (by decide)
  have hprojection := Term.scans_list hd fun t (_ : t ∈ c.projection) => t.scans_fragments hd
  have hfrom : ScansBehind d _ ([Symbol.word "FROM"] ++ _) :=
    Term.behind_text (s := " FROM ") hd rfl rfl (by decide)
      (scans_table hd q.scope.model.name q.scope.qualifier)
  have hwhere : ScansBehind d _ (Term.optionSymbols d [.word "WHERE"] c.condition) :=
    Term.scansBehind_option hd " WHERE " rfl (by decide) fun t _ => t.scans_fragments hd
  have hall := hselect.append_scans <| hprojection.append_behind hquotes <|
    hfrom.append hquotes <| hwhere.append hquotes <|
    (scansBehind_groups hd c.groups).append hquotes <|
    (scansBehind_order hd c.order).append hquotes (scansBehind_paging hd q)
  simpa [fragments, symbols, Fragment.signs] using hall

theorem plain_table (name : String) (qualifier : Option String) :
    Plain (tableSymbols name qualifier) := by
  cases qualifier with
  | none => exact .cons (Term.plain_name name) .nil
  | some a => exact .cons (Term.plain_name name) (.cons (by decide) (.cons (Term.plain_name a) .nil))

/-- **No symbol of a query is a marker.** -/
theorem plain_symbols (hd : d ∈ Dialect.shipped) (q : Select) (c : Clauses) :
    Plain (q.symbols d c) := by
  have hprojection := Term.plain_listSymbols fun t (_ : t ∈ c.projection) => t.plain_symbols hd
  have hcondition : Plain (Term.optionSymbols d [.word "WHERE"] c.condition) :=
    Term.plain_optionSymbols (by decide) fun t _ => t.plain_symbols hd
  have hgroups : Plain (groupSymbols d c.groups) := by
    cases hc : c.groups with
    | nil => exact .nil
    | cons t ts =>
      exact .cons (by decide) (.cons (by decide)
        (Term.plain_listSymbols fun t _ => t.plain_symbols hd))
  have horder : Plain (orderSymbols d c.order) := by
    cases hc : c.order with
    | nil => exact .nil
    | cons o os =>
      exact .cons (by decide) (.cons (by decide)
        (Term.plain_orderSymbols fun b _ => b.1.plain_symbols hd))
  have hpaging : Plain (q.pagingSymbols d) := by
    rw [pagingSymbols]
    split
    · exact Term.plain_symbols hd _
    · exact .nil
  exact .cons (by decide) (hprojection.append ((Plain.cons (by decide) (plain_table _ _)).append
    (hcondition.append (hgroups.append (horder.append hpaging)))))

/-! ### The leaves of the text -/

theorem leaves_fragments (q : Select) (d : Dialect) (c : Clauses) :
    Fragment.leaves (q.fragments d c) =
      Fragment.leaves (Term.listFragments d c.projection) ++
        Fragment.leaves (Term.optionFragments d " WHERE " c.condition) ++
        Fragment.leaves (Term.listFragments d c.groups) ++
        Fragment.leaves (Term.orderFragments d c.order) := by
  have htable : ∀ name qualifier, Fragment.leaves (tableFragments d name qualifier) = [] := by
    intro name qualifier
    cases qualifier <;> rfl
  have hgroups : Fragment.leaves (groupFragments d c.groups) =
      Fragment.leaves (Term.listFragments d c.groups) := by
    cases c.groups <;> rfl
  have horder : Fragment.leaves (orderFragments d c.order) =
      Fragment.leaves (Term.orderFragments d c.order) := by
    cases c.order <;> rfl
  have hpaging : Fragment.leaves (q.pagingFragments d) = [] := by
    rw [pagingFragments]
    split <;> rfl
  simp [fragments, htable, hgroups, horder, hpaging]

/-- The columns that are selected when none is named have no leaves. -/
theorem leaves_projection {q : Select} {ts : List Term} (h : q.projection = .ok ts) :
    Fragment.leaves (Term.listFragments d ts) = listLeaves q.columns := by
  rw [projection] at h
  split at h
  · next hnone =>
    rw [List.isEmpty_iff.mp hnone]
    split at h
    · obtain rfl := Except.ok.inj h
      rfl
    · obtain rfl := Except.ok.inj h
      induction q.scope.model.columns with
      | nil => rfl
      | cons c cs ih =>
        rw [List.map_cons, Scope.leaves_listFragments_cons, ih]
        rfl
  · exact Scope.leaves_compileList q.scope d q.columns h

/-- **A query binds the leaves of its clauses.** -/
theorem binds_build (hd : d ∈ Dialect.shipped) {q : Select} {o : Operation}
    (h : q.build d = .ok o) : o.Binds d q.leaves := by
  rw [build] at h
  cases hcompile : q.compile with
  | error fault => simp [hcompile, Except.map] at h
  | ok c =>
    rw [hcompile] at h
    obtain rfl := Except.ok.inj h
    obtain ⟨ts, hprojection, hcompile⟩ := exists_of_bind_eq_ok hcompile
    obtain ⟨condition, hcondition, hcompile⟩ := exists_of_bind_eq_ok hcompile
    obtain ⟨groups, hgroups, hcompile⟩ := exists_of_bind_eq_ok hcompile
    obtain ⟨order, horder, hcompile⟩ := exists_of_bind_eq_ok hcompile
    obtain rfl := Except.ok.inj hcompile
    have hleaves : Fragment.leaves (q.fragments d ⟨ts, condition, groups, order⟩) = q.leaves := by
      rw [leaves_fragments, leaves, leaves_projection hprojection,
        Scope.leaves_compileOption q.scope d q.condition hcondition,
        Scope.leaves_compileList q.scope d q.groups hgroups,
        Scope.leaves_compileOrder q.scope d q.order horder]
    rw [← hleaves]
    exact Operation.binds_ofFragments hd (q.scans_fragments hd _) (q.plain_symbols hd _)

end

end Select

/-- **No parameter is lost, doubled or moved.** For each shipped dialect, an expression binds its
leaves from left to right, and a query those of its calls, clause by clause. -/
theorem Operation.binds_in_order {d : Dialect} (hd : d ∈ Dialect.shipped) :
    (∀ (s : Scope) (e : Expr) (o : Operation), s.prepare d e = .ok o → o.Binds d e.leaves) ∧
      ∀ (m : Model) (ignoreCase : Bool) (calls : List Select.Call) (o : Operation),
        (Select.ofCalls m ignoreCase calls).build d = .ok o →
          o.Binds d (Select.callLeaves calls) := by
  refine ⟨fun s e o h => Scope.binds_prepare hd h, fun m enabled calls o h => ?_⟩
  rw [← Select.leaves_ofCalls m enabled calls]
  exact Select.binds_build hd h

/-- On a table whose names look like markers: an expression with the absent value on the left, and a
query whose calls come out of order. -/
theorem Operation.binds_in_order_marker_names :
    let m : Model := ⟨"@p9", .table, [{ field := "Id", name := "@p8", type := .int64 }], [], []⟩
    (∃ o st, Scope.prepare ⟨m, false, none⟩ Dialect.sqlServer
        (.binary .or (.binary .eq (.constant .null) (.binary .add (.property "Id") .arg))
          (.binary .eq (.constant (.bool true)) .arg)) = .ok o ∧
      o.statement [.value (.int 5), .value .null] = .ok st ∧
      st.params = [.int 5, .int 1, .null] ∧
      Dialect.sqlServer.markersIn st.sql = ["@p1", "@p2", "@p3"]) ∧
    ∃ o st, (Select.ofCalls m false [.orderBy .arg true, .filter (.binary .gt .arg .listArg),
        .take 3, .column (.constant (.text "@p7")), .filter .arg]).build Dialect.sqlServer = .ok o ∧
      o.statement [.value (.int 4), .list [.int 5, .null], .value (.int 6), .value (.bool false)] =
        .ok st ∧
      st.params = [.text "@p7", .int 4, .int 5, .null, .int 6, .int 0] ∧
      Dialect.sqlServer.markersIn st.sql = ["@p1", "@p2", "@p3", "@p4", "@p5", "@p6"] := by
  intro m
  have hd : Dialect.sqlServer ∈ Dialect.shipped := by simp [Dialect.shipped]
  constructor
  · have hbinds := (binds_in_order hd).1 ⟨m, false, none⟩
      (.binary .or (.binary .eq (.constant .null) (.binary .add (.property "Id") .arg))
        (.binary .eq (.constant (.bool true)) .arg)) _ rfl
    obtain ⟨st, hst⟩ := (hbinds.accepts [.value (.int 5), .value .null]).mpr rfl
    have hparams := hbinds.params _ st hst
    refine ⟨_, st, rfl, hst, hparams, ?_⟩
    rw [hbinds.markers _ st hst, hparams]
    decide
  · have hbinds := (binds_in_order hd).2 m false
      [.orderBy .arg true, .filter (.binary .gt .arg .listArg), .take 3,
        .column (.constant (.text "@p7")), .filter .arg] _ rfl
    obtain ⟨st, hst⟩ := (hbinds.accepts
      [.value (.int 4), .list [.int 5, .null], .value (.int 6), .value (.bool false)]).mpr rfl
    have hparams := hbinds.params _ st hst
    refine ⟨_, st, rfl, hst, hparams, ?_⟩
    rw [hbinds.markers _ st hst, hparams]
    decide

end EntitySql
