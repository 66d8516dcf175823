import EntitySql.Proofs.Query.Masking

/-!
# Values never reach the text

Two runs that differ only in values give the same text: the parameters differ and nothing else. That
is so for expressions, queries and filters whose constants differ, unless one of them is absent; for
arguments that differ, unless lists differ in length; and for the commands that write a row, whatever
the row. If one run fails to compile, so does the other, with the same error.

Every operation is masked by masking what it is made from, so the text of its calls is that of the
masked operation.

## Main definitions

* `Select.masked`: a query with all its constants masked
* `Operation.callText`: the text of a call of what may not compile

## Main results

* `Scope.prepare_masked`, `Select.build_masked`, `Rows.load_masked`, `Rows.count_masked`: an
  operation is masked by masking what it is made from
* `Operation.callText_eq_of_masked`: values never reach the text
-/

namespace EntitySql

/-! ### Expressions -/

theorem Scope.prepare_masked (s : Scope) (d : Dialect) (e : Expr) :
    s.prepare d e.masked = (s.prepare d e).map Operation.masked := by
  rw [prepare, prepare, s.compile_masked e]
  cases s.compile e with
  | error fault => rfl
  | ok t =>
    have hterm : Operation.ofFragments d (t.masked.fragments d) =
        (Operation.ofFragments d (t.fragments d)).masked := by
      rw [Term.fragments_masked, Operation.masked_ofFragments]
    exact congrArg Except.ok hterm

/-! ### Queries -/

namespace Select

/-- A query with all its constants masked. -/
def masked (q : Select) : Select where
  scope := q.scope
  columns := Expr.maskedList q.columns
  condition := Expr.maskedOption q.condition
  groups := Expr.maskedList q.groups
  order := Expr.maskedOrder q.order
  limit := q.limit
  offset := q.offset

/-- Clauses with all their captured values masked. -/
def Clauses.masked (c : Clauses) : Clauses where
  projection := Term.maskedList c.projection
  condition := Term.maskedOption c.condition
  groups := Term.maskedList c.groups
  order := Term.maskedOrder c.order

theorem projection_masked (q : Select) :
    q.masked.projection = q.projection.map Term.maskedList := by
  have hcolumns : ∀ cs : List Column,
      Term.maskedList (cs.map fun c => .column q.scope.qualifier c.name) =
        cs.map fun c => .column q.scope.qualifier c.name := by
    intro cs
    induction cs with
    | nil => rfl
    | cons c cs ih => rw [List.map_cons, Term.maskedList, ih]; rfl
  cases hq : q.columns with
  | nil =>
    simp only [projection, masked, hq, Expr.maskedList, List.isEmpty_nil, if_true]
    split
    · rfl
    · exact congrArg Except.ok (hcolumns _).symm
  | cons e es =>
    have hlist := q.scope.compileList_masked (e :: es)
    simp only [Expr.maskedList] at hlist
    simp only [projection, masked, hq, Expr.maskedList, List.isEmpty_cons, Bool.false_eq_true,
      if_false, hlist]

theorem compile_masked (q : Select) : q.masked.compile = q.compile.map Clauses.masked := by
  have hcondition := q.scope.compileOption_masked q.condition
  have hgroups := q.scope.compileList_masked q.groups
  have horder := q.scope.compileOrder_masked q.order
  simp only [compile, q.projection_masked]
  simp only [masked, hcondition, hgroups, horder]
  cases q.projection <;> cases q.scope.compileOption q.condition <;>
    cases q.scope.compileList q.groups <;> cases q.scope.compileOrder q.order <;> rfl

theorem groupFragments_masked (d : Dialect) (ts : List Term) :
    groupFragments d (Term.maskedList ts) = (groupFragments d ts).map Fragment.masked := by
  cases ts with
  | nil => rfl
  | cons t ts =>
    have hlist := Term.listFragments_masked d (t :: ts)
    simp only [Term.maskedList] at hlist
    simp [groupFragments, Term.maskedList, hlist]

theorem orderFragments_masked (d : Dialect) (os : List (Term × Bool)) :
    orderFragments d (Term.maskedOrder os) = (orderFragments d os).map Fragment.masked := by
  rcases os with _ | ⟨⟨t, descending⟩, os⟩
  · rfl
  · have horder := Term.orderFragments_masked d ((t, descending) :: os)
    simp only [Term.maskedOrder] at horder
    simp [orderFragments, Term.maskedOrder, horder]

theorem fragments_masked (q : Select) (d : Dialect) (c : Clauses) :
    q.masked.fragments d c.masked = (q.fragments d c).map Fragment.masked := by
  have htable : (tableFragments d q.scope.model.name q.scope.qualifier).map Fragment.masked =
      tableFragments d q.scope.model.name q.scope.qualifier := by
    cases hq : q.scope.qualifier <;> simp [tableFragments]
  have hpaging : q.masked.pagingFragments d = (q.pagingFragments d).map Fragment.masked := by
    have horder : (Expr.maskedOrder q.order).isEmpty = q.order.isEmpty := by
      cases q.order <;> rfl
    simp only [pagingFragments, masked, horder]
    split <;> rfl
  rw [fragments, hpaging]
  simp [fragments, masked, Clauses.masked, htable, Term.listFragments_masked,
    Term.optionFragments_masked, groupFragments_masked, orderFragments_masked]

/-- **The operation of a query is masked by masking the query.** -/
theorem build_masked (q : Select) (d : Dialect) :
    q.masked.build d = (q.build d).map Operation.masked := by
  rw [build, build, q.compile_masked]
  cases q.compile with
  | error fault => rfl
  | ok c =>
    have hfragments : Operation.ofFragments d (q.masked.fragments d c.masked) =
        (Operation.ofFragments d (q.fragments d c)).masked := by
      rw [fragments_masked, Operation.masked_ofFragments]
    exact congrArg Except.ok hfragments

end Select

/-! ### Commands -/

namespace Rows

variable (r : Rows)

theorem load_masked (filter : Option Expr) :
    r.load (Expr.maskedOption filter) = (r.load filter).map Operation.masked :=
  ({ r.select with condition := filter } : Select).build_masked r.dialect

theorem count_masked (filter : Option Expr) :
    r.count (Expr.maskedOption filter) = (r.count filter).map Operation.masked := by
  rw [count, count, Scope.compileOption_masked]
  cases (⟨r.model, r.ignoreCase, none⟩ : Scope).compileOption filter with
  | error fault => rfl
  | ok condition =>
    have hfragments := Operation.masked_ofFragments r.dialect
      (.text s!"SELECT COUNT(*) FROM {r.dialect.quote r.model.name}" ::
        Term.optionFragments r.dialect " WHERE " condition)
    rw [List.map_cons, ← Term.optionFragments_masked] at hfragments
    exact congrArg Except.ok hfragments

/-- The arguments that are taken from the columns of a row do not tell the row. -/
theorem shape_of_columns (columns : List Column) (values values' : RowValues) :
    (columns.map fun c => Argument.value (values.get c.field)).map Argument.shape =
      (columns.map fun c => Argument.value (values'.get c.field)).map Argument.shape := by
  simp [Function.comp_def, Argument.shape]

end Rows

/-! ### Values and texts -/

namespace Operation

/-- The text of a call of what may not compile, or the error. -/
def callText (x : Except Error Operation) (args : List Argument) : Except Error String :=
  x.bind (textOf · args)

theorem callText_eq {x y : Except Error Operation} (h : x.map masked = y.map masked)
    {args brgs : List Argument} (hargs : args.map Argument.shape = brgs.map Argument.shape) :
    callText x args = callText y brgs := by
  cases x with
  | error fault =>
    cases y with
    | error fault' => exact congrArg Except.error (Except.error.inj h)
    | ok p => cases h
  | ok o =>
    cases y with
    | error fault' => cases h
    | ok p => exact textOf_eq_of_masked (Except.ok.inj h) hargs

/-- **Values never reach the text of a statement.** Expressions, queries and filters that differ in
nothing but constants that are not absent, called with arguments of the same shapes, give the same
text or the same error; and so do the commands that write a row, for every two rows. -/
theorem callText_eq_of_masked :
    (∀ (s : Scope) (d : Dialect) (e e' : Expr) (args args' : List Argument),
      e.masked = e'.masked → args.map Argument.shape = args'.map Argument.shape →
        callText (s.prepare d e) args = callText (s.prepare d e') args') ∧
    (∀ (q q' : Select) (d : Dialect) (args args' : List Argument),
      q.masked = q'.masked → args.map Argument.shape = args'.map Argument.shape →
        callText (q.build d) args = callText (q'.build d) args') ∧
    (∀ (r : Rows) (f f' : Option Expr) (args args' : List Argument),
      Expr.maskedOption f = Expr.maskedOption f' →
      args.map Argument.shape = args'.map Argument.shape →
        callText (r.load f) args = callText (r.load f') args' ∧
          callText (r.count f) args = callText (r.count f') args') ∧
    ∀ (r : Rows) (values values' : RowValues),
      callText r.insert (r.insertArguments values) =
        callText r.insert (r.insertArguments values') ∧
      callText r.update (r.updateArguments values) =
        callText r.update (r.updateArguments values') ∧
      callText r.delete (r.deleteArguments values) =
        callText r.delete (r.deleteArguments values') ∧
      ∀ keys keys' : List Value, keys.length = keys'.length →
        callText r.deleteMany [.list keys] = callText r.deleteMany [.list keys'] := by
  refine ⟨fun s d e e' args args' he hargs => ?_, fun q q' d args args' hq hargs => ?_,
    fun r f f' args args' hf hargs => ⟨?_, ?_⟩, fun r values values' => ⟨?_, ?_, ?_, ?_⟩⟩
  · exact callText_eq (by rw [← s.prepare_masked, he, s.prepare_masked]) hargs
  · exact callText_eq (by rw [← q.build_masked, hq, q'.build_masked]) hargs
  · exact callText_eq (by rw [← r.load_masked, hf, r.load_masked]) hargs
  · exact callText_eq (by rw [← r.count_masked, hf, r.count_masked]) hargs
  · exact callText_eq rfl (Rows.shape_of_columns _ values values')
  · exact callText_eq rfl (Rows.shape_of_columns _ values values')
  · exact callText_eq rfl (Rows.shape_of_columns _ values values')
  · intro keys keys' hlength
    exact callText_eq rfl (by simp [Argument.shape, hlength])

/-- A text that would end a statement stands in none, as a constant, an argument or a key. -/
theorem callText_eq_of_masked_injection :
    let m : Model := ⟨"t", .table,
      [{ field := "Id", name := "id", type := .int64, primaryKey := true },
        { field := "Name", name := "name", type := .text }], [], []⟩
    let r : Rows := ⟨m, .sqlite, false⟩
    let named (v : Value) : Expr := .binary .eq (.property "Name") (.constant v)
    let listed (v : Value) : Expr :=
      .binary .and (named v) (.call "any" [.property "Id", .listArg])
    let breaking : Value := .text "'; DROP TABLE t; --"
    (callText (Scope.prepare ⟨m, false, none⟩ .postgres (listed breaking))
        [.list [breaking, .null]]).toOption =
      some "\"name\" = $1 AND \"id\" IN ($2,$3)" ∧
    callText (({ r.select with condition := some (named breaking), limit := some 1 } :
        Select).build .sqlServer) [] =
      callText (({ r.select with condition := some (named (.int 0)), limit := some 1 } :
        Select).build .sqlServer) [] ∧
    (callText (r.count (some (named breaking))) []).toOption =
      some "SELECT COUNT(*) FROM \"t\" WHERE \"name\" = ?" ∧
    (callText r.deleteMany [.list [breaking]]).toOption =
      some "DELETE FROM \"t\" WHERE \"id\" IN (?)" := by
  intro m r named listed breaking
  obtain ⟨hprepare, hbuild, hfilter, hrows⟩ := callText_eq_of_masked
  have hlisted := hprepare ⟨m, false, none⟩ .postgres (listed breaking) (listed (.int 0))
    [.list [breaking, .null]] [.list [.int 0, .int 0]] rfl rfl
  have hcount := (hfilter r (some (named breaking)) (some (named (.int 0))) [] [] rfl rfl).2
  have hkeys := (hrows r [] []).2.2.2 [breaking] [.int 0] rfl
  rw [hlisted, hcount, hkeys]
  exact ⟨by decide +kernel, hbuild _ _ .sqlServer [] [] rfl rfl, by decide +kernel,
    by decide +kernel⟩

end Operation

end EntitySql
