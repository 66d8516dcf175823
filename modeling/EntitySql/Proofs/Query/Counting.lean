import EntitySql.Proofs.Query.Writing

/-!
# Loading and counting

Rows are loaded by a query and counted by a statement of its own, which is assembled apart from
queries. Both compile the condition in the same scope, and nothing in front of it is a slot or a
value. So they are refused for the same reason, take the same arguments and bind the same values,
and behind the name of the table their texts are the same.

## Main definitions

* `Operation.Alike`: two operations that differ only in how their texts begin

## Main results

* `Operation.alike_ofFragments`: the same pieces behind texts of two kinds
* `Rows.load_alike_count`: what is counted is what is loaded
-/

namespace EntitySql

namespace Operation

open Fragment (Renders Takes)

/-- Two operations are made of the same pieces behind texts of their own: they take the same
arguments, refuse others with the same error, bind the same values, and go on with the same text. -/
structure Alike (d : Dialect) (front front' : String) (pieces : List Fragment) (o p : Operation) :
    Prop where
  slots : o.slots = p.slots
  calls : ∀ args,
    (∃ error, o.statement args = .error error ∧ p.statement args = .error error) ∨
    ∃ sql params, Renders d 1 pieces args sql params ∧
      o.statement args = .ok ⟨front ++ sql, params⟩ ∧ p.statement args = .ok ⟨front' ++ sql, params⟩
  constant : (o.sql? = none ∧ p.sql? = none) ∨
    ∃ sql, o.sql? = some (front ++ sql) ∧ p.sql? = some (front' ++ sql)

variable {d : Dialect} {front front' : String} {fs fs' pieces : List Fragment}
  {args : List Argument}

/-- Some arguments fit. -/
theorem exists_takes (o : Operation) : ∃ args, List.Forall₂ Takes o.slots args := by
  refine Text.exists_forall₂ fun f hf => ?_
  have hslot : f.isSlot = true := (List.mem_filter.mp hf).2
  cases f with
  | text sql | captured v => cases hslot
  | slot => exact ⟨.value .null, .value⟩
  | listSlot => exact ⟨.list [], .list⟩

/-- What is in front without a slot or a value stays in front. -/
theorem statement_of_front (hfront : Renders d 1 fs [] front []) {sql : String}
    {params : List Value} (h : Renders d 1 pieces args sql params) :
    (ofFragments d (fs ++ pieces)).statement args = .ok ⟨front ++ sql, params⟩ :=
  statement_ofFragments_iff.mpr (hfront.append h)

/-- **The same pieces behind texts of two kinds.** -/
theorem alike_ofFragments (h : Renders d 1 fs [] front []) (h' : Renders d 1 fs' [] front' []) :
    Alike d front front' pieces (ofFragments d (fs ++ pieces)) (ofFragments d (fs' ++ pieces)) := by
  have hnone : ∀ {fs : List Fragment} {front : String}, Renders d 1 fs [] front [] →
      (ofFragments d (fs ++ pieces)).slots = pieces.filter Fragment.isSlot := by
    intro fs front hfront
    have hempty := List.forall₂_nil_right_iff.mp hfront.takes
    rw [slots_ofFragments, List.filter_append, hempty, List.nil_append]
  have hslots : (ofFragments d (fs ++ pieces)).slots = (ofFragments d (fs' ++ pieces)).slots :=
    (hnone h).trans (hnone h').symm
  have hcalls : ∀ args, List.Forall₂ Takes (ofFragments d (fs ++ pieces)).slots args →
      ∃ sql params, Renders d 1 pieces args sql params := by
    intro args htakes
    rw [hnone h] at htakes
    exact Fragment.exists_renders d 1 htakes
  refine ⟨hslots, fun args => ?_, ?_⟩
  · rcases takes_or_refuses (ofFragments d (fs ++ pieces)) args with htakes | ⟨fault, hrefuses⟩
    · obtain ⟨sql, params, hrenders⟩ := hcalls args htakes
      exact .inr ⟨sql, params, hrenders, statement_of_front h hrenders,
        statement_of_front h' hrenders⟩
    · have hrefuses' := hrefuses
      rw [hslots] at hrefuses'
      exact .inl ⟨_, statement_of_refuses hrefuses, statement_of_refuses hrefuses'⟩
  · obtain ⟨args, htakes⟩ := exists_takes (ofFragments d (fs ++ pieces))
    obtain ⟨sql, params, hrenders⟩ := hcalls args htakes
    have hiff := exists_sql?_iff (ofFragments d (fs ++ pieces))
    have hiff' := exists_sql?_iff (ofFragments d (fs' ++ pieces))
    rw [← hslots, ← hiff] at hiff'
    cases hsql : (ofFragments d (fs ++ pieces)).sql? with
    | none =>
      refine .inl ⟨rfl, Option.eq_none_iff_forall_ne_some.mpr fun text' hsql' => ?_⟩
      obtain ⟨text, htext⟩ := hiff'.mp ⟨text', hsql'⟩
      cases hsql.symm.trans htext
    | some text =>
      obtain ⟨text', hsql'⟩ := hiff'.mpr ⟨text, hsql⟩
      have htext := sql_of_sql? hsql (statement_of_front h hrenders)
      have htext' := sql_of_sql? hsql' (statement_of_front h' hrenders)
      exact .inr ⟨sql, congrArg some htext.symm, hsql'.trans (congrArg some htext'.symm)⟩

end Operation

namespace Rows

open Fragment (Renders)

/-- What a load selects: the columns of the model, or everything if nothing is mapped. -/
def selection (r : Rows) : String :=
  if r.model.columns.isEmpty then "*"
  else ", ".intercalate (r.model.columnNames.map r.dialect.quote)

/-- The scope in which conditions are compiled. -/
def scope (r : Rows) : Scope := ⟨r.model, r.ignoreCase, none⟩

theorem renders_columns (d : Dialect) (names : List String) (next : Nat) :
    Renders d next (Term.listFragments d (names.map (.column none))) []
      (", ".intercalate (names.map d.quote)) [] := by
  induction names with
  | nil => exact .nil
  | cons n names ih =>
    have hname : (Term.column none n).fragments d = [.text (d.quote n)] := by
      rw [Term.fragments, Term.qualifierText, String.empty_append]
    cases names with
    | nil => simpa [Term.listFragments, hname] using Renders.text (d.quote n) .nil
    | cons n' names =>
      have hrest := (ih.text ", ").text (d.quote n)
      simpa [Term.listFragments, hname, String.intercalate_cons_cons, String.append_assoc]
        using hrest

/-- The terms that a load selects. -/
def selected (r : Rows) : List Term :=
  if r.model.columns.isEmpty then [.all none] else r.model.columnNames.map (.column none)

/-- The pieces that a load starts with. -/
def loadStart (r : Rows) : List Fragment :=
  .text "SELECT " :: Term.listFragments r.dialect r.selected ++
    [.text " FROM ", .text (r.dialect.quote r.model.name)]

theorem renders_selected (r : Rows) :
    Renders r.dialect 1 (Term.listFragments r.dialect r.selected) [] r.selection [] := by
  rw [selected, selection]
  split
  · exact .text _ .nil
  · exact renders_columns r.dialect r.model.columnNames 1

theorem renders_loadStart (r : Rows) : Renders r.dialect 1 r.loadStart []
    ("SELECT " ++ r.selection ++ " FROM " ++ r.dialect.quote r.model.name) [] := by
  have hfrom := r.renders_selected.append
    (.text " FROM " (.text (r.dialect.quote r.model.name) .nil))
  rw [String.append_empty] at hfrom
  rw [String.append_assoc, String.append_assoc]
  exact hfrom.text "SELECT "

theorem projection_eq (r : Rows) (filter : Option Expr) :
    ({ r.select with condition := filter } : Select).projection = .ok r.selected := by
  rw [Select.projection, selected, Model.columnNames, List.map_map]
  cases hcolumns : r.model.columns.isEmpty <;> simp [select, Select.ofModel, hcolumns]

theorem load_eq_map (r : Rows) (filter : Option Expr) :
    r.load filter = (r.scope.compileOption filter).map fun condition =>
      .ofFragments r.dialect
        (r.loadStart ++ Term.optionFragments r.dialect " WHERE " condition) := by
  have hcondition : ({ r.select with condition := filter } : Select).scope.compileOption
      ({ r.select with condition := filter } : Select).condition =
        r.scope.compileOption filter := rfl
  rw [load, Select.build, Select.compile, projection_eq]
  simp only [bind, Except.bind, hcondition]
  cases r.scope.compileOption filter with
  | error error => rfl
  | ok condition =>
    refine congrArg (fun fs => Except.ok (Operation.ofFragments r.dialect fs)) ?_
    simp [Select.fragments, loadStart, Select.tableFragments, Select.groupFragments,
      Select.orderFragments, Select.pagingFragments, select, Select.ofModel]

theorem count_eq_map (r : Rows) (filter : Option Expr) :
    r.count filter = (r.scope.compileOption filter).map fun condition =>
      .ofFragments r.dialect ([.text ("SELECT COUNT(*) FROM " ++ r.dialect.quote r.model.name)] ++
        Term.optionFragments r.dialect " WHERE " condition) := by
  rw [count, scope]
  cases (⟨r.model, r.ignoreCase, none⟩ : Scope).compileOption filter <;> rfl

/-- **What is counted is what is loaded.** A condition is refused for the same reason, or both
select the rows by it in the same text behind the name of the table. -/
theorem load_alike_count (r : Rows) (filter : Option Expr) :
    (∃ e error, filter = some e ∧ r.scope.compile e = .error error ∧
      r.load filter = .error error ∧ r.count filter = .error error) ∨
    ∃ condition load count, r.scope.compileOption filter = .ok condition ∧
      r.load filter = .ok load ∧ r.count filter = .ok count ∧
      load.Alike r.dialect ("SELECT " ++ r.selection ++ " FROM " ++ r.dialect.quote r.model.name)
        ("SELECT COUNT(*) FROM " ++ r.dialect.quote r.model.name)
        (Term.optionFragments r.dialect " WHERE " condition) count := by
  have hload := r.load_eq_map filter
  have hcount := r.count_eq_map filter
  cases hcompile : r.scope.compileOption filter with
  | error error =>
    rw [hcompile] at hload hcount
    cases filter with
    | none => cases hcompile
    | some e =>
      rcases of_bind_eq_error hcompile with herror | ⟨t, -, ht⟩
      · exact .inl ⟨e, error, rfl, herror, hload, hcount⟩
      · cases ht
  | ok condition =>
    rw [hcompile] at hload hcount
    refine .inr ⟨condition, _, _, rfl, hload, hcount, ?_⟩
    have hfront : Renders r.dialect 1
        [.text ("SELECT COUNT(*) FROM " ++ r.dialect.quote r.model.name)] []
        ("SELECT COUNT(*) FROM " ++ r.dialect.quote r.model.name) [] := by
      simpa using Renders.text ("SELECT COUNT(*) FROM " ++ r.dialect.quote r.model.name) .nil
    exact Operation.alike_ofFragments r.renders_loadStart hfront

/-- A count takes the argument of its condition. -/
example : (do
    let o ← (⟨⟨"t", .table, [{ field := "a", name := "b", type := .int64 }], [], []⟩, .postgres,
      false⟩ : Rows).count (some (.binary .gt (.property "a") .arg))
    o.statement [.value (.int 1)]) =
    .ok ⟨"SELECT COUNT(*) FROM \"t\" WHERE \"b\" > $1", [.int 1]⟩ := by decide +kernel

end Rows

end EntitySql
