import EntitySql.Proofs.Model.Building
import EntitySql.Proofs.Query.Faults
import Mathlib.Data.List.Find

/-!
# Properties found ignoring case

A property is found by its exact name, or ignoring ASCII case if the scope asks for that. Both times
it is the first column that fits. So ignoring case finds a column wherever the exact name finds one,
and whatever compiles still compiles; but the column may be another one, if a field whose name
differs in case only stands in front. Building a model compares the names of its columns, not those
of its fields, so nothing excludes such a field.

The compiled term is the same exactly if each property is found at the same column, since columns
have different names. That every expression keeps its term comes down to the properties by
themselves, and for these to the names of the fields: no two may differ in case only.

## Main definitions

* `Mapping.FieldsApart`: no two fields have names that differ in case only

## Main results

* `Scope.compile_congr`: a compiled expression depends on a scope by the columns of its properties
* `Model.forall_columnOfField?_iff`: when ignoring case always finds the column of the exact name
* `Scope.compile_ignoreCase`: what becomes of an expression when case is ignored
-/

namespace EntitySql

/-! ### The columns of a property -/

/-- No two stored fields have names that differ in ASCII case only. -/
def Mapping.FieldsApart (mapping : Mapping) : Prop :=
  ∀ f ∈ mapping.stored, ∀ g ∈ mapping.stored, Text.sameName f.name g.name = true → f.name = g.name

namespace Model

section

variable {m : Model} {name other : String} {c : Column}

theorem field_of_columnOfField? (h : m.columnOfField? name false = some c) :
    c ∈ m.columns ∧ c.field = name :=
  ⟨List.mem_of_find?_eq_some h, by simpa using List.find?_some h⟩

/-- Ignoring case finds a column wherever the exact name finds one. -/
theorem isSome_columnOfField?_ignoreCase (h : (m.columnOfField? name false).isSome = true) :
    (m.columnOfField? name true).isSome = true := by
  obtain ⟨c, hc⟩ := Option.isSome_iff_exists.mp h
  obtain ⟨hmem, rfl⟩ := field_of_columnOfField? hc
  exact List.find?_isSome.mpr ⟨c, hmem, by simp⟩

/-- Names that differ in case only are found at one column if case is ignored. -/
theorem columnOfField?_ignoreCase_congr (h : Text.sameName name other = true) :
    m.columnOfField? name true = m.columnOfField? other true := by
  have hpredicate : ∀ c : Column, Text.sameName c.field name = Text.sameName c.field other := by
    intro c
    rw [Text.sameName, Text.sameName, Text.sameName_iff.mp h]
  simp [columnOfField?, hpredicate]

end

/-- The columns of a model are mapped from the stored fields. -/
theorem map_field_columns {mapping : Mapping} {m : Model} (hm : build mapping = .ok m) :
    m.columns.map (·.field) = mapping.stored.map (·.name) := by
  obtain ⟨rfl, -⟩ := of_build_eq_ok hm
  obtain ⟨single, hcolumns, -⟩ := exists_columns mapping.name mapping.storage mapping.stored
  rw [hcolumns, List.map_map]
  rfl

theorem fieldsApart_iff {mapping : Mapping} {m : Model} (hm : build mapping = .ok m) :
    mapping.FieldsApart ↔ ∀ a ∈ m.columns, ∀ b ∈ m.columns,
      Text.sameName a.field b.field = true → a.field = b.field := by
  have hfields : mapping.FieldsApart ↔ ∀ x ∈ mapping.stored.map (·.name),
      ∀ y ∈ mapping.stored.map (·.name), Text.sameName x y = true → x = y := by
    simp only [Mapping.FieldsApart, List.forall_mem_map]
  rw [hfields, ← map_field_columns hm]
  simp only [List.forall_mem_map]

/-- **Ignoring case always finds the column of the exact name** if and only if no two fields have
names that differ in case only. -/
theorem forall_columnOfField?_iff {mapping : Mapping} {m : Model} (hm : build mapping = .ok m) :
    (∀ name, (m.columnOfField? name false).isSome = true →
      m.columnOfField? name true = m.columnOfField? name false) ↔ mapping.FieldsApart := by
  rw [fieldsApart_iff hm]
  constructor
  · intro h a ha b hb hsame
    -- both names are found at one column, and so it is mapped from either
    have hfound : ∀ c ∈ m.columns, (m.columnOfField? c.field false).isSome = true :=
      fun c hc => List.find?_isSome.mpr ⟨c, hc, by simp⟩
    have hone : m.columnOfField? a.field false = m.columnOfField? b.field false := by
      rw [← h _ (hfound a ha), ← h _ (hfound b hb), columnOfField?_ignoreCase_congr hsame]
    obtain ⟨c, hc⟩ := Option.isSome_iff_exists.mp (hfound a ha)
    rw [← (field_of_columnOfField? hc).2]
    exact (field_of_columnOfField? (hone.symm.trans hc)).2
  · intro h name hname
    obtain ⟨c, hc⟩ := Option.isSome_iff_exists.mp hname
    obtain ⟨hmem, rfl⟩ := field_of_columnOfField? hc
    refine List.find?_congr fun a ha => ?_
    have hiff : Text.sameName a.field c.field = true ↔ a.field = c.field :=
      ⟨h a ha c hmem, fun heq => by rw [heq, Text.sameName_refl]⟩
    rw [Bool.eq_iff_iff]
    simpa using hiff

end Model

namespace Scope

/-! ### What compiling depends on -/

/-- Two scopes have the same columns for the properties among expressions. -/
structure AgreeOn (s s' : Scope) (es : List Expr) : Prop where
  /-- They put one alias in front of columns. -/
  qualifier : s.qualifier = s'.qualifier
  /-- A property has one column in both. -/
  column : ∀ name, .property name ∈ es → s.column name = s'.column name

theorem AgreeOn.mono {s s' : Scope} {es es' : List Expr} (h : AgreeOn s s' es')
    (hsub : ∀ e ∈ es, e ∈ es') : AgreeOn s s' es :=
  ⟨h.qualifier, fun name hname => h.column name (hsub _ hname)⟩

section

variable {s s' : Scope}

open EntitySql.Expr (listNodes optionNodes branchNodes orderNodes)

mutual

/-- **A compiled expression depends on a scope by the columns of its properties**, and by the alias
in front of columns. -/
theorem compile_congr : ∀ e : Expr, AgreeOn s s' e.nodes → s.compile e = s'.compile e
  | .property name, h => by
    rw [compile, compile]
    exact h.column name List.mem_cons_self
  | .constant _, _ | .arg, _ | .listArg, _ => rfl
  | .binary op left right, h => by
    have hleft := compile_congr left (h.mono fun _ hn => by simp [Expr.nodes, hn])
    have hright := compile_congr right (h.mono fun _ hn => by simp [Expr.nodes, hn])
    rw [compile, compile, hleft, hright]
  | .unary op operand, h => by
    rw [compile, compile, compile_congr operand (h.mono fun _ hn => by simp [Expr.nodes, hn])]
  | .call function args, h => by
    rw [compile, compile, compileList_congr args (h.mono fun _ hn => by simp [Expr.nodes, hn])]
  | .case operand branches otherwise, h => by
    have hoperand := compileOption_congr operand (h.mono fun _ hn => by simp [Expr.nodes, hn])
    have hbranches := compileBranches_congr branches (h.mono fun _ hn => by simp [Expr.nodes, hn])
    have hotherwise := compileOption_congr otherwise (h.mono fun _ hn => by simp [Expr.nodes, hn])
    rw [compile, compile, hoperand, hbranches, hotherwise]
  | .cast operand target, h => by
    rw [compile, compile, compile_congr operand (h.mono fun _ hn => by simp [Expr.nodes, hn])]
  | .tuple items, h => by
    rw [compile, compile, compileList_congr items (h.mono fun _ hn => by simp [Expr.nodes, hn])]
  | .named operand name, h => by
    rw [compile, compile, compile_congr operand (h.mono fun _ hn => by simp [Expr.nodes, hn])]
  | .all, h => by rw [compile, compile, h.qualifier]
  | .rowNumber partition order, h => by
    have hpartition := compileList_congr partition (h.mono fun _ hn => by simp [Expr.nodes, hn])
    have horder := compileOrder_congr order (h.mono fun _ hn => by simp [Expr.nodes, hn])
    rw [compile, compile, hpartition, horder]

theorem compileList_congr : ∀ es : List Expr, AgreeOn s s' (listNodes es) →
    s.compileList es = s'.compileList es
  | [], _ => rfl
  | e :: es, h => by
    have hfirst := compile_congr e (h.mono fun _ hn => by simp [listNodes, hn])
    have hrest := compileList_congr es (h.mono fun _ hn => by simp [listNodes, hn])
    rw [compileList, compileList, hfirst, hrest]

theorem compileOption_congr : ∀ o : Option Expr, AgreeOn s s' (optionNodes o) →
    s.compileOption o = s'.compileOption o
  | none, _ => rfl
  | some e, h => by rw [compileOption, compileOption, compile_congr e h]

theorem compileBranches_congr : ∀ bs : List (Expr × Expr), AgreeOn s s' (branchNodes bs) →
    s.compileBranches bs = s'.compileBranches bs
  | [], _ => rfl
  | (condition, result) :: bs, h => by
    have hcondition := compile_congr condition (h.mono fun _ hn => by simp [branchNodes, hn])
    have hresult := compile_congr result (h.mono fun _ hn => by simp [branchNodes, hn])
    have hrest := compileBranches_congr bs (h.mono fun _ hn => by simp [branchNodes, hn])
    rw [compileBranches, compileBranches, hcondition, hresult, hrest]

theorem compileOrder_congr : ∀ os : List (Expr × Bool), AgreeOn s s' (orderNodes os) →
    s.compileOrder os = s'.compileOrder os
  | [], _ => rfl
  | (e, descending) :: os, h => by
    have hfirst := compile_congr e (h.mono fun _ hn => by simp [orderNodes, hn])
    have hrest := compileOrder_congr os (h.mono fun _ hn => by simp [orderNodes, hn])
    rw [compileOrder, compileOrder, hfirst, hrest]

end

/-- What compiles: all properties have columns, and all calls are known. -/
theorem exists_compile_iff {e : Expr} : (∃ t, s.compile e = .ok t) ↔
    (∀ name, .property name ∈ e.nodes →
      (s.model.columnOfField? name s.ignoreCase).isSome = true) ∧
    ∀ function args, .call function args ∈ e.nodes → Callee.IsKnown function args.length := by
  rw [← forall_not_rejects_iff, ← errorOf?_eq_none_iff, s.errorOf?_compile,
    List.findSome?_eq_none_iff]
  exact forall_congr' fun n => imp_congr_right fun _ => fault?_eq_none_iff

end

/-! ### Ignoring case -/

/-- Two ways of choosing from a list are one if they choose at the same places, and the same. -/
theorem eq_of_filterMap_eq {α β : Type} {f g : α → Option β} {xs : List α}
    (hsome : ∀ x ∈ xs, (f x).isSome = (g x).isSome) (h : xs.filterMap f = xs.filterMap g) :
    ∀ x ∈ xs, f x = g x := by
  induction xs with
  | nil => exact List.forall_mem_nil _
  | cons x xs ih =>
    have hrest := fun y hy => hsome y (List.mem_cons_of_mem x hy)
    have hx := hsome x List.mem_cons_self
    cases hf : f x with
    | none =>
      have hg : g x = none := by simpa [hf] using hx
      rw [List.filterMap_cons_none hf, List.filterMap_cons_none hg] at h
      exact List.forall_mem_cons.mpr ⟨hf.trans hg.symm, ih hrest h⟩
    | some a =>
      obtain ⟨b, hg⟩ := Option.isSome_iff_exists.mp (hx.symm.trans (by rw [hf]; rfl))
      rw [List.filterMap_cons_some hf, List.filterMap_cons_some hg] at h
      obtain ⟨rfl, htail⟩ := List.cons.inj h
      exact List.forall_mem_cons.mpr ⟨hf.trans hg.symm, ih hrest htail⟩

section

variable {mapping : Mapping} {m : Model} (hm : Model.build mapping = .ok m)
  {qualifier : Option String} {e : Expr} {t u : Term}

/-- **Whatever compiles still compiles if case is ignored.** -/
theorem exists_compile_ignoreCase (ht : (⟨m, false, qualifier⟩ : Scope).compile e = .ok t) :
    ∃ u, (⟨m, true, qualifier⟩ : Scope).compile e = .ok u := by
  obtain ⟨hproperties, hcalls⟩ := exists_compile_iff.mp ⟨t, ht⟩
  exact exists_compile_iff.mpr
    ⟨fun name hname => Model.isSome_columnOfField?_ignoreCase (hproperties name hname), hcalls⟩

include hm

/-- **Its term is the same exactly if its properties are found at the same columns.** -/
theorem compile_ignoreCase_eq_iff (ht : (⟨m, false, qualifier⟩ : Scope).compile e = .ok t)
    (hu : (⟨m, true, qualifier⟩ : Scope).compile e = .ok u) :
    u = t ↔ ∀ name, .property name ∈ e.nodes →
      m.columnOfField? name true = m.columnOfField? name false := by
  have hexact := (exists_compile_iff.mp ⟨t, ht⟩).1
  constructor
  · rintro rfl name hname
    have hcolumns := (columns_compile hu).symm.trans (columns_compile ht)
    have hsome : ∀ n ∈ e.nodes, (resolved? ⟨m, true, qualifier⟩ n).isSome =
        (resolved? ⟨m, false, qualifier⟩ n).isSome := by
      intro n hn
      cases n with
      | property name =>
        simp [resolved?, hexact name hn, Model.isSome_columnOfField?_ignoreCase (hexact name hn)]
      | _ => rfl
    have hresolved := eq_of_filterMap_eq hsome hcolumns (.property name) hname
    obtain ⟨c, hc⟩ := Option.isSome_iff_exists.mp (hexact name hname)
    obtain ⟨d, hd⟩ := Option.isSome_iff_exists.mp
      (Model.isSome_columnOfField?_ignoreCase (hexact name hname))
    -- the columns have one name, and a model has only one column of a name
    have hnames : d.name = c.name := by simpa [resolved?, hc, hd] using hresolved
    rw [hc, hd, (Model.valid_of_build hm).eq_of_sameName (List.mem_of_find?_eq_some hd)
      (List.mem_of_find?_eq_some hc) (by rw [hnames, Text.sameName_refl])]
  · intro h
    have hagree : AgreeOn ⟨m, true, qualifier⟩ ⟨m, false, qualifier⟩ e.nodes :=
      ⟨rfl, fun name hname => by rw [column, column, h name hname]⟩
    rw [compile_congr e hagree, ht] at hu
    exact (Except.ok.inj hu).symm

end

/-- **What becomes of an expression when case is ignored.** Whatever compiles by exact names
compiles, to the same term exactly if each of its properties is found at the column of its exact
name. Every such expression keeps its term if and only if no two fields have names that differ in
case only. -/
theorem compile_ignoreCase {mapping : Mapping} {m : Model} (hm : Model.build mapping = .ok m)
    (qualifier : Option String) :
    (∀ e t, (⟨m, false, qualifier⟩ : Scope).compile e = .ok t →
      ∃ u, (⟨m, true, qualifier⟩ : Scope).compile e = .ok u ∧
        (u = t ↔ ∀ name, .property name ∈ e.nodes →
          m.columnOfField? name true = m.columnOfField? name false)) ∧
    ((∀ e t, (⟨m, false, qualifier⟩ : Scope).compile e = .ok t →
      (⟨m, true, qualifier⟩ : Scope).compile e = .ok t) ↔ mapping.FieldsApart) := by
  refine ⟨fun e t ht => ?_, ?_⟩
  · obtain ⟨u, hu⟩ := exists_compile_ignoreCase ht
    exact ⟨u, hu, compile_ignoreCase_eq_iff hm ht hu⟩
  · rw [← Model.forall_columnOfField?_iff hm]
    constructor
    · intro h name hname
      obtain ⟨t, ht⟩ : ∃ t, (⟨m, false, qualifier⟩ : Scope).compile (.property name) = .ok t :=
        exists_compile_iff.mpr (by simpa [Expr.nodes] using hname)
      exact (compile_ignoreCase_eq_iff hm ht (h _ _ ht)).mp rfl name List.mem_cons_self
    · intro h e t ht
      obtain ⟨u, hu⟩ := exists_compile_ignoreCase ht
      have hproperties := (exists_compile_iff.mp ⟨t, ht⟩).1
      obtain rfl : u = t := (compile_ignoreCase_eq_iff hm ht hu).mpr
        fun name hname => h name (hproperties name hname)
      exact hu

/-- Fields of different names: ignoring case only adds a spelling. -/
theorem compile_ignoreCase_apart :
    ∃ mapping m, Model.build mapping = .ok m ∧ mapping.FieldsApart ∧
      (∀ e t, (⟨m, false, none⟩ : Scope).compile e = .ok t →
        (⟨m, true, none⟩ : Scope).compile e = .ok t) ∧
      (⟨m, false, none⟩ : Scope).compile (.property "a") =
        .error (.propertyNotFound "a" "t" ["x", "y"]) ∧
      (⟨m, true, none⟩ : Scope).compile (.property "a") = .ok (.column none "x") := by
  have hbuild : Model.build
      { name := "t"
        fields := [{ name := "A", spelling := "i64", column := some "x", notNull := some true },
          { name := "b", spelling := "i64", column := some "y", notNull := some true }] } =
      .ok ⟨"t", .table, [{ field := "A", name := "x", type := .int64, notNull := true },
        { field := "b", name := "y", type := .int64, notNull := true }], [], []⟩ := by
    rfl
  have hapart : Mapping.FieldsApart
      { name := "t"
        fields := [{ name := "A", spelling := "i64", column := some "x", notNull := some true },
          { name := "b", spelling := "i64", column := some "y", notNull := some true }] } := by
    unfold Mapping.FieldsApart
    decide +kernel
  obtain ⟨-, hsame⟩ := compile_ignoreCase hbuild none
  exact ⟨_, _, hbuild, hapart, hsame.mpr hapart, rfl, rfl⟩

/-- Fields whose names differ in case only: ignoring case finds the column of the first one. -/
theorem compile_property_shadowed :
    ∃ mapping m, Model.build mapping = .ok m ∧
      mapping.stored =
        [{ name := "A", spelling := "i64", column := some "x", notNull := some true },
          { name := "a", spelling := "i64", column := some "y", notNull := some true }] ∧
      (⟨m, false, none⟩ : Scope).compile (.property "a") = .ok (.column none "y") ∧
      (⟨m, true, none⟩ : Scope).compile (.property "a") = .ok (.column none "x") := by
  have hbuild : Model.build
      { name := "t"
        fields := [{ name := "A", spelling := "i64", column := some "x", notNull := some true },
          { name := "a", spelling := "i64", column := some "y", notNull := some true }] } =
      .ok ⟨"t", .table, [{ field := "A", name := "x", type := .int64, notNull := true },
        { field := "a", name := "y", type := .int64, notNull := true }], [], []⟩ := by
    rfl
  exact ⟨_, _, hbuild, rfl, rfl, rfl⟩

end Scope

end EntitySql
