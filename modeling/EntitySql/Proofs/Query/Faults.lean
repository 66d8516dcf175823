import EntitySql.Proofs.Query.Leaf
import EntitySql.Proofs.Reading.Term

/-!
# What compiles, and the first fault of what does not

Compiling an expression looks up its properties and the names that it calls, each where it stands.
So an expression compiles exactly if each of its nodes is accepted, and otherwise the error is that
of the first node that is not. The nodes are in the order in which the expression is written: a node
stands in front of its parts, and these from left to right. A comparison with the absent value is
compiled from right to left if that value is on the left, but the absent value is never a fault, so
that no fault overtakes another.

The functions that may be called are listed in `Callee.signatures`, apart from the lookup by which
they are compiled.

## Main definitions

* `Expr.nodes`: an expression and all expressions inside it
* `Callee.IsKnown`: the calls that are accepted
* `Scope.Rejects`: the nodes that are not accepted, with their errors
* `Term.columns`: the columns of a term
* `Term.ComparesNull`: the absent value is compared by `IS`, and stands on the right

## Main results

* `Callee.isSome_ofName?_iff`: the lookup of a function finds the calls that are accepted
* `Scope.errorOf?_compile`: the error of an expression is that of its first rejected node
* `Scope.columns_compile`, `Scope.comparesNull_compile`: the columns and the comparisons of a
  compiled expression
* `Scope.compile_outcome`: what compiles, what it compiles to, and the error of what does not
-/

namespace EntitySql

/-! ### The nodes of an expression -/

namespace Expr

mutual

/-- An expression and all expressions inside it, each in front of its parts. -/
def nodes : Expr → List Expr
  | property name => [property name]
  | constant v => [constant v]
  | arg => [arg]
  | listArg => [listArg]
  | binary op left right => binary op left right :: (left.nodes ++ right.nodes)
  | unary op operand => unary op operand :: operand.nodes
  | call function args => call function args :: listNodes args
  | case operand branches otherwise =>
    case operand branches otherwise ::
      (optionNodes operand ++ branchNodes branches ++ optionNodes otherwise)
  | cast operand target => cast operand target :: operand.nodes
  | tuple items => tuple items :: listNodes items
  | named operand name => named operand name :: operand.nodes
  | all => [all]
  | rowNumber partition order =>
    rowNumber partition order :: (listNodes partition ++ orderNodes order)

/-- The nodes of expressions. -/
def listNodes : List Expr → List Expr
  | [] => []
  | e :: es => e.nodes ++ listNodes es

/-- The nodes of an optional expression. -/
def optionNodes : Option Expr → List Expr
  | none => []
  | some e => e.nodes

/-- The nodes of branches, those of each condition in front of those of its result. -/
def branchNodes : List (Expr × Expr) → List Expr
  | [] => []
  | (condition, result) :: rest => condition.nodes ++ result.nodes ++ branchNodes rest

/-- The nodes of order terms. -/
def orderNodes : List (Expr × Bool) → List Expr
  | [] => []
  | (e, _) :: rest => e.nodes ++ orderNodes rest

end

end Expr

/-! ### The calls that are accepted -/

namespace Callee

/-- A function that may be called: its name in lower case, and the least and the greatest number of
arguments that it takes. -/
structure Signature where
  /-- The name of the function. -/
  name : String
  /-- The least number of arguments. -/
  least : Nat
  /-- The greatest number of arguments, if there is one. -/
  most : Option Nat

/-- The functions that may be called. -/
def signatures : List Signature :=
  [⟨"count", 0, some 1⟩, ⟨"count_distinct", 1, some 1⟩, ⟨"sum", 1, some 1⟩, ⟨"avg", 1, some 1⟩,
    ⟨"min", 1, some 1⟩, ⟨"max", 1, some 1⟩, ⟨"coalesce", 1, none⟩, ⟨"lower", 1, some 1⟩,
    ⟨"upper", 1, some 1⟩, ⟨"length", 1, some 1⟩, ⟨"abs", 1, some 1⟩, ⟨"if", 3, some 3⟩,
    ⟨"tuple", 1, none⟩, ⟨"any", 2, some 2⟩]

/-- The name is that of a function, in any case of its letters, which takes as many arguments. -/
def IsKnown (function : String) (arity : Nat) : Prop :=
  ∃ f ∈ signatures, Text.sameName f.name function = true ∧ f.least ≤ arity ∧
    ∀ most ∈ f.most, arity ≤ most

/-- The names of the functions are in lower case, so that every spelling of one is looked up as
it. -/
theorem sameName_iff_lowerAscii {f : Signature} (hf : f ∈ signatures) {function : String} :
    Text.sameName f.name function = true ↔ Text.lowerAscii function = f.name := by
  have hname : ∀ f ∈ signatures, Text.foldCase f.name = f.name.toList := by decide +kernel
  rw [Text.sameName_iff, hname f hf, ← String.toList_inj, Text.lowerAscii, String.toList_ofList,
    eq_comm]
  rfl

/-- **The lookup of a function finds the calls that are accepted.** -/
theorem isSome_ofName?_iff {function : String} {arity : Nat} :
    (ofName? (Text.lowerAscii function) arity).isSome = true ↔ IsKnown function arity := by
  have hknown : IsKnown function arity ↔ ∃ f ∈ signatures, Text.lowerAscii function = f.name ∧
      f.least ≤ arity ∧ ∀ most ∈ f.most, arity ≤ most := by
    refine exists_congr fun f => and_congr_right fun hf => ?_
    rw [sameName_iff_lowerAscii hf]
  rw [hknown]
  generalize Text.lowerAscii function = name
  constructor
  · intro h
    unfold ofName? at h
    split at h
    case h_16 => simp at h
    all_goals
      simp only [signatures, List.mem_cons, exists_eq_or_imp, String.reduceEq, false_and, true_and,
        false_or, Option.mem_def, reduceCtorEq]
      simp
  · rintro ⟨f, hf, rfl, hleast, hmost⟩
    -- with a greatest number of arguments there are few to try; without, any but none will do
    have hbounded : ∀ f ∈ signatures, ∀ most ∈ f.most, ∀ n ≤ most, f.least ≤ n →
        (ofName? f.name n).isSome = true := by decide
    have hunbounded : ∀ f ∈ signatures, f.most = none →
        f.least = 1 ∧ (f.name = "coalesce" ∨ f.name = "tuple") := by decide
    cases hlimit : f.most with
    | some most => exact hbounded f hf most hlimit arity (hmost most hlimit) hleast
    | none =>
      obtain ⟨hone, hname⟩ := hunbounded f hf hlimit
      obtain ⟨n, rfl⟩ := Nat.exists_eq_add_of_le' (hone ▸ hleast)
      rcases hname with hname | hname <;> rw [hname] <;> rfl

/-- A call is never compiled to a constant. -/
theorem apply_ne_constant (callee : Callee) (args : List Term) (v : Value) :
    callee.apply args ≠ .constant v := by
  unfold apply
  split <;> simp

end Callee

/-! ### The first fault -/

section ErrorOf

variable {ε α β : Type}

/-- The error of a computation that fails. -/
def errorOf? : Except ε α → Option ε
  | .error e => some e
  | .ok _ => none

theorem errorOf?_eq_some_iff {x : Except ε α} {e : ε} : errorOf? x = some e ↔ x = .error e := by
  cases x <;> simp [errorOf?]

theorem errorOf?_eq_none_iff {x : Except ε α} : errorOf? x = none ↔ ∃ a, x = .ok a := by
  cases x <;> simp [errorOf?]

/-- The error of two computations is that of the first one, if it fails. -/
theorem errorOf?_bind {x : Except ε α} {f : α → Except ε β} {o : Option ε}
    (h : ∀ a, errorOf? (f a) = o) : errorOf? (x >>= f) = (errorOf? x).or o := by
  cases x with
  | error e => rfl
  | ok a => exact h a

/-- What is done with a result adds no error. -/
theorem errorOf?_bind_pure {x : Except ε α} {f : α → β} :
    errorOf? (x >>= fun a => pure (f a)) = errorOf? x := by
  cases x <;> rfl

end ErrorOf

namespace Scope

variable (s : Scope)

/-- The nodes that are not accepted, and the error of each. -/
inductive Rejects : Expr → Error → Prop where
  /-- No column is mapped from the property. -/
  | property {name : String} : s.model.columnOfField? name s.ignoreCase = none →
      Rejects (.property name) (.propertyNotFound name s.model.name s.model.columnNames)
  /-- No function has that name and takes as many arguments. -/
  | call {function : String} {args : List Expr} : ¬ Callee.IsKnown function args.length →
      Rejects (.call function args) (.unsupportedCall function args.length)

/-- The error of a node by itself. -/
def fault? : Expr → Option Error
  | .property name => errorOf? (s.column name)
  | .call function args =>
    if (Callee.ofName? (Text.lowerAscii function) args.length).isSome then none
    else some (.unsupportedCall function args.length)
  | _ => none

/-- The error of a node by itself is that with which it is rejected. -/
theorem fault?_eq_some_iff {e : Expr} {error : Error} :
    s.fault? e = some error ↔ s.Rejects e error := by
  constructor
  · intro h
    unfold fault? at h
    split at h
    · next name =>
      rw [errorOf?_eq_some_iff, column] at h
      split at h
      · simp at h
      · next hcolumn =>
        obtain rfl := Except.error.inj h
        exact .property hcolumn
    · next function args =>
      split at h
      · simp at h
      · next hcallee =>
        obtain rfl := Option.some.inj h
        exact .call fun hknown => hcallee (Callee.isSome_ofName?_iff.mpr hknown)
    · simp at h
  · rintro (hcolumn | hknown)
    · simp [fault?, column, hcolumn, errorOf?]
    · rw [fault?, if_neg fun h => hknown (Callee.isSome_ofName?_iff.mp h)]

open EntitySql.Expr (listNodes optionNodes branchNodes orderNodes)

mutual

/-- **The error of an expression is that of its first rejected node.** -/
theorem errorOf?_compile : ∀ e : Expr, errorOf? (s.compile e) = e.nodes.findSome? s.fault?
  | .property name => by simp [compile, Expr.nodes, fault?]
  | .constant _ | .arg | .listArg | .all => rfl
  | .binary op left right => by
    have hleft := errorOf?_compile left
    have hright := errorOf?_compile right
    rw [Expr.nodes, List.findSome?_cons_of_isNone rfl, List.findSome?_append, ← hleft, ← hright,
      compile]
    split
    · next hswap =>
      -- the operand that is overtaken is the absent value, which has no fault
      obtain rfl := Expr.eq_constant_of_isNull (e := left) (by simp_all [swapsNull])
      rw [errorOf?_bind fun _ => errorOf?_bind_pure]
      exact Option.or_none
    · exact errorOf?_bind fun _ => errorOf?_bind_pure
  | .unary op operand => by
    rw [compile, errorOf?_bind_pure, errorOf?_compile operand]
    rfl
  | .call function args => by
    rw [compile, Expr.nodes, List.findSome?_cons, fault?]
    split
    · next callee hcallee =>
      rw [errorOf?_bind_pure, errorOf?_compileList args, hcallee]
      rfl
    · next hcallee =>
      rw [hcallee]
      rfl
  | .case operand branches otherwise => by
    have hoperand := errorOf?_compileOption operand
    have hbranches := errorOf?_compileBranches branches
    have hotherwise := errorOf?_compileOption otherwise
    rw [Expr.nodes, List.findSome?_cons_of_isNone rfl, List.findSome?_append,
      List.findSome?_append, ← hoperand, ← hbranches, ← hotherwise, compile, Option.or_assoc]
    exact errorOf?_bind fun _ => errorOf?_bind fun _ => errorOf?_bind_pure
  | .cast operand target => by
    rw [compile, errorOf?_bind_pure, errorOf?_compile operand]
    rfl
  | .tuple items => by
    rw [compile, errorOf?_bind_pure, errorOf?_compileList items]
    rfl
  | .named operand name => by
    rw [compile, errorOf?_bind_pure, errorOf?_compile operand]
    rfl
  | .rowNumber partition order => by
    have hpartition := errorOf?_compileList partition
    have horder := errorOf?_compileOrder order
    rw [Expr.nodes, List.findSome?_cons_of_isNone rfl, List.findSome?_append, ← hpartition,
      ← horder, compile]
    exact errorOf?_bind fun _ => errorOf?_bind_pure

theorem errorOf?_compileList :
    ∀ es : List Expr, errorOf? (s.compileList es) = (listNodes es).findSome? s.fault?
  | [] => rfl
  | e :: es => by
    rw [listNodes, List.findSome?_append, ← errorOf?_compile e, ← errorOf?_compileList es,
      compileList]
    exact errorOf?_bind fun _ => errorOf?_bind_pure

theorem errorOf?_compileOption :
    ∀ o : Option Expr, errorOf? (s.compileOption o) = (optionNodes o).findSome? s.fault?
  | none => rfl
  | some e => by rw [compileOption, errorOf?_bind_pure, errorOf?_compile e, optionNodes]

theorem errorOf?_compileBranches :
    ∀ bs : List (Expr × Expr),
      errorOf? (s.compileBranches bs) = (branchNodes bs).findSome? s.fault?
  | [] => rfl
  | (condition, result) :: bs => by
    rw [branchNodes, List.findSome?_append, List.findSome?_append, ← errorOf?_compile condition,
      ← errorOf?_compile result, ← errorOf?_compileBranches bs, compileBranches, Option.or_assoc]
    exact errorOf?_bind fun _ => errorOf?_bind fun _ => errorOf?_bind_pure

theorem errorOf?_compileOrder :
    ∀ os : List (Expr × Bool), errorOf? (s.compileOrder os) = (orderNodes os).findSome? s.fault?
  | [] => rfl
  | (e, descending) :: os => by
    rw [orderNodes, List.findSome?_append, ← errorOf?_compile e, ← errorOf?_compileOrder os,
      compileOrder]
    exact errorOf?_bind fun _ => errorOf?_bind_pure

end

end Scope

/-! ### The columns and the comparisons of a term -/

namespace Term

mutual

/-- The columns of a term from left to right, each with the alias in front of it. -/
def columns : Term → List (Option String × String)
  | column qualifier name => [(qualifier, name)]
  | constant _ | argument _ | all _ | paging _ _ _ => []
  | operation left _ right => left.columns ++ right.columns
  | unary _ operand => operand.columns
  | call _ _ args => listColumns args
  | case operand branches otherwise =>
    optionColumns operand ++ branchColumns branches ++ optionColumns otherwise
  | cond condition yes no => condition.columns ++ yes.columns ++ no.columns
  | cast operand _ => operand.columns
  | tuple items => listColumns items
  | named operand _ => operand.columns
  | rowNumber partition order => listColumns partition ++ orderColumns order

/-- The columns of terms. -/
def listColumns : List Term → List (Option String × String)
  | [] => []
  | t :: ts => t.columns ++ listColumns ts

/-- The columns of an optional term. -/
def optionColumns : Option Term → List (Option String × String)
  | none => []
  | some t => t.columns

/-- The columns of branches, those of each condition in front of those of its result. -/
def branchColumns : List (Term × Term) → List (Option String × String)
  | [] => []
  | (condition, result) :: rest => condition.columns ++ result.columns ++ branchColumns rest

/-- The columns of order terms. -/
def orderColumns : List (Term × Bool) → List (Option String × String)
  | [] => []
  | (t, _) :: rest => t.columns ++ orderColumns rest

end

/-- The absent value is never compared by `=` or `<>`, and `IS` and `IS NOT` have it on the
right. -/
def ComparesNull : Term → Prop
  | operation left .equal right | operation left .notEqual right =>
    left ≠ constant .null ∧ right ≠ constant .null
  | operation _ .is right | operation _ .isNot right => right = constant .null
  | _ => True

end Term

namespace Callee

theorem columns_apply (callee : Callee) (args : List Term) :
    (callee.apply args).columns = Term.listColumns args := by
  unfold apply
  split <;> simp [Term.columns, Term.listColumns]

theorem comparesNull_apply (callee : Callee) (args : List Term) :
    (callee.apply args).ComparesNull := by
  unfold apply
  split <;> trivial

end Callee

namespace Scope

variable (s : Scope)

/-- The column of a property, with the alias that the scope asks for. -/
def resolved? : Expr → Option (Option String × String)
  | .property name =>
    (s.model.columnOfField? name s.ignoreCase).map fun c => (s.qualifier, c.name)
  | _ => none

variable {s}

/-- Only a constant compiles to one. -/
theorem respects_constant : s.Respects fun e t => ∀ v, t = .constant v → e = .constant v where
  property _ _ h := nomatch h
  constant _ _ h := by rw [Term.constant.inj h]
  arg _ h := nomatch h
  listArg _ h := nomatch h
  all _ h := nomatch h
  swapped _ _ _ h := nomatch h
  binary _ _ _ _ _ _ h := nomatch h
  unary _ _ _ h := nomatch h
  call _ callee _ v h := absurd h (callee.apply_ne_constant _ v)
  case _ _ _ _ h := nomatch h
  cast _ _ _ h := nomatch h
  tuple _ _ h := nomatch h
  named _ _ _ h := nomatch h
  rowNumber _ _ _ h := nomatch h

theorem ne_null_of_compile {e : Expr} {t : Term} (he : ¬ e.isNull = true)
    (h : s.compile e = .ok t) : t ≠ .constant .null := by
  rintro rfl
  obtain rfl := respects_constant.compile e h .null rfl
  exact he rfl

theorem eq_null_of_compile {e : Expr} {t : Term} (he : e.isNull = true)
    (h : s.compile e = .ok t) : t = .constant .null := by
  obtain rfl := Expr.eq_constant_of_isNull he
  exact (Except.ok.inj h).symm

/-- Comparisons with the absent value on the left change places. -/
theorem comparesNull_swapped {op : BinaryOp} (hop : op = .eq ∨ op = .ne) (r : Term) :
    Term.ComparesNull (.operation r (nullOperator op true) (.constant .null)) := by
  rcases hop with rfl | rfl <;> rfl

/-- Other operations keep the places of their operands. -/
theorem comparesNull_straight {op : BinaryOp} {left right : Expr} {l r : Term}
    (hswap : swapsNull op left = false) (hl : s.compile left = .ok l)
    (hr : s.compile right = .ok r) :
    Term.ComparesNull (.operation l (nullOperator op (left.isNull || right.isNull)) r) := by
  by_cases hop : op = .eq ∨ op = .ne
  · have hleft : left.isNull = false := by simp_all [swapsNull]
    have hl := ne_null_of_compile (by simp [hleft]) hl
    cases hright : right.isNull with
    | true =>
      have hr := eq_null_of_compile hright hr
      rcases hop with rfl | rfl <;> simpa [nullOperator, hleft, Term.ComparesNull] using hr
    | false =>
      have hr := ne_null_of_compile (by simp [hright]) hr
      rcases hop with rfl | rfl <;>
        simpa [nullOperator, hleft, BinaryOp.operator, Term.ComparesNull] using ⟨hl, hr⟩
  · cases op <;> simp_all [nullOperator, BinaryOp.operator, Term.ComparesNull]

open EntitySql.Expr (listNodes optionNodes branchNodes orderNodes)
open Term (ComparesNull listColumns optionColumns branchColumns orderColumns)

section Parts

theorem listColumns_eq {es : List Expr} {ts : List Term}
    (h : List.Forall₂ (fun e t => t.columns = e.nodes.filterMap s.resolved?) es ts) :
    listColumns ts = (listNodes es).filterMap s.resolved? := by
  induction h with
  | nil => rfl
  | cons ht _ ih => rw [listColumns, ht, ih, listNodes, List.filterMap_append]

theorem optionColumns_eq {o : Option Expr} {t : Option Term}
    (h : Option.Rel (fun e t => t.columns = e.nodes.filterMap s.resolved?) o t) :
    optionColumns t = (optionNodes o).filterMap s.resolved? := by
  cases h with
  | none => rfl
  | some ht => exact ht

theorem branchColumns_eq {bs : List (Expr × Expr)} {us : List (Term × Term)}
    (h : List.Forall₂ (fun b u => u.1.columns = b.1.nodes.filterMap s.resolved? ∧
      u.2.columns = b.2.nodes.filterMap s.resolved?) bs us) :
    branchColumns us = (branchNodes bs).filterMap s.resolved? := by
  induction h with
  | nil => rfl
  | cons hu _ ih =>
    rw [branchColumns, hu.1, hu.2, ih, branchNodes, List.filterMap_append, List.filterMap_append]

theorem orderColumns_eq {os : List (Expr × Bool)} {us : List (Term × Bool)}
    (h : List.Forall₂ (fun b u => u.1.columns = b.1.nodes.filterMap s.resolved? ∧ b.2 = u.2)
      os us) :
    orderColumns us = (orderNodes os).filterMap s.resolved? := by
  induction h with
  | nil => rfl
  | cons hu _ ih => rw [orderColumns, hu.1, ih, orderNodes, List.filterMap_append]

end Parts

/-- The columns of a node are those of its parts, in order. -/
theorem respects_columns : s.Respects fun e t => t.columns = e.nodes.filterMap s.resolved? where
  property hc := by simp [Expr.nodes, resolved?, hc, Term.columns]
  constant _ := rfl
  arg := rfl
  listArg := rfl
  all := rfl
  swapped _ hr := by
    -- the operand that is overtaken is the absent value, which has no column
    rw [Term.columns, hr]
    exact List.append_nil _
  binary _ _ _ hl hr := by
    rw [Expr.nodes, List.filterMap_cons_none rfl, List.filterMap_append, Term.columns, hl, hr]
  unary _ ho := ho
  call _ callee hargs := (callee.columns_apply _).trans (listColumns_eq hargs)
  case ho hbs he := by
    rw [Expr.nodes, List.filterMap_cons_none rfl, List.filterMap_append, List.filterMap_append,
      Term.columns, optionColumns_eq ho, branchColumns_eq hbs, optionColumns_eq he]
  cast _ ho := ho
  tuple hitems := listColumns_eq hitems
  named _ ho := ho
  rowNumber hpartition horder := by
    rw [Expr.nodes, List.filterMap_cons_none rfl, List.filterMap_append, Term.columns,
      listColumns_eq hpartition, orderColumns_eq horder]

/-- **The columns of a compiled expression are those of its properties**, in order and with the
alias that is asked for. -/
theorem columns_compile {e : Expr} {t : Term} (h : s.compile e = .ok t) :
    t.columns = e.nodes.filterMap s.resolved? :=
  respects_columns.compile e h

theorem respects_comparesNull : s.Respects fun _ t => t.Forall ComparesNull where
  property _ := .column trivial
  constant _ := .constant trivial
  arg := .argument trivial
  listArg := .argument trivial
  all := .all trivial
  swapped hop hr := .operation (comparesNull_swapped hop _) hr (.constant trivial)
  binary hswap hl hr ihl ihr := .operation (comparesNull_straight hswap hl hr) ihl ihr
  unary _ ho := .unary trivial ho
  call _ callee hargs :=
    callee.forall_apply_iff.mpr ⟨callee.comparesNull_apply _, forall_of_forall₂ hargs⟩
  case ho hbs he := .case trivial (forall_of_rel ho) (forall_of_forall₂ (hbs.imp fun _ _ h => h.1))
    (forall_of_forall₂ (hbs.imp fun _ _ h => h.2)) (forall_of_rel he)
  cast _ ho := .cast trivial ho
  tuple hitems := .tuple trivial (forall_of_forall₂ hitems)
  named _ ho := .named trivial ho
  rowNumber hpartition horder := .rowNumber trivial (forall_of_forall₂ hpartition)
    (forall_of_forall₂ (horder.imp fun _ _ h => h.1))

/-- **A compiled expression compares the absent value by `IS`**, which has it on the right. -/
theorem comparesNull_compile {e : Expr} {t : Term} (h : s.compile e = .ok t) :
    t.Forall ComparesNull :=
  respects_comparesNull.compile e h

/-! ### The outcome -/

theorem fault?_eq_none_iff {e : Expr} : s.fault? e = none ↔ ∀ error, ¬ s.Rejects e error := by
  rw [Option.eq_none_iff_forall_ne_some]
  exact forall_congr' fun error => not_congr s.fault?_eq_some_iff

/-- A property is accepted if a column is mapped from it, and a call if it is known. -/
theorem forall_not_rejects_iff {es : List Expr} :
    (∀ e ∈ es, ∀ error, ¬ s.Rejects e error) ↔
      (∀ name, .property name ∈ es →
        (s.model.columnOfField? name s.ignoreCase).isSome = true) ∧
      ∀ function args, .call function args ∈ es → Callee.IsKnown function args.length := by
  constructor
  · intro h
    refine ⟨fun name hname => ?_, fun function args hcall => ?_⟩
    · by_contra hnone
      exact h _ hname _ (.property (by simpa using hnone))
    · by_contra hunknown
      exact h _ hcall _ (.call hunknown)
  · rintro ⟨hproperties, hcalls⟩ e he error (hnone | hunknown)
    · simpa [hnone] using hproperties _ he
    · exact hunknown (hcalls _ _ he)

/-- **What compiles, what it compiles to, and the error of what does not.** An expression compiles
exactly if columns are mapped from all its properties and all its calls are known. Otherwise the
error is that of the first node that is rejected. The columns of a compiled expression are those of
its properties, and it compares the absent value by `IS`. -/
theorem compile_outcome (s : Scope) (e : Expr) :
    ((∃ t, s.compile e = .ok t) ↔
      (∀ name, .property name ∈ e.nodes →
        (s.model.columnOfField? name s.ignoreCase).isSome = true) ∧
      ∀ function args, .call function args ∈ e.nodes → Callee.IsKnown function args.length) ∧
    (∀ error, s.compile e = .error error ↔
      ∃ before node after, e.nodes = before ++ node :: after ∧ s.Rejects node error ∧
        ∀ n ∈ before, ∀ other, ¬ s.Rejects n other) ∧
    ∀ t, s.compile e = .ok t →
      t.columns = e.nodes.filterMap s.resolved? ∧ t.Forall Term.ComparesNull := by
  refine ⟨?_, fun error => ?_, fun t h => ⟨columns_compile h, comparesNull_compile h⟩⟩
  · rw [← forall_not_rejects_iff, ← errorOf?_eq_none_iff, s.errorOf?_compile,
      List.findSome?_eq_none_iff]
    exact forall_congr' fun n => imp_congr_right fun _ => fault?_eq_none_iff
  · rw [← errorOf?_eq_some_iff, s.errorOf?_compile, List.findSome?_eq_some_iff]
    simp only [s.fault?_eq_some_iff, fault?_eq_none_iff]

/-- A call with too many arguments is found before the unknown property inside it. -/
example : (⟨⟨"T", .table, [], [], []⟩, false, none⟩ : Scope).compile
    (.call "SUM" [.property "a", .arg]) = .error (.unsupportedCall "SUM" 2) := rfl

end Scope

end EntitySql
