import EntitySql.Proofs.Query.Clauses
import EntitySql.Proofs.Reading.Level
import Mathlib.Data.List.Induction

/-!
# The clauses that calls build

What each clause of a query consists of, said of the calls and not of the query: the expressions of
the calls of one kind in order, and of limit, offset and alias the last that was given. The
conditions of several calls are one condition, a conjunction that groups to the left.

Names and all columns belong to the selection. An expression without them compiles to a term that
may stand in every clause.

## Main definitions

* `Select.Call.column?`, `Select.Call.filter?` and the like: what a call gives to a clause
* `Expr.isOperand`, `Select.Call.IsPlaced`: expressions without names and all columns, and calls
  that have these only where they are selected
* `Expr.conjunction`, `Term.conjunction`: several conditions as one

## Main results

* `Select.ofCalls_eq`: the query that calls build
* `Scope.isOperand_compile`: an expression without parts of a query compiles to a term without
* `Scope.compileOption_conjunction`: the condition compiles to the conjunction of the conditions
-/

namespace EntitySql

/-! ### Expressions without parts of a query -/

namespace Expr

mutual

/-- Whether an expression has no names and no list of all columns in it. -/
def isOperand : Expr → Bool
  | property _ | constant _ | arg | listArg => true
  | binary _ left right => left.isOperand && right.isOperand
  | unary _ operand => operand.isOperand
  | call _ args => listIsOperand args
  | case operand branches otherwise =>
    optionIsOperand operand && branchesAreOperands branches && optionIsOperand otherwise
  | cast operand _ => operand.isOperand
  | tuple items => listIsOperand items
  | named _ _ | all => false
  | rowNumber partition order => listIsOperand partition && orderIsOperand order

/-- Whether none of the expressions has. -/
def listIsOperand : List Expr → Bool
  | [] => true
  | e :: es => e.isOperand && listIsOperand es

/-- Whether an optional expression has none. -/
def optionIsOperand : Option Expr → Bool
  | none => true
  | some e => e.isOperand

/-- Whether no branch has. -/
def branchesAreOperands : List (Expr × Expr) → Bool
  | [] => true
  | (condition, result) :: rest =>
    condition.isOperand && result.isOperand && branchesAreOperands rest

/-- Whether no order term has. -/
def orderIsOperand : List (Expr × Bool) → Bool
  | [] => true
  | (e, _) :: rest => e.isOperand && orderIsOperand rest

end

theorem listIsOperand_iff {es : List Expr} :
    listIsOperand es = true ↔ ∀ e ∈ es, e.isOperand = true := by
  induction es with
  | nil => simp [listIsOperand]
  | cons e es ih => simp [listIsOperand, ih]

theorem optionIsOperand_iff {o : Option Expr} :
    optionIsOperand o = true ↔ ∀ e ∈ o, e.isOperand = true := by
  cases o <;> simp [optionIsOperand]

theorem branchesAreOperands_iff {bs : List (Expr × Expr)} : branchesAreOperands bs = true ↔
    (∀ b ∈ bs, b.1.isOperand = true) ∧ ∀ b ∈ bs, b.2.isOperand = true := by
  rw [← forall₂_and]
  induction bs with
  | nil => simp [branchesAreOperands]
  | cons b bs ih => simp [branchesAreOperands, ih]

theorem orderIsOperand_iff {os : List (Expr × Bool)} :
    orderIsOperand os = true ↔ ∀ b ∈ os, b.1.isOperand = true := by
  induction os with
  | nil => simp [orderIsOperand]
  | cons b os ih => simp [orderIsOperand, ih]

end Expr

namespace Scope

open EntitySql.Expr (listIsOperand_iff optionIsOperand_iff branchesAreOperands_iff
  orderIsOperand_iff)

/-- What a name stands for is no part of a query. -/
theorem isOperandNode_apply (callee : Callee) (args : List Term) :
    (callee.apply args).isOperandNode = true := by
  unfold Callee.apply
  split <;> rfl

/-- A node has no part of a query if its parts have none, and it is none itself. -/
theorem respects_isOperand (s : Scope) :
    s.Respects fun e t => e.isOperand = true → t.IsOperand where
  property _ _ := .column rfl
  constant _ _ := .constant rfl
  arg _ := .argument rfl
  listArg _ := .argument rfl
  all he := nomatch he
  swapped _ hr he := .operation rfl (hr (Bool.and_eq_true_iff.mp he).2) (.constant rfl)
  binary _ _ _ hl hr he := by
    obtain ⟨hleft, hright⟩ := Bool.and_eq_true_iff.mp he
    exact .operation rfl (hl hleft) (hr hright)
  unary _ ho he := .unary rfl (ho he)
  call _ callee hargs he := callee.forall_apply_iff.mpr
    ⟨isOperandNode_apply callee _, forall_of_forall₂_imp hargs (listIsOperand_iff.mp he)⟩
  case ho hbs he hcase := by
    obtain ⟨hcase, hotherwise⟩ := Bool.and_eq_true_iff.mp hcase
    obtain ⟨hoperand, hbranches⟩ := Bool.and_eq_true_iff.mp hcase
    obtain ⟨hconditions, hresults⟩ := branchesAreOperands_iff.mp hbranches
    exact .case rfl (forall_of_rel_imp ho (optionIsOperand_iff.mp hoperand))
      (forall_of_forall₂_imp (hbs.imp fun _ _ h => h.1) hconditions)
      (forall_of_forall₂_imp (hbs.imp fun _ _ h => h.2) hresults)
      (forall_of_rel_imp he (optionIsOperand_iff.mp hotherwise))
  cast _ ho he := .cast rfl (ho he)
  tuple hitems he := .tuple rfl (forall_of_forall₂_imp hitems (listIsOperand_iff.mp he))
  named _ _ he := nomatch he
  rowNumber hpartition horder he := by
    obtain ⟨hp, ho⟩ := Bool.and_eq_true_iff.mp he
    exact .rowNumber rfl (forall_of_forall₂_imp hpartition (listIsOperand_iff.mp hp))
      (forall_of_forall₂_imp (horder.imp fun _ _ h => h.1) (orderIsOperand_iff.mp ho))

/-- **An expression without parts of a query compiles to a term without.** -/
theorem isOperand_compile (s : Scope) (e : Expr) {t : Term} (he : e.isOperand = true)
    (h : s.compile e = .ok t) : t.IsOperand :=
  (respects_isOperand s).compile e h he

end Scope

/-! ### Conjunctions -/

/-- Conditions that must all hold, grouped to the left; none if there are none. -/
def Expr.conjunction : List Expr → Option Expr
  | [] => none
  | e :: es => some (es.foldl (.binary .and) e)

/-- Conditions that must all hold, grouped to the left; none if there are none. -/
def Term.conjunction : List Term → Option Term
  | [] => none
  | t :: ts => some (ts.foldl (fun l r => .operation l .and r) t)

theorem Term.isOperand_conjunction {ts : List Term} (h : ∀ t ∈ ts, t.IsOperand) :
    ∀ t ∈ conjunction ts, t.IsOperand := by
  cases ts with
  | nil => simp [conjunction]
  | cons u us =>
    obtain ⟨hu, hus⟩ := List.forall_mem_cons.mp h
    have hall : (us.foldl (fun l r => .operation l .and r) u).IsOperand := by
      clear h
      induction us generalizing u with
      | nil => exact hu
      | cons v us ih =>
        obtain ⟨hv, hus⟩ := List.forall_mem_cons.mp hus
        exact ih (.operation u .and v) (.operation rfl hu hv) hus
    rintro t ⟨⟩
    exact hall

theorem Expr.conjunction_concat (es : List Expr) (e : Expr) :
    conjunction (es ++ [e]) = some (match conjunction es with
      | some earlier => .binary .and earlier e
      | none => e) := by
  cases es <;> simp [conjunction]

namespace Scope

theorem compile_and (s : Scope) (left right : Expr) :
    s.compile (.binary .and left right) = (do
      let l ← s.compile left
      let r ← s.compile right
      return .operation l .and r) := by
  have hswap : swapsNull .and left = false := by simp [swapsNull]
  rw [compile, hswap]
  rfl

/-- Conditions one behind the other compile to the conjunction of the compiled ones. -/
theorem compile_foldl_and (s : Scope) {e : Expr} {es : List Expr} {t : Term}
    (h : s.compile (es.foldl (.binary .and) e) = .ok t) :
    ∃ u us, s.compile e = .ok u ∧ s.compileList es = .ok us ∧
      t = us.foldl (fun l r => .operation l .and r) u := by
  induction es generalizing e with
  | nil => exact ⟨t, [], h, rfl, rfl⟩
  | cons f es ih =>
    obtain ⟨w, us, hw, hus, rfl⟩ := ih h
    rw [compile_and] at hw
    obtain ⟨u, hu, hw⟩ := exists_of_bind_eq_ok hw
    obtain ⟨v, hv, hw⟩ := exists_of_bind_eq_ok hw
    obtain rfl := Except.ok.inj hw
    refine ⟨u, v :: us, hu, ?_, rfl⟩
    rw [compileList, hv, hus]
    rfl

/-- **The condition of a query compiles to the conjunction of its conditions.** -/
theorem compileOption_conjunction (s : Scope) {es : List Expr} {o : Option Term}
    (h : s.compileOption (Expr.conjunction es) = .ok o) :
    ∃ ts, s.compileList es = .ok ts ∧ o = Term.conjunction ts := by
  cases es with
  | nil => exact ⟨[], rfl, (Except.ok.inj h).symm⟩
  | cons e es =>
    rw [Expr.conjunction, compileOption] at h
    obtain ⟨t, ht, h⟩ := exists_of_bind_eq_ok h
    obtain ⟨u, us, hu, hus, rfl⟩ := compile_foldl_and s ht
    refine ⟨u :: us, ?_, (Except.ok.inj h).symm⟩
    rw [compileList, hu, hus]
    rfl

end Scope

/-! ### The query that calls build -/

namespace Select

namespace Call

/-- The expression that a call selects. -/
def column? : Call → Option Expr
  | column e => some e
  | _ => none

/-- The condition that a call adds. -/
def filter? : Call → Option Expr
  | filter e => some e
  | _ => none

/-- The term to group by that a call adds. -/
def group? : Call → Option Expr
  | groupBy e => some e
  | _ => none

/-- The term to order by that a call adds, with its direction. -/
def order? : Call → Option (Expr × Bool)
  | orderBy e descending => some (e, descending)
  | _ => none

/-- The alias that a call gives. -/
def qualifier? : Call → Option String
  | qualify name => some name
  | _ => none

/-- How properties are found after a call. -/
def ignoresCase? : Call → Option Bool
  | ignoreCase enabled => some enabled
  | _ => none

/-- The greatest number of rows that a call gives. -/
def limit? : Call → Option UInt64
  | take n => some n
  | _ => none

/-- The number of rows skipped that a call gives. -/
def offset? : Call → Option UInt64
  | skip n => some n
  | _ => none

/-- A call has names and all columns only where they are selected. -/
def IsPlaced : Call → Prop
  | column (.named e _) => e.isOperand = true
  | column .all => True
  | column e | filter e | groupBy e | orderBy e _ => e.isOperand = true
  | _ => True

end Call

/-- The last of what some calls give. -/
def lastOf {α : Type} (give : Call → Option α) (calls : List Call) : Option α :=
  (calls.filterMap give).getLast?

/-- The scope of the query that calls build. -/
def scopeOf (m : Model) (ignoreCase : Bool) (calls : List Call) : Scope :=
  ⟨m, (lastOf Call.ignoresCase? calls).getD ignoreCase, lastOf Call.qualifier? calls⟩

/-- **The query that calls build.** -/
theorem ofCalls_eq (m : Model) (enabled : Bool) (calls : List Call) :
    ofCalls m enabled calls =
      { scope := scopeOf m enabled calls
        columns := calls.filterMap Call.column?
        condition := Expr.conjunction (calls.filterMap Call.filter?)
        groups := calls.filterMap Call.group?
        order := calls.filterMap Call.order?
        limit := lastOf Call.limit? calls
        offset := lastOf Call.offset? calls } := by
  induction calls using List.reverseRecOn with
  | nil => rfl
  | append_singleton calls c ih =>
    have hstep : ofCalls m enabled (calls ++ [c]) = (ofCalls m enabled calls).apply c := by
      simp [ofCalls]
    rw [hstep, ih]
    cases c with
    | filter e =>
      have hconcat := Expr.conjunction_concat (calls.filterMap Call.filter?) e
      simp only [apply, filter, List.filterMap_append, List.filterMap_cons, List.filterMap_nil,
        List.append_nil, scopeOf, lastOf, Call.column?, Call.filter?, Call.group?, Call.order?,
        Call.qualifier?, Call.ignoresCase?, Call.limit?, Call.offset?]
      exact hconcat ▸ rfl
    | _ =>
      simp [apply, qualify, ignoreCase, column, groupBy, orderBy, take, skip, scopeOf, lastOf,
        List.filterMap_cons, Call.column?, Call.filter?, Call.group?, Call.order?,
        Call.qualifier?, Call.ignoresCase?, Call.limit?, Call.offset?]

end Select

end EntitySql
