import EntitySql.Proofs.Query.Compiling

/-!
# The leaves of an expression

The leaves of an expression are its constants and its slots, from left to right. They say what a
call of the compiled expression binds: each constant its value, each slot the next argument, and a
list all its values. The absent value is no leaf, because it is written and not bound.

Compiling and writing keep the leaves: the fragments of the compiled expression have the same ones
in the same order. The one place where operands change places is a comparison with the absent value,
which has no leaves to be overtaken.

## Main definitions

* `Leaf`, `Expr.leaves`, `Fragment.leaves`: what is bound, in expressions and in fragments
* `Leaf.fits`, `Leaf.bind`: whether arguments fit leaves, and the values that are bound then

## Main results

* `Term.leaves_fragments`: the fragments of a term have the leaves of the term
* `Scope.leaves_compile`: the term of an expression has the leaves of the expression
-/

namespace EntitySql

/-- What a call binds. -/
inductive Leaf where
  /-- The value of a constant. -/
  | constant (v : Value)
  /-- One argument. -/
  | arg
  /-- The values of one argument. -/
  | listArg
deriving DecidableEq, Inhabited, Repr

namespace Leaf

/-- Whether a leaf takes an argument. -/
def isSlot : Leaf → Bool
  | constant _ => false
  | arg | listArg => true

/-- The number of arguments that leaves take. -/
def slotCount (ls : List Leaf) : Nat := (ls.filter isSlot).length

/-- The leaf of a captured value, none for the absent one. -/
def ofValue (v : Value) : List Leaf := if v.isNull then [] else [constant v]

/-- Whether the arguments are as many as the leaves take, and each is of the shape that its leaf
takes. -/
def fits : List Leaf → List Argument → Bool
  | [], args => args.isEmpty
  | constant _ :: ls, args => fits ls args
  | arg :: ls, .value _ :: args => fits ls args
  | listArg :: ls, .list _ :: args => fits ls args
  | _ :: _, _ => false

/-- The values that leaves bind, given arguments that fit. -/
def bind : List Leaf → List Argument → List Value
  | [], _ => []
  | constant v :: ls, args => v :: bind ls args
  | arg :: ls, .value v :: args => v :: bind ls args
  | listArg :: ls, .list vs :: args => vs ++ bind ls args
  | _ :: ls, args => bind ls args.tail

end Leaf

namespace Expr

mutual

/-- The leaves of an expression, from left to right. -/
def leaves : Expr → List Leaf
  | property _ | all => []
  | constant v => Leaf.ofValue v
  | arg => [.arg]
  | listArg => [.listArg]
  | binary _ left right => left.leaves ++ right.leaves
  | unary _ operand => operand.leaves
  | call _ args => listLeaves args
  | case operand branches otherwise =>
    optionLeaves operand ++ branchLeaves branches ++ optionLeaves otherwise
  | cast operand _ => operand.leaves
  | tuple items => listLeaves items
  | named operand _ => operand.leaves
  | rowNumber partition order => listLeaves partition ++ orderLeaves order

/-- The leaves of expressions. -/
def listLeaves : List Expr → List Leaf
  | [] => []
  | e :: es => e.leaves ++ listLeaves es

/-- The leaves of an optional expression. -/
def optionLeaves : Option Expr → List Leaf
  | none => []
  | some e => e.leaves

/-- The leaves of branches, each condition before its result. -/
def branchLeaves : List (Expr × Expr) → List Leaf
  | [] => []
  | (condition, result) :: rest => condition.leaves ++ result.leaves ++ branchLeaves rest

/-- The leaves of order terms. -/
def orderLeaves : List (Expr × Bool) → List Leaf
  | [] => []
  | (e, _) :: rest => e.leaves ++ orderLeaves rest

end

end Expr

namespace Fragment

/-- The leaf of a fragment. -/
def leaf : Fragment → List Leaf
  | text _ => []
  | captured v => Leaf.ofValue v
  | slot => [.arg]
  | listSlot => [.listArg]

/-- The leaves of fragments. -/
def leaves (fs : List Fragment) : List Leaf := fs.flatMap leaf

@[simp] theorem leaves_nil : leaves [] = [] := rfl

@[simp] theorem leaves_cons (f : Fragment) (fs : List Fragment) :
    leaves (f :: fs) = f.leaf ++ leaves fs := rfl

@[simp] theorem leaves_append (fs gs : List Fragment) :
    leaves (fs ++ gs) = leaves fs ++ leaves gs :=
  List.flatMap_append

@[simp] theorem leaf_text (sql : String) : leaf (text sql) = [] := rfl

theorem reads_leaf : Reads leaf where
  empty := rfl
  append _ _ := rfl
  null := rfl

/-- The normal form has the same leaves. -/
theorem leaves_normalize (fs : List Fragment) : leaves (normalize fs) = leaves fs :=
  reads_leaf.normalize fs

theorem leaves_wrapIf (wanted : Bool) (fs : List Fragment) :
    leaves (Term.wrapIf wanted fs) = leaves fs := by
  cases wanted <;> simp [Term.wrapIf]

end Fragment

/-! ### Compiling -/

namespace Scope

open Fragment (leaves)

theorem leaves_listFragments_cons (d : Dialect) (t : Term) (ts : List Term) :
    leaves (Term.listFragments d (t :: ts)) =
      leaves (t.fragments d) ++ leaves (Term.listFragments d ts) := by
  cases ts <;> simp [Term.listFragments]

section Parts

variable {d : Dialect}

theorem leaves_listFragments {es : List Expr} {ts : List Term}
    (h : List.Forall₂ (fun e t => leaves (t.fragments d) = e.leaves) es ts) :
    leaves (Term.listFragments d ts) = Expr.listLeaves es := by
  induction h with
  | nil => rfl
  | cons ht _ ih => rw [leaves_listFragments_cons, ht, ih, Expr.listLeaves]

theorem leaves_optionFragments {keyword : String} {o : Option Expr} {t : Option Term}
    (h : Option.Rel (fun e t => leaves (t.fragments d) = e.leaves) o t) :
    leaves (Term.optionFragments d keyword t) = Expr.optionLeaves o := by
  cases h with
  | none => rfl
  | some ht => simp [Term.optionFragments, ht, Expr.optionLeaves]

theorem leaves_branchFragments {bs : List (Expr × Expr)} {us : List (Term × Term)}
    (h : List.Forall₂ (fun b u => leaves (u.1.fragments d) = b.1.leaves ∧
      leaves (u.2.fragments d) = b.2.leaves) bs us) :
    leaves (Term.branchFragments d us) = Expr.branchLeaves bs := by
  induction h with
  | nil => rfl
  | cons hu _ ih => simp [Term.branchFragments, hu.1, hu.2, ih, Expr.branchLeaves]

theorem leaves_orderFragments {os : List (Expr × Bool)} {us : List (Term × Bool)}
    (h : List.Forall₂ (fun b u => leaves (u.1.fragments d) = b.1.leaves ∧ b.2 = u.2) os us) :
    leaves (Term.orderFragments d us) = Expr.orderLeaves os := by
  induction h with
  | nil => rfl
  | @cons b u os us hu _ ih =>
    have hmark : leaves (Term.orderMark u.2) = [] := by cases u.2 <;> rfl
    rw [Expr.orderLeaves, ← hu.1, ← ih]
    cases us <;> simp [Term.orderFragments, hmark]

end Parts

/-- What a name stands for writes its arguments in order. -/
theorem leaves_apply (d : Dialect) (callee : Callee) (args : List Term) :
    leaves ((callee.apply args).fragments d) = leaves (Term.listFragments d args) := by
  unfold Callee.apply
  split
  · simp [Term.fragments, Term.listFragments]
  · simp [Term.fragments, Term.listFragments, Fragment.leaves_wrapIf]
  · cases args <;> simp [Term.fragments, Term.listFragments]
  · simp [Term.fragments]

/-- A term has the leaves of its expression as soon as the terms of the parts have those of the
parts. -/
theorem respects_leaves (s : Scope) (d : Dialect) :
    s.Respects fun e t => leaves (t.fragments d) = e.leaves where
  property _ := rfl
  constant v := by simp [Term.fragments, Fragment.leaf, Expr.leaves]
  arg := rfl
  listArg := rfl
  all := rfl
  swapped _ hr := by
    simp [Term.fragments, Fragment.leaves_wrapIf, hr, Expr.leaves, Fragment.leaf, Leaf.ofValue,
      Value.isNull]
  binary _ _ _ hl hr := by simp [Term.fragments, Fragment.leaves_wrapIf, hl, hr, Expr.leaves]
  unary _ ho := by simp [Term.fragments, Fragment.leaves_wrapIf, ho, Expr.leaves]
  call _ callee hargs := by
    rw [leaves_apply, leaves_listFragments hargs, Expr.leaves]
  case ho hbs he := by
    simp [Term.fragments, leaves_optionFragments ho, leaves_branchFragments hbs,
      leaves_optionFragments he, Expr.leaves]
  cast _ ho := by simp [Term.fragments, ho, Expr.leaves]
  tuple hitems := by simp [Term.fragments, leaves_listFragments hitems, Expr.leaves]
  named _ ho := by simp [Term.fragments, ho, Expr.leaves]
  rowNumber hpartition horder := by
    rw [Expr.leaves, ← leaves_listFragments hpartition, ← leaves_orderFragments horder]
    cases hpartition <;> cases horder <;>
      simp [Term.fragments, Term.listFragments, Term.orderFragments]

/-- **The term of an expression has the leaves of the expression.** -/
theorem leaves_compile (s : Scope) (d : Dialect) (e : Expr) {t : Term} (h : s.compile e = .ok t) :
    leaves (t.fragments d) = e.leaves :=
  (respects_leaves s d).compile e h

theorem leaves_compileList (s : Scope) (d : Dialect) (es : List Expr) {ts : List Term}
    (h : s.compileList es = .ok ts) : leaves (Term.listFragments d ts) = Expr.listLeaves es :=
  leaves_listFragments ((respects_leaves s d).compileList es h)

theorem leaves_compileOption (s : Scope) (d : Dialect) {keyword : String} (o : Option Expr)
    {t : Option Term} (h : s.compileOption o = .ok t) :
    leaves (Term.optionFragments d keyword t) = Expr.optionLeaves o :=
  leaves_optionFragments ((respects_leaves s d).compileOption o h)

theorem leaves_compileOrder (s : Scope) (d : Dialect) (os : List (Expr × Bool))
    {ts : List (Term × Bool)} (h : s.compileOrder os = .ok ts) :
    leaves (Term.orderFragments d ts) = Expr.orderLeaves os :=
  leaves_orderFragments ((respects_leaves s d).compileOrder os h)

end Scope

end EntitySql
