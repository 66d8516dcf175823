import EntitySql.Proofs.Names
import EntitySql.Proofs.Outcome
import EntitySql.Proofs.Reading.Term
import EntitySql.Query.Scope

/-!
# Induction over compiling

An expression is compiled node by node, and each node becomes one term around the terms of its
parts. A relation between expressions and terms that holds of a node and its term as soon as it
holds of their parts is respected by compiling: it holds of every expression and what it compiles
to.

The parts stand in lists, in options and in branches, where induction over expressions does not
reach. `Scope.Respects` says what there is to show, one field for each kind of node, and the
induction itself is done once.

## Main definitions

* `Scope.Respects`: a relation that passes from the parts of a node to the node

## Main results

* `Callee.forall_apply_iff`: a call is compiled to one node around its arguments
* `Scope.forall₂_compileList`: expressions compile one by one
* `Scope.Respects.compile`: such a relation holds of an expression and what it compiles to
-/

namespace EntitySql

theorem Expr.eq_constant_of_isNull {e : Expr} (h : e.isNull = true) : e = .constant .null := by
  cases e with
  | constant v => cases v <;> simp_all [isNull]
  | _ => simp [isNull] at h

/-- A call is compiled to one node around its arguments. -/
theorem Callee.forall_apply_iff {P : Term → Prop} (callee : Callee) {args : List Term} :
    (callee.apply args).Forall P ↔ P (callee.apply args) ∧ ∀ t ∈ args, t.Forall P := by
  refine ⟨fun h => ⟨h.here, ?_⟩, fun ⟨hnode, hargs⟩ => ?_⟩
  · unfold apply at h
    split at h
    · cases h with
      | cond _ hc hy hn => simpa using ⟨hc, hy, hn⟩
    · cases h with
      | operation _ hl hr => simpa using ⟨hl, hr⟩
    · cases h with
      | call _ hargs => exact hargs
    · cases h with
      | tuple _ hitems => exact hitems
  · unfold apply at hnode ⊢
    split at hnode
    · exact .cond hnode (hargs _ (by simp)) (hargs _ (by simp)) (hargs _ (by simp))
    · exact .operation hnode (hargs _ (by simp)) (hargs _ (by simp))
    · exact .call hnode hargs
    · exact .tuple hnode hargs

namespace Scope

variable {s : Scope} {R : Expr → Term → Prop}

/-- What changes places is the absent value, in a comparison for equality. -/
theorem swapsNull_iff {op : BinaryOp} {left : Expr} :
    swapsNull op left = true ↔ (op = .eq ∨ op = .ne) ∧ left = .constant .null := by
  constructor
  · intro h
    obtain ⟨hop, hleft⟩ := Bool.and_eq_true_iff.mp h
    exact ⟨by simpa using hop, Expr.eq_constant_of_isNull hleft⟩
  · rintro ⟨rfl | rfl, rfl⟩ <;> rfl

/-! ### Lists of expressions and terms -/

section Parts

variable {α β : Type} {P : α → Prop} {Q : β → Prop} {xs : List α} {ys : List β} {o : Option α}
  {r : Option β}

/-- If all expressions have a property, and each passes one to its term, all terms have that. -/
theorem forall_of_forall₂_imp (h : List.Forall₂ (fun a b => P a → Q b) xs ys)
    (hP : ∀ a ∈ xs, P a) : ∀ b ∈ ys, Q b := by
  intro b hb
  obtain ⟨a, ha, himp⟩ := Text.exists_mem_of_forall₂ h hb
  exact himp (hP a ha)

theorem forall_of_rel_imp (h : Option.Rel (fun a b => P a → Q b) o r) (hP : ∀ a ∈ o, P a) :
    ∀ b ∈ r, Q b := by
  cases h with
  | none => simp
  | some himp =>
    rintro b ⟨⟩
    exact himp (hP _ rfl)

theorem forall_of_forall₂ (h : List.Forall₂ (fun _ b => Q b) xs ys) : ∀ b ∈ ys, Q b :=
  forall_of_forall₂_imp (P := fun _ => True) (h.imp fun _ _ hQ _ => hQ) fun _ _ => trivial

theorem forall_of_rel (h : Option.Rel (fun _ b => Q b) o r) : ∀ b ∈ r, Q b := by
  cases h with
  | none => simp
  | some hQ =>
    rintro b ⟨⟩
    exact hQ

end Parts

/-- Expressions compile one by one. -/
theorem forall₂_compileList {es : List Expr} {ts : List Term} (h : s.compileList es = .ok ts) :
    List.Forall₂ (fun e t => s.compile e = .ok t) es ts := by
  induction es generalizing ts with
  | nil =>
    obtain rfl := Except.ok.inj h
    exact .nil
  | cons e es ih =>
    rw [compileList] at h
    obtain ⟨t, ht, h⟩ := exists_of_bind_eq_ok h
    obtain ⟨rest, hrest, h⟩ := exists_of_bind_eq_ok h
    obtain rfl := Except.ok.inj h
    exact .cons ht (ih hrest)

/-- Order terms compile one by one, and keep their directions. -/
theorem forall₂_compileOrder {os : List (Expr × Bool)} {ts : List (Term × Bool)}
    (h : s.compileOrder os = .ok ts) :
    List.Forall₂ (fun b u => s.compile b.1 = .ok u.1 ∧ b.2 = u.2) os ts := by
  induction os generalizing ts with
  | nil =>
    obtain rfl := Except.ok.inj h
    exact .nil
  | cons b os ih =>
    rw [compileOrder] at h
    obtain ⟨t, ht, h⟩ := exists_of_bind_eq_ok h
    obtain ⟨rest, hrest, h⟩ := exists_of_bind_eq_ok h
    obtain rfl := Except.ok.inj h
    exact .cons ⟨ht, rfl⟩ (ih hrest)

/-! ### Relations that compiling respects -/

/-- A relation between expressions and terms that holds of a node and its term as soon as it holds
of their parts. -/
structure Respects (s : Scope) (R : Expr → Term → Prop) : Prop where
  property {name : String} {c : Column} :
    s.model.columnOfField? name s.ignoreCase = some c →
    R (.property name) (.column s.qualifier c.name)
  constant (v : Value) : R (.constant v) (.constant v)
  arg : R .arg (.argument false)
  listArg : R .listArg (.argument true)
  all : R .all (.all s.qualifier)
  /-- The absent value on the left of a comparison changes places with the other operand. -/
  swapped {op : BinaryOp} {right : Expr} {r : Term} :
    op = .eq ∨ op = .ne → R right r →
    R (.binary op (.constant .null) right) (.operation r (nullOperator op true) (.constant .null))
  /-- Otherwise the operands keep their places. -/
  binary {op : BinaryOp} {left right : Expr} {l r : Term} :
    swapsNull op left = false → s.compile left = .ok l → s.compile right = .ok r →
    R left l → R right r →
    R (.binary op left right) (.operation l (nullOperator op (left.isNull || right.isNull)) r)
  unary {operand : Expr} {o : Term} (op : UnaryOp) :
    R operand o → R (.unary op operand) (.unary op.operator o)
  call {args : List Expr} {ts : List Term} (function : String) (callee : Callee) :
    List.Forall₂ R args ts → R (.call function args) (callee.apply ts)
  case {operand otherwise : Option Expr} {branches : List (Expr × Expr)} {o e : Option Term}
    {bs : List (Term × Term)} :
    Option.Rel R operand o → List.Forall₂ (fun b u => R b.1 u.1 ∧ R b.2 u.2) branches bs →
    Option.Rel R otherwise e → R (.case operand branches otherwise) (.case o bs e)
  cast {operand : Expr} {o : Term} (target : ColumnType) :
    R operand o → R (.cast operand target) (.cast o target)
  tuple {items : List Expr} {ts : List Term} :
    List.Forall₂ R items ts → R (.tuple items) (.tuple ts)
  named {operand : Expr} {o : Term} (name : String) :
    R operand o → R (.named operand name) (.named o name)
  rowNumber {partition : List Expr} {order : List (Expr × Bool)} {ps : List Term}
    {os : List (Term × Bool)} :
    List.Forall₂ R partition ps → List.Forall₂ (fun b u => R b.1 u.1 ∧ b.2 = u.2) order os →
    R (.rowNumber partition order) (.rowNumber ps os)

namespace Respects

mutual

/-- **A relation that is respected holds of an expression and what it compiles to.** -/
theorem compile (hR : s.Respects R) : ∀ (e : Expr) {t : Term}, s.compile e = .ok t → R e t
  | .property name, t, h => by
    rw [Scope.compile, column] at h
    split at h
    · next c hc =>
      obtain rfl := Except.ok.inj h
      exact hR.property hc
    · cases h
  | .constant v, t, h => by
    obtain rfl := Except.ok.inj h
    exact hR.constant v
  | .arg, t, h => by
    obtain rfl := Except.ok.inj h
    exact hR.arg
  | .listArg, t, h => by
    obtain rfl := Except.ok.inj h
    exact hR.listArg
  | .binary op left right, t, h => by
    rw [Scope.compile] at h
    split at h
    · next hswap =>
      obtain ⟨r, hr, h⟩ := exists_of_bind_eq_ok h
      obtain ⟨l, hl, h⟩ := exists_of_bind_eq_ok h
      obtain rfl := Except.ok.inj h
      obtain ⟨hop, rfl⟩ := swapsNull_iff.mp hswap
      obtain rfl := Except.ok.inj hl
      exact hR.swapped hop (hR.compile right hr)
    · next hswap =>
      obtain ⟨l, hl, h⟩ := exists_of_bind_eq_ok h
      obtain ⟨r, hr, h⟩ := exists_of_bind_eq_ok h
      obtain rfl := Except.ok.inj h
      exact hR.binary (by simpa using hswap) hl hr (hR.compile left hl) (hR.compile right hr)
  | .unary op operand, t, h => by
    rw [Scope.compile] at h
    obtain ⟨o, ho, h⟩ := exists_of_bind_eq_ok h
    obtain rfl := Except.ok.inj h
    exact hR.unary op (hR.compile operand ho)
  | .call function args, t, h => by
    rw [Scope.compile] at h
    split at h
    · next callee _ =>
      obtain ⟨ts, hts, h⟩ := exists_of_bind_eq_ok h
      obtain rfl := Except.ok.inj h
      exact hR.call function callee (hR.compileList args hts)
    · cases h
  | .case operand branches otherwise, t, h => by
    rw [Scope.compile] at h
    obtain ⟨o, ho, h⟩ := exists_of_bind_eq_ok h
    obtain ⟨bs, hbs, h⟩ := exists_of_bind_eq_ok h
    obtain ⟨e, he, h⟩ := exists_of_bind_eq_ok h
    obtain rfl := Except.ok.inj h
    exact hR.case (hR.compileOption operand ho) (hR.compileBranches branches hbs)
      (hR.compileOption otherwise he)
  | .cast operand target, t, h => by
    rw [Scope.compile] at h
    obtain ⟨o, ho, h⟩ := exists_of_bind_eq_ok h
    obtain rfl := Except.ok.inj h
    exact hR.cast target (hR.compile operand ho)
  | .tuple items, t, h => by
    rw [Scope.compile] at h
    obtain ⟨ts, hts, h⟩ := exists_of_bind_eq_ok h
    obtain rfl := Except.ok.inj h
    exact hR.tuple (hR.compileList items hts)
  | .named operand name, t, h => by
    rw [Scope.compile] at h
    obtain ⟨o, ho, h⟩ := exists_of_bind_eq_ok h
    obtain rfl := Except.ok.inj h
    exact hR.named name (hR.compile operand ho)
  | .all, t, h => by
    obtain rfl := Except.ok.inj h
    exact hR.all
  | .rowNumber partition order, t, h => by
    rw [Scope.compile] at h
    obtain ⟨p, hp, h⟩ := exists_of_bind_eq_ok h
    obtain ⟨o, ho, h⟩ := exists_of_bind_eq_ok h
    obtain rfl := Except.ok.inj h
    exact hR.rowNumber (hR.compileList partition hp) (hR.compileOrder order ho)

theorem compileList (hR : s.Respects R) : ∀ (es : List Expr) {ts : List Term},
    s.compileList es = .ok ts → List.Forall₂ R es ts
  | [], ts, h => by
    obtain rfl := Except.ok.inj h
    exact .nil
  | e :: es, ts, h => by
    rw [Scope.compileList] at h
    obtain ⟨t, ht, h⟩ := exists_of_bind_eq_ok h
    obtain ⟨rest, hrest, h⟩ := exists_of_bind_eq_ok h
    obtain rfl := Except.ok.inj h
    exact .cons (hR.compile e ht) (hR.compileList es hrest)

theorem compileOption (hR : s.Respects R) : ∀ (o : Option Expr) {r : Option Term},
    s.compileOption o = .ok r → Option.Rel R o r
  | none, r, h => by
    obtain rfl := Except.ok.inj h
    exact .none
  | some e, r, h => by
    rw [Scope.compileOption] at h
    obtain ⟨t, ht, h⟩ := exists_of_bind_eq_ok h
    obtain rfl := Except.ok.inj h
    exact .some (hR.compile e ht)

theorem compileBranches (hR : s.Respects R) :
    ∀ (bs : List (Expr × Expr)) {ts : List (Term × Term)}, s.compileBranches bs = .ok ts →
      List.Forall₂ (fun b u => R b.1 u.1 ∧ R b.2 u.2) bs ts
  | [], ts, h => by
    obtain rfl := Except.ok.inj h
    exact .nil
  | (condition, result) :: bs, ts, h => by
    rw [Scope.compileBranches] at h
    obtain ⟨c, hc, h⟩ := exists_of_bind_eq_ok h
    obtain ⟨r, hr, h⟩ := exists_of_bind_eq_ok h
    obtain ⟨rest, hrest, h⟩ := exists_of_bind_eq_ok h
    obtain rfl := Except.ok.inj h
    exact .cons ⟨hR.compile condition hc, hR.compile result hr⟩ (hR.compileBranches bs hrest)

theorem compileOrder (hR : s.Respects R) :
    ∀ (os : List (Expr × Bool)) {ts : List (Term × Bool)}, s.compileOrder os = .ok ts →
      List.Forall₂ (fun b u => R b.1 u.1 ∧ b.2 = u.2) os ts
  | [], ts, h => by
    obtain rfl := Except.ok.inj h
    exact .nil
  | (e, descending) :: os, ts, h => by
    rw [Scope.compileOrder] at h
    obtain ⟨t, ht, h⟩ := exists_of_bind_eq_ok h
    obtain ⟨rest, hrest, h⟩ := exists_of_bind_eq_ok h
    obtain rfl := Except.ok.inj h
    exact .cons ⟨hR.compile e ht, rfl⟩ (hR.compileOrder os hrest)

end

end Respects

end Scope

end EntitySql
