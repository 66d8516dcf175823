import EntitySql.Proofs.Query.Parameters
import EntitySql.Query.Rows

/-!
# Values and the text of a statement

The text of a statement does not tell the values that are bound. What it may depend on is whether a
value is absent, because the absent value is a word of the text, and how long a list of values is,
because a list takes one marker for each.

Masking puts one fixed value in the place of every value that is not absent. Compiling, writing and
normalizing commute with it, and the text of a call only depends on the masked operation and on the
shapes of the arguments. So expressions with the same mask, which are those that differ in nothing
but such values, give the same texts, or the same errors.

## Main definitions

* `Expr.masked`, `Select.masked`, `Operation.masked`: with all values alike
* `Argument.shape`: what the text of a call may depend on
* `Operation.textOf`: the text of a call, or the error

## Main results

* `Scope.compile_masked`, `Term.fragments_masked`: compiling and writing commute with masking
* `Operation.textOf_eq_of_masked`: the text of a call only depends on the masked operation
-/

namespace EntitySql

/-- A fixed value in the place of every value that is not absent. -/
def Value.masked (v : Value) : Value := if v.isNull then .null else .bool true

@[simp] theorem Value.isNull_masked (v : Value) : v.masked.isNull = v.isNull := by
  cases v <;> rfl

/-! ### Masked expressions -/

namespace Expr

mutual

/-- An expression with all its constants masked. -/
def masked : Expr → Expr
  | property name => property name
  | constant v => constant v.masked
  | arg => arg
  | listArg => listArg
  | binary op left right => binary op left.masked right.masked
  | unary op operand => unary op operand.masked
  | call function args => call function (maskedList args)
  | case operand branches otherwise =>
    case (maskedOption operand) (maskedBranches branches) (maskedOption otherwise)
  | cast operand target => cast operand.masked target
  | tuple items => tuple (maskedList items)
  | named operand name => named operand.masked name
  | all => all
  | rowNumber partition order => rowNumber (maskedList partition) (maskedOrder order)

/-- Expressions with all constants masked. -/
def maskedList : List Expr → List Expr
  | [] => []
  | e :: es => e.masked :: maskedList es

/-- An optional expression with all constants masked. -/
def maskedOption : Option Expr → Option Expr
  | none => none
  | some e => some e.masked

/-- Branches with all constants masked. -/
def maskedBranches : List (Expr × Expr) → List (Expr × Expr)
  | [] => []
  | (condition, result) :: rest => (condition.masked, result.masked) :: maskedBranches rest

/-- Order terms with all constants masked. -/
def maskedOrder : List (Expr × Bool) → List (Expr × Bool)
  | [] => []
  | (e, descending) :: rest => (e.masked, descending) :: maskedOrder rest

end

@[simp] theorem isNull_masked (e : Expr) : e.masked.isNull = e.isNull := by
  cases e with
  | constant v => cases v <;> rfl
  | _ => simp [masked, isNull]

@[simp] theorem length_maskedList (es : List Expr) : (maskedList es).length = es.length := by
  induction es with
  | nil => rfl
  | cons e es ih => simp [maskedList, ih]

end Expr

/-! ### Masked terms -/

namespace Term

mutual

/-- A term with all its captured values masked. -/
def masked : Term → Term
  | column qualifier name => column qualifier name
  | constant v => constant v.masked
  | argument list => argument list
  | operation left op right => operation left.masked op right.masked
  | unary op operand => unary op operand.masked
  | call function distinct args => call function distinct (maskedList args)
  | case operand branches otherwise =>
    case (maskedOption operand) (maskedBranches branches) (maskedOption otherwise)
  | cond condition yes no => cond condition.masked yes.masked no.masked
  | cast operand target => cast operand.masked target
  | tuple items => tuple (maskedList items)
  | named operand name => named operand.masked name
  | all qualifier => all qualifier
  | rowNumber partition order => rowNumber (maskedList partition) (maskedOrder order)
  | paging limit offset ordered => paging limit offset ordered

/-- Terms with all captured values masked. -/
def maskedList : List Term → List Term
  | [] => []
  | t :: ts => t.masked :: maskedList ts

/-- An optional term with all captured values masked. -/
def maskedOption : Option Term → Option Term
  | none => none
  | some t => some t.masked

/-- Branches with all captured values masked. -/
def maskedBranches : List (Term × Term) → List (Term × Term)
  | [] => []
  | (condition, result) :: rest => (condition.masked, result.masked) :: maskedBranches rest

/-- Order terms with all captured values masked. -/
def maskedOrder : List (Term × Bool) → List (Term × Bool)
  | [] => []
  | (t, descending) :: rest => (t.masked, descending) :: maskedOrder rest

end

variable (t : Term)

@[simp] theorem needsParens_masked (parent : Operator) (onRight : Bool) :
    t.masked.needsParens parent onRight = t.needsParens parent onRight := by
  cases t with
  | unary op operand => cases op <;> rfl
  | _ => rfl

@[simp] theorem priority?_masked : t.masked.priority? = t.priority? := by
  cases t <;> rfl

@[simp] theorem wrapsRight_masked (op : Operator) : wrapsRight op t.masked = wrapsRight op t := by
  have htuple : t.masked.isTuple = t.isTuple := by cases t <;> rfl
  simp [wrapsRight, htuple]

end Term

/-- What a name stands for keeps the order of its arguments. -/
theorem Callee.apply_masked (callee : Callee) (ts : List Term) :
    callee.apply (Term.maskedList ts) = (callee.apply ts).masked := by
  cases callee with
  | function f distinct => rfl
  | tuple => rfl
  | cond => rcases ts with _ | ⟨c, _ | ⟨yes, _ | ⟨no, _ | ⟨_, _⟩⟩⟩⟩ <;> rfl
  | membership => rcases ts with _ | ⟨needle, _ | ⟨haystack, _ | ⟨_, _⟩⟩⟩ <;> rfl

/-! ### Compiling -/

namespace Scope

mutual

/-- **Compiling commutes with masking.** -/
theorem compile_masked (s : Scope) :
    ∀ e : Expr, s.compile e.masked = (s.compile e).map Term.masked
  | .property name => by
    simp only [Expr.masked, compile, column]
    split <;> rfl
  | .constant v => rfl
  | .arg => rfl
  | .listArg => rfl
  | .binary op left right => by
    have hsame : swapsNull op left.masked = swapsNull op left := by simp [swapsNull]
    simp only [Expr.masked, compile, Expr.isNull_masked, hsame, compile_masked s left,
      compile_masked s right]
    cases swapsNull op left
    · cases s.compile left <;> cases s.compile right <;> rfl
    · cases s.compile right <;> cases s.compile left <;> rfl
  | .unary op operand => by
    simp only [Expr.masked, compile, compile_masked s operand]
    cases s.compile operand <;> rfl
  | .call function args => by
    simp only [Expr.masked, compile, Expr.length_maskedList, compileList_masked s args]
    split
    · next callee _ =>
      cases s.compileList args with
      | error fault => rfl
      | ok ts => exact congrArg Except.ok (callee.apply_masked ts)
    · rfl
  | .case operand branches otherwise => by
    simp only [Expr.masked, compile, compileOption_masked s operand,
      compileBranches_masked s branches, compileOption_masked s otherwise]
    cases s.compileOption operand <;> cases s.compileBranches branches <;>
      cases s.compileOption otherwise <;> rfl
  | .cast operand target => by
    simp only [Expr.masked, compile, compile_masked s operand]
    cases s.compile operand <;> rfl
  | .tuple items => by
    simp only [Expr.masked, compile, compileList_masked s items]
    cases s.compileList items <;> rfl
  | .named operand name => by
    simp only [Expr.masked, compile, compile_masked s operand]
    cases s.compile operand <;> rfl
  | .all => rfl
  | .rowNumber partition order => by
    simp only [Expr.masked, compile, compileList_masked s partition, compileOrder_masked s order]
    cases s.compileList partition <;> cases s.compileOrder order <;> rfl

theorem compileList_masked (s : Scope) : ∀ es : List Expr,
    s.compileList (Expr.maskedList es) = (s.compileList es).map Term.maskedList
  | [] => rfl
  | e :: es => by
    simp only [Expr.maskedList, compileList, compile_masked s e, compileList_masked s es]
    cases s.compile e <;> cases s.compileList es <;> rfl

theorem compileOption_masked (s : Scope) : ∀ o : Option Expr,
    s.compileOption (Expr.maskedOption o) = (s.compileOption o).map Term.maskedOption
  | none => rfl
  | some e => by
    simp only [Expr.maskedOption, compileOption, compile_masked s e]
    cases s.compile e <;> rfl

theorem compileBranches_masked (s : Scope) : ∀ bs : List (Expr × Expr),
    s.compileBranches (Expr.maskedBranches bs) = (s.compileBranches bs).map Term.maskedBranches
  | [] => rfl
  | (condition, result) :: rest => by
    simp only [Expr.maskedBranches, compileBranches, compile_masked s condition,
      compile_masked s result, compileBranches_masked s rest]
    cases s.compile condition <;> cases s.compile result <;> cases s.compileBranches rest <;> rfl

theorem compileOrder_masked (s : Scope) : ∀ os : List (Expr × Bool),
    s.compileOrder (Expr.maskedOrder os) = (s.compileOrder os).map Term.maskedOrder
  | [] => rfl
  | (e, descending) :: rest => by
    simp only [Expr.maskedOrder, compileOrder, compile_masked s e, compileOrder_masked s rest]
    cases s.compile e <;> cases s.compileOrder rest <;> rfl

end

end Scope

/-! ### Writing -/

namespace Fragment

/-- A fragment with its captured value masked. -/
def masked : Fragment → Fragment
  | captured v => captured v.masked
  | f => f

@[simp] theorem masked_text (sql : String) : masked (text sql) = text sql := rfl

theorem map_masked_wrapIf (wanted : Bool) (fs : List Fragment) :
    (Term.wrapIf wanted fs).map masked = Term.wrapIf wanted (fs.map masked) := by
  cases wanted <;> simp [Term.wrapIf]

theorem map_masked_consText (sql : String) (fs : List Fragment) :
    (consText sql fs).map masked = consText sql (fs.map masked) := by
  rcases fs with _ | ⟨f, fs⟩
  · simp only [consText]
    split <;> rfl
  · cases f with
    | text next => rfl
    | captured v => simp only [consText, List.map_cons, masked]; split <;> rfl
    | slot => simp only [consText, List.map_cons, masked]; split <;> rfl
    | listSlot => simp only [consText, List.map_cons, masked]; split <;> rfl

/-- The normal form commutes with masking, which keeps the absent value. -/
theorem normalize_map_masked (fs : List Fragment) :
    normalize (fs.map masked) = (normalize fs).map masked := by
  induction fs with
  | nil => rfl
  | cons f fs ih =>
    cases f with
    | text sql => rw [List.map_cons, masked_text, normalize, ih, normalize, map_masked_consText]
    | captured v =>
      cases v with
      | null =>
        have hnull : masked (captured .null) = captured .null := rfl
        rw [List.map_cons, hnull, normalize, ih, normalize, map_masked_consText]
      | _ => simp [masked, Value.masked, Value.isNull, normalize, ih]
    | slot => simp [masked, normalize, ih]
    | listSlot => simp [masked, normalize, ih]

end Fragment

namespace Term

open Fragment (map_masked_wrapIf)

theorem map_masked_orderMark (descending : Bool) :
    (orderMark descending).map Fragment.masked = orderMark descending := by
  cases descending <;> rfl

@[simp] theorem isEmpty_maskedList (ts : List Term) : (maskedList ts).isEmpty = ts.isEmpty := by
  cases ts <;> rfl

@[simp] theorem isEmpty_maskedOrder (os : List (Term × Bool)) :
    (maskedOrder os).isEmpty = os.isEmpty := by
  cases os <;> rfl

mutual

/-- **Writing a term commutes with masking.** -/
theorem fragments_masked (d : Dialect) :
    ∀ t : Term, t.masked.fragments d = (t.fragments d).map Fragment.masked
  | column qualifier name => rfl
  | constant v => rfl
  | argument list => by cases list <;> rfl
  | operation left op right => by
    simp [masked, fragments, fragments_masked d left, fragments_masked d right, map_masked_wrapIf]
  | unary op operand => by
    simp [masked, fragments, fragments_masked d operand, map_masked_wrapIf]
  | call function distinct args => by
    have hargs := listFragments_masked d args
    cases args with
    | nil => rfl
    | cons t ts =>
      simp only [maskedList] at hargs
      simp [masked, maskedList, fragments, hargs]
  | case operand branches otherwise => by
    simp [masked, fragments, optionFragments_masked d, branchFragments_masked d branches]
  | cond condition yes no => by
    simp [masked, fragments, fragments_masked d condition, fragments_masked d yes,
      fragments_masked d no]
  | cast operand target => by simp [masked, fragments, fragments_masked d operand]
  | tuple items => by simp [masked, fragments, listFragments_masked d items]
  | named operand name => by simp [masked, fragments, fragments_masked d operand]
  | all qualifier => rfl
  | rowNumber partition order => by
    simp only [masked, fragments, isEmpty_maskedList, isEmpty_maskedOrder,
      listFragments_masked d partition, orderFragments_masked d order]
    split <;> split <;> simp
  | paging limit offset ordered => rfl

theorem listFragments_masked (d : Dialect) : ∀ ts : List Term,
    listFragments d (maskedList ts) = (listFragments d ts).map Fragment.masked
  | [] => rfl
  | [t] => by simp [maskedList, listFragments, fragments_masked d t]
  | t :: u :: ts => by
    have hrest := listFragments_masked d (u :: ts)
    simp only [maskedList] at hrest ⊢
    simp [listFragments, fragments_masked d t, hrest]

theorem optionFragments_masked (d : Dialect) {keyword : String} : ∀ o : Option Term,
    optionFragments d keyword (maskedOption o) = (optionFragments d keyword o).map Fragment.masked
  | none => rfl
  | some t => by simp [maskedOption, optionFragments, fragments_masked d t]

theorem branchFragments_masked (d : Dialect) : ∀ bs : List (Term × Term),
    branchFragments d (maskedBranches bs) = (branchFragments d bs).map Fragment.masked
  | [] => rfl
  | (condition, result) :: rest => by
    simp [maskedBranches, branchFragments, fragments_masked d condition, fragments_masked d result,
      branchFragments_masked d rest]

theorem orderFragments_masked (d : Dialect) : ∀ os : List (Term × Bool),
    orderFragments d (maskedOrder os) = (orderFragments d os).map Fragment.masked
  | [] => rfl
  | [(t, descending)] => by
    simp [maskedOrder, orderFragments, fragments_masked d t, map_masked_orderMark]
  | (t, descending) :: u :: rest => by
    have hrest := orderFragments_masked d (u :: rest)
    simp only [maskedOrder] at hrest ⊢
    simp [orderFragments, fragments_masked d t, map_masked_orderMark, hrest]

end

end Term

/-! ### Calls -/

/-- What the text of a call may depend on: whether an argument is a list, and how long it is. -/
def Argument.shape : Argument → Option Nat
  | value _ => none
  | list vs => some vs.length

namespace Cell

/-- The text of a list only depends on how long it is. -/
theorem write_ofList (marker : Nat → String) {vs ws : List Value} (h : vs.length = ws.length)
    (next : Nat) : write marker next (ofList vs) = write marker next (ofList ws) := by
  induction vs generalizing ws next with
  | nil => rw [List.length_eq_zero_iff.mp h.symm]
  | cons v vs ih =>
    obtain ⟨w, ws, rfl⟩ := List.exists_cons_of_length_eq_add_one h.symm
    have hrest : vs.length = ws.length := by simpa using h
    rcases vs with _ | ⟨v', vs⟩
    · rw [List.length_eq_zero_iff.mp hrest.symm]
      rfl
    · obtain ⟨w', ws, rfl⟩ := List.exists_cons_of_length_eq_add_one hrest.symm
      simp only [ofList, write, ih hrest]

end Cell

namespace Fragment

/-- The text of filled fragments does not tell what is captured in them. -/
theorem write_fill_masked (marker : Nat → String) (fs : List Fragment) (args : List Argument)
    (next : Nat) : Cell.write marker next (fill (fs.map masked) args) =
      Cell.write marker next (fill fs args) := by
  induction fs generalizing args next with
  | nil => rfl
  | cons f fs ih =>
    cases f with
    | text sql => simp [fill, Cell.write, ih]
    | captured v => simp [masked, fill, Cell.write, ih]
    | slot => rcases args with _ | ⟨_ | _, args⟩ <;> simp [masked, fill, Cell.write, ih]
    | listSlot =>
      rcases args with _ | ⟨_ | _, args⟩ <;> simp [masked, fill, Cell.write_append, ih]

/-- Nor does it tell more of the arguments than their shapes. -/
theorem write_fill_shape (marker : Nat → String) (fs : List Fragment) {args brgs : List Argument}
    (h : args.map Argument.shape = brgs.map Argument.shape) (next : Nat) :
    Cell.write marker next (fill fs args) = Cell.write marker next (fill fs brgs) := by
  induction fs generalizing args brgs next with
  | nil => rfl
  | cons f fs ih =>
    cases f with
    | text sql => simp [fill, Cell.write, ih h]
    | captured v => simp [fill, Cell.write, ih h]
    | slot =>
      rcases args with _ | ⟨v | vs, args⟩ <;> rcases brgs with _ | ⟨w | ws, brgs⟩ <;>
        simp only [List.map_cons, List.map_nil, List.cons.injEq, Argument.shape, reduceCtorEq,
          false_and, true_and] at h
      · rfl
      · simp [fill, Cell.write, ih h]
      · simp [fill, ih h.2]
    | listSlot =>
      rcases args with _ | ⟨v | vs, args⟩ <;> rcases brgs with _ | ⟨w | ws, brgs⟩ <;>
        simp only [List.map_cons, List.map_nil, List.cons.injEq, Argument.shape, reduceCtorEq,
          false_and, true_and, Option.some.injEq] at h
      · rfl
      · simp [fill, ih h]
      · simp [fill, Cell.write_append, Cell.values_ofList, Cell.write_ofList marker h.1, h.1,
          ih h.2]

theorem filter_isSlot_map_masked (fs : List Fragment) :
    (fs.map masked).filter isSlot = fs.filter isSlot := by
  induction fs with
  | nil => rfl
  | cons f fs ih => cases f <;> simp [List.filter_cons, masked, isSlot, ih]

end Fragment

namespace Operation

/-- An operation with its captured values masked. -/
def masked (o : Operation) : Operation := { o with fragments := o.fragments.map Fragment.masked }

@[simp] theorem slots_masked (o : Operation) : o.masked.slots = o.slots :=
  Fragment.filter_isSlot_map_masked o.fragments

theorem masked_ofFragments (d : Dialect) (fs : List Fragment) :
    ofFragments d (fs.map Fragment.masked) = (ofFragments d fs).masked := by
  simp [ofFragments, Draft.append, Draft.build, masked, Fragment.normalize_map_masked]

theorem shapeFault?_shape (position : Nat) (slots : List Fragment) {args brgs : List Argument}
    (h : args.map Argument.shape = brgs.map Argument.shape) :
    shapeFault? position slots args = shapeFault? position slots brgs := by
  induction slots generalizing position args brgs with
  | nil => simp [shapeFault?]
  | cons f slots ih =>
    rcases args with _ | ⟨v | vs, args⟩ <;> rcases brgs with _ | ⟨w | ws, brgs⟩ <;>
      simp only [List.map_cons, List.map_nil, List.cons.injEq, Argument.shape, reduceCtorEq,
        false_and, true_and] at h
    · rfl
    · cases f <;> simp [shapeFault?, ih _ h]
    · cases f <;> simp [shapeFault?, ih _ h.2]

/-- The text of a call, or the error. -/
def textOf (o : Operation) (args : List Argument) : Except Error String :=
  (o.statement args).map Statement.sql

/-- **The text of a call only depends on the masked operation** and on the shapes of the
arguments, and so does the error. -/
theorem textOf_eq_of_masked {o p : Operation} (h : o.masked = p.masked)
    {args brgs : List Argument} (hargs : args.map Argument.shape = brgs.map Argument.shape) :
    o.textOf args = p.textOf brgs := by
  have hslots : o.slots = p.slots := by rw [← slots_masked o, h, slots_masked]
  have hlength : args.length = brgs.length := by simpa using congrArg List.length hargs
  have hfault := shapeFault?_shape 0 p.slots hargs
  have htext : (o.filled args).sql = (p.filled brgs).sql := by
    calc (o.filled args).sql
        = (o.masked.filled args).sql :=
          (Fragment.write_fill_masked o.dialect.marker o.fragments args 1).symm
      _ = (p.masked.filled args).sql := by rw [h]
      _ = (p.filled args).sql :=
          Fragment.write_fill_masked p.dialect.marker p.fragments args 1
      _ = (p.filled brgs).sql :=
          Fragment.write_fill_shape p.dialect.marker p.fragments hargs 1
  rw [textOf, textOf, statement, statement, slotCount, slotCount, hslots, hlength, hfault]
  by_cases hcount : brgs.length ≠ p.slots.length
  · rw [if_pos hcount, if_pos hcount]
  · rw [if_neg hcount, if_neg hcount]
    cases shapeFault? 0 p.slots brgs with
    | some fault => rfl
    | none => exact congrArg Except.ok htext

end Operation

end EntitySql
