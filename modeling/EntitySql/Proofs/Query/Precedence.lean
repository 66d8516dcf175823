import EntitySql.Proofs.Database.Regrouping
import EntitySql.Proofs.Query.Parameters
import EntitySql.Proofs.Reading.Level

/-!
# How SQLite groups an expression

An expression of operators is written with the parentheses that the priorities of the library ask
for, and read with the table of SQLite. The two order the operators differently: the library lets a
comparison bind tighter than `&` and `|`, and shifts bind looser than everything, so some operands
stand bare where SQLite groups them otherwise.

Whatever the operators are, the statement is read to its end, as the expression that has the same
operands and operators in the same order. It is read as the tree that was meant exactly if the
parentheses fit the table.

## Main definitions

* `Expr.isPlain`: expressions of properties, constants, arguments and operators of SQLite
* `Scope.tree?`: the tree that such an expression stands for
* `Term.written`: a term with the parentheses that it is written with

## Main results

* `Scope.text_statement`: the text of a call of a prepared expression
* `Scope.reads_prepare`: the tree that SQLite reads, and when it is the one that was meant
-/

namespace EntitySql

namespace Term

/-- The expression in parentheses, if they are wanted. -/
def encloseIf (wanted : Bool) (w : Written) : Written := if wanted then .enclosed w else w

/-- A term of operators as it is written. Of other terms, nothing is said. -/
def written : Term → Written
  | column qualifier name => .column qualifier name
  | constant v => if v.isNull then .null else .marker
  | operation left op right =>
    .binary (encloseIf (left.needsParens op false) left.written) op
      (encloseIf (wrapsRight op right) right.written)
  | unary op operand => .unary op (encloseIf operand.priority?.isSome operand.written)
  | _ => .marker

/-- Whether a term consists of columns, constants, slots for single values, and operators that SQLite
has between them. -/
def isPlain : Term → Bool
  | column _ _ | constant _ | argument false => true
  | operation left op right =>
    op ≠ .isIn && op ≠ .bitXor && left.isPlain && right.isPlain
  | unary _ operand => operand.isPlain
  | _ => false

theorem isPlain_operation {l r : Term} {op : Operator} : (operation l op r).isPlain = true ↔
    ((op ≠ .isIn ∧ op ≠ .bitXor) ∧ l.isPlain = true) ∧ r.isPlain = true := by
  simp only [isPlain, Bool.and_eq_true, decide_eq_true_eq]

/-! ### The form of what is written -/

section

variable (wanted : Bool) (w : Written)

theorem legal_encloseIf : (encloseIf wanted w).Legal ↔ w.Legal := by cases wanted <;> rfl

theorem tight_encloseIf : (encloseIf wanted w).Tight ↔ w.Tight := by cases wanted <;> rfl

theorem markers_encloseIf : (encloseIf wanted w).markers = w.markers := by cases wanted <;> rfl

theorem fits_encloseIf : (encloseIf wanted w).fits = w.fits := by cases wanted <;> rfl

theorem phrase_encloseIf (n : Nat) : (encloseIf wanted w).phrase n = w.phrase n := by
  cases wanted <;> rfl

theorem text_encloseIf : (encloseIf wanted w).text =
    if wanted then '(' :: (w.text ++ [')']) else w.text := by cases wanted <;> rfl

end

/-- What is written begins with `NOT` only if the term does. -/
theorem leading_of_startsNot {t : Term} (h : t.written.startsNot = true) :
    t.leading? = some .not := by
  fun_induction leading? t with
  | case1 op x =>
    cases op with
    | not => rfl
    | negate => simp [written, Written.startsNot] at h
  | case2 l op r hw => simp [written, hw, encloseIf, Written.startsNot] at h
  | case3 l op r hw ih => exact ih (by simpa [written, hw, encloseIf, Written.startsNot] using h)
  | case4 t hop hun =>
    cases t with
    | operation l op r => exact absurd rfl (hun l op r)
    | unary op x => exact absurd rfl (hop op x)
    | constant v => cases v <;> simp [written, Value.isNull, Written.startsNot] at h
    | _ => simp [written, Written.startsNot] at h

/-- The operators of a plain term are read as they are written. -/
theorem legal_written {t : Term} (h : t.isPlain = true) : t.written.Legal := by
  fun_induction isPlain t with
  | case1 | case3 => exact trivial
  | case2 v => cases v <;> exact trivial
  | case4 l op r ihl ihr =>
    obtain ⟨⟨⟨hin, hxor⟩, hl⟩, hr⟩ := isPlain_operation.mp h
    refine ⟨⟨(legal_encloseIf _ _).mpr (ihl hl), (legal_encloseIf _ _).mpr (ihr hr)⟩, hin, hxor, ?_⟩
    rintro rfl
    cases hw : wrapsRight .is r with
    | true => rfl
    | false =>
      have hnot := mt leading_of_startsNot (Grammar.leading_right_of_is hw)
      simpa [encloseIf] using hnot
  | case5 op x ih => exact (legal_encloseIf _ _).mpr (ih h)
  | case6 => simp at h

/-- Behind a sign or `NOT`, every operator is in parentheses. -/
theorem isClosed_operand (t : Term) : (encloseIf t.priority?.isSome t.written).isClosed = true := by
  cases t with
  | operation | unary => rfl
  | constant v => cases v <;> rfl
  | _ => rfl

/-- A sign stands in front of a single operand. -/
theorem tight_written {t : Term} (h : t.isPlain = true) : t.written.Tight := by
  fun_induction isPlain t with
  | case1 | case3 => exact trivial
  | case2 v => cases v <;> exact trivial
  | case4 l op r ihl ihr =>
    obtain ⟨⟨-, hl⟩, hr⟩ := isPlain_operation.mp h
    exact ⟨(tight_encloseIf _ _).mpr (ihl hl), (tight_encloseIf _ _).mpr (ihr hr)⟩
  | case5 op x ih =>
    exact ⟨(tight_encloseIf _ _).mpr (ih h), isClosed_operand x⟩
  | case6 => simp at h

end Term

/-! ### Operators that both tables order alike -/

namespace Operator

/-- Whether the operator works on bits. -/
def isBitwise : Operator → Bool
  | bitAnd | bitOr | bitXor | shiftLeft | shiftRight => true
  | _ => false

/-- Whether the operator compares for order. -/
def comparesOrder : Operator → Bool
  | less | lessOrEqual | greater | greaterOrEqual => true
  | _ => false

/-- Whether the operator compares for anything else. -/
def comparesEquality : Operator → Bool
  | equal | notEqual | like | is | isNot | isIn => true
  | _ => false

/-- Where an operator that does not work on bits stands in the two tables. -/
theorem priority_binding {op : Operator} (h : op.isBitwise = false) :
    op.priority = 0 ∧ Reading.binding op = 8 ∨ op.priority = 1 ∧ Reading.binding op = 7 ∨
      op.priority = 3 ∧ Reading.binding op = 5 ∧ op.comparesOrder = true ∨
      op.priority = 3 ∧ Reading.binding op = 4 ∧ op.comparesEquality = true ∨
      op.priority = 7 ∧ Reading.binding op = 2 ∨ op.priority = 8 ∧ Reading.binding op = 1 := by
  cases op <;> simp [isBitwise, priority, Reading.binding, comparesOrder, comparesEquality] at h ⊢

end Operator

namespace Term

/-- Whether the outermost operator compares for anything but order. -/
def comparesEquality : Term → Bool
  | operation _ op _ => op.comparesEquality
  | _ => false

/-- Whether no operator works on bits, and none that compares for order has another comparison on its
left. -/
def isCommon : Term → Bool
  | operation left op right =>
    !op.isBitwise && !(op.comparesOrder && left.comparesEquality) && left.isCommon && right.isCommon
  | unary _ operand => operand.isCommon
  | _ => true

/-- Which operators may follow a common term: those that bind tighter are let into it. -/
def outerLimit : Term → Nat
  | operation _ op _ => Reading.binding op + 1
  | unary op _ => Written.binding op
  | _ => 10

/-- A unary operation stands bare beside a common operator only if that binds looser. -/
theorem lt_binding_of_bare {u : UnaryOperator} {x : Term} {op : Operator} {onRight : Bool}
    (hop : op.isBitwise = false) (hbare : (unary u x).needsParens op onRight = false) :
    Reading.binding op < Written.binding u := by
  have hparent := Operator.priority_binding hop
  cases u with
  | not =>
    have hle : ¬ op.priority < 7 := of_decide_eq_false hbare
    change Reading.binding op < 3
    omega
  | negate =>
    change Reading.binding op < 9
    omega

section

variable {t : Term} {op : Operator} (hop : op.isBitwise = false) (ht : t.isCommon = true)

include hop ht

/-- A common operator is not let into an operand that stands bare on its left. -/
theorem lt_outerLimit_of_bare (horder : (op.comparesOrder && t.comparesEquality) = false)
    (hbare : t.needsParens op false = false) : Reading.binding op < t.outerLimit := by
  have hparent := Operator.priority_binding hop
  cases t with
  | operation a q b =>
    simp only [isCommon, Bool.and_eq_true, Bool.not_eq_true'] at ht
    have hchild := Operator.priority_binding ht.1.1.1
    have hle : ¬ op.priority < q.priority := by simpa [needsParens] using hbare
    change Reading.binding op < Reading.binding q + 1
    rcases Bool.and_eq_false_iff.mp horder with h | h
    · simp only [h, Bool.false_eq_true, and_false, false_or] at hparent
      omega
    · have hq : q.comparesEquality = false := h
      simp only [hq, Bool.false_eq_true, and_false, false_or] at hchild
      omega
  | unary u x => exact lt_binding_of_bare hop hbare
  | _ =>
    change Reading.binding op < 10
    omega

/-- What stands bare on its right binds tighter, and may stand there with what follows. -/
theorem lt_level_of_bare (hbare : t.needsParens op true = false) :
    Reading.binding op < t.written.level ∧ Reading.binding op < t.outerLimit := by
  have hparent := Operator.priority_binding hop
  have hten : Reading.binding op < 10 := by omega
  cases t with
  | operation a q b =>
    simp only [isCommon, Bool.and_eq_true, Bool.not_eq_true'] at ht
    have hchild := Operator.priority_binding ht.1.1.1
    have hlt : ¬ op.priority < q.priority ∧ q.priority ≠ op.priority := by
      simpa [needsParens] using hbare
    change Reading.binding op < Reading.binding q ∧ Reading.binding op < Reading.binding q + 1
    omega
  | unary u x => exact ⟨hten, lt_binding_of_bare hop hbare⟩
  | constant v => cases v <;> exact ⟨hten, hten⟩
  | _ => exact ⟨hten, hten⟩

end

/-- **The parentheses of a common term fit the table of the reader.** -/
theorem fits_written {t : Term} (hplain : t.isPlain = true) (ht : t.isCommon = true) :
    t.written.fits = true ∧ t.written.limit = t.outerLimit := by
  fun_induction isPlain t with
  | case1 | case3 => exact ⟨rfl, rfl⟩
  | case2 v => cases v <;> exact ⟨rfl, rfl⟩
  | case4 l op r ihl ihr =>
    obtain ⟨⟨⟨hin, -⟩, hpl⟩, hpr⟩ := isPlain_operation.mp hplain
    simp only [isCommon, Bool.and_eq_true, Bool.not_eq_true'] at ht
    obtain ⟨⟨⟨hop, horder⟩, hl⟩, hr⟩ := ht
    obtain ⟨hfitsl, hlimitl⟩ := ihl hpl hl
    obtain ⟨hfitsr, hlimitr⟩ := ihr hpr hr
    have hten : Reading.binding op < 9 := Written.binding_lt op
    have hleft : Reading.binding op <
        (encloseIf (l.needsParens op false) l.written).limit := by
      cases hw : l.needsParens op false with
      | true => exact Nat.lt_succ_of_lt hten
      | false =>
        have hlt := lt_outerLimit_of_bare hop hl horder hw
        rwa [← hlimitl] at hlt
    have hright : Reading.binding op < (encloseIf (wrapsRight op r) r.written).level ∧
        Reading.binding op < (encloseIf (wrapsRight op r) r.written).limit := by
      cases hw : wrapsRight op r with
      | true => exact ⟨Nat.lt_succ_of_lt hten, Nat.lt_succ_of_lt hten⟩
      | false =>
        rw [wrapsRight, if_neg hin] at hw
        obtain ⟨hlevel, hlimit⟩ := lt_level_of_bare hop hr hw
        rw [← hlimitr] at hlimit
        exact ⟨hlevel, hlimit⟩
    refine ⟨Written.fits_binary.mpr ⟨⟨?_, ?_⟩, hleft, hright.1⟩, ?_⟩
    · rwa [fits_encloseIf]
    · rwa [fits_encloseIf]
    · exact Nat.min_eq_left hright.2
  | case5 op x ih =>
    obtain ⟨hlevel, hlimit⟩ := Written.level_of_isClosed (isClosed_operand x)
    have hten : Written.binding op ≤ 10 := by cases op <;> decide
    refine ⟨Written.fits_unary.mpr ⟨?_, ?_⟩, ?_⟩
    · rw [fits_encloseIf]
      exact (ih hplain ht).1
    · rwa [hlevel]
    · change min (Written.binding op) _ = Written.binding op
      rwa [hlimit, Nat.min_eq_left]
  | case6 => simp at hplain

end Term

/-! ### The text of a statement -/

/-- The characters of fragments whose slots are filled with single values, where `?` is the
marker. -/
def Fragment.filledText : Fragment → List Char
  | text sql => sql.toList
  | captured v => if v.isNull then "NULL".toList else ['?']
  | slot => ['?']
  | listSlot => []

namespace Fragment

theorem reads_filledText : Reads filledText where
  empty := rfl
  append _ _ := String.toList_append
  null := rfl

/-- Filled with arguments that fit, fragments without slots for lists have the text. -/
theorem write_fill {fs : List Fragment} (hnull : NoNull fs) (hlist : Leaf.listArg ∉ leaves fs)
    {args : List Argument} (hfits : Leaf.fits (leaves fs) args = true) (next : Nat) :
    (Cell.write Dialect.sqlite.marker next (fill fs args)).toList = fs.flatMap filledText := by
  have hmarker : ∀ n, (Dialect.sqlite.marker n).toList = ['?'] := by simp [Dialect.sqlite]
  induction fs generalizing args next with
  | nil =>
    have hnone : fill [] args = [] := by cases args <;> rfl
    simp [hnone, Cell.write]
  | cons f fs ih =>
    have hrest : NoNull fs := fun h => hnull (List.mem_cons_of_mem f h)
    have hlists : Leaf.listArg ∉ leaves fs := fun h => hlist (List.mem_append_right _ h)
    cases f with
    | text sql =>
      simp [fill, Cell.write, filledText, ih hrest hlists hfits]
    | captured v =>
      have hv : v ≠ .null := by
        rintro rfl
        exact hnull List.mem_cons_self
      have hnot : v.isNull = false := by cases v <;> first | exact absurd rfl hv | rfl
      rw [leaves_cons, leaf_captured hv] at hfits
      simp [fill, Cell.write, filledText, hnot, hmarker, ih hrest hlists hfits]
    | slot =>
      cases args with
      | nil => simp [leaf, Leaf.fits] at hfits
      | cons a args =>
        cases a with
        | value v => simp [fill, Cell.write, filledText, hmarker, ih hrest hlists hfits]
        | list vs => simp [leaf, Leaf.fits] at hfits
    | listSlot => exact absurd (List.mem_append_left _ (List.mem_singleton.mpr rfl)) hlist

/-- The text of a call of an operation without slots for lists. -/
theorem text_ofFragments {fs : List Fragment} (hlist : Leaf.listArg ∉ leaves fs)
    {args : List Argument} {st : Statement}
    (h : (Operation.ofFragments .sqlite fs).statement args = .ok st) :
    st.sql.toList = fs.flatMap filledText := by
  have hfragments : (Operation.ofFragments .sqlite fs).fragments = normalize fs := rfl
  obtain ⟨hfits, rfl⟩ := Operation.statement_eq_ok_iff.mp h
  rw [hfragments] at hfits
  have hwrite := write_fill (noNull_normalize fs) (by rwa [leaves_normalize]) hfits 1
  rwa [reads_filledText.normalize] at hwrite

theorem filledText_wrapIf (wanted : Bool) (fs : List Fragment) :
    (Term.wrapIf wanted fs).flatMap filledText =
      if wanted then '(' :: (fs.flatMap filledText ++ [')']) else fs.flatMap filledText := by
  cases wanted <;> simp [Term.wrapIf, filledText]

end Fragment

/-- The fragments of a plain term have its text. -/
theorem Term.filledText_fragments {t : Term} (h : t.isPlain = true) :
    (t.fragments .sqlite).flatMap Fragment.filledText = t.written.text := by
  fun_induction isPlain t with
  | case1 qualifier name =>
    cases qualifier <;>
      simp [fragments, qualifierText, Fragment.filledText, written, Written.text, Dialect.quote,
        Dialect.sqlite]
  | case2 v => cases v <;> simp [fragments, Fragment.filledText, written, Written.text, Value.isNull]
  | case3 => rfl
  | case4 l op r ihl ihr =>
    obtain ⟨⟨-, hl⟩, hr⟩ := isPlain_operation.mp h
    simp [fragments, Fragment.filledText_wrapIf, Fragment.filledText, written, Written.text,
      text_encloseIf, ihl hl, ihr hr, toString]
  | case5 op x ih =>
    simp [fragments, Fragment.filledText_wrapIf, Fragment.filledText, written, Written.text,
      text_encloseIf, ih h]
  | case6 => simp at h

/-! ### Expressions -/

/-- Whether an expression consists of properties, constants, single arguments, and operators that
SQLite has between them. -/
def Expr.isPlain : Expr → Bool
  | property _ | constant _ | arg => true
  | binary op left right => op ≠ .bitXor && left.isPlain && right.isPlain
  | unary _ operand => operand.isPlain
  | _ => false

theorem Expr.isPlain_binary {l r : Expr} {op : BinaryOp} : (binary op l r).isPlain = true ↔
    (op ≠ .bitXor ∧ l.isPlain = true) ∧ r.isPlain = true := by
  simp only [isPlain, Bool.and_eq_true, decide_eq_true_eq]

/-- No single argument is a list. -/
theorem Expr.listArg_notMem_leaves {e : Expr} (h : e.isPlain = true) :
    Leaf.listArg ∉ e.leaves := by
  fun_induction isPlain e with
  | case1 | case3 => simp [leaves]
  | case2 v => cases v <;> simp [leaves, Leaf.ofValue, Value.isNull]
  | case4 op l r ihl ihr =>
    obtain ⟨⟨-, hl⟩, hr⟩ := isPlain_binary.mp h
    simp [leaves, ihl hl, ihr hr]
  | case5 op x ih => exact ih h
  | case6 => simp at h

/-- Whether the outermost operator compares for anything but order. -/
def Expr.comparesEquality : Expr → Bool
  | binary op _ _ => op.operator.comparesEquality
  | _ => false

/-- Whether no operator works on bits, and none that compares for order has another comparison on its
left. -/
def Expr.isCommon : Expr → Bool
  | binary op left right =>
    !op.operator.isBitwise && !(op.operator.comparesOrder && left.comparesEquality) &&
      left.isCommon && right.isCommon
  | unary _ operand => operand.isCommon
  | _ => true

/-- A column behind a table alias if there is one. Without one, a reader has only a quoted name. -/
def Phrase.reference : Option String → String → Phrase
  | none, name => .quoted name
  | some a, name => .column (some a) name

namespace Scope

/-- The tree that a plain expression stands for. Its constants and arguments are numbered from the
given number, as they are bound, and a comparison for equality with the absent value asks for
absence. -/
def tree? (s : Scope) : Nat → Expr → Option Phrase
  | _, .property name =>
    (s.model.columnOfField? name s.ignoreCase).map fun c => .reference s.qualifier c.name
  | n, .constant v => some (if v.isNull then .datum .null else .parameter n)
  | n, .arg => some (.parameter n)
  | n, .binary op left right => do
    let l ← s.tree? n left
    let r ← s.tree? (n + left.leaves.length) right
    if swapsNull op left then some (.binary r (nullOperator op true) l)
    else some (.binary l (nullOperator op (left.isNull || right.isNull)) r)
  | n, .unary op operand => do
    let x ← s.tree? n operand
    some (.unary op.operator x)
  | _, _ => none

/-- The operator of a comparison is one that SQLite has. -/
theorem nullOperator_ne {op : BinaryOp} (h : op ≠ .bitXor) (withNull : Bool) :
    nullOperator op withNull ≠ .isIn ∧ nullOperator op withNull ≠ .bitXor := by
  cases op <;> cases withNull <;> first | exact absurd rfl h | decide

/-- Asking for absence is a comparison, too. -/
theorem nullOperator_compares (op : BinaryOp) (withNull : Bool) :
    (nullOperator op withNull).isBitwise = op.operator.isBitwise ∧
      (nullOperator op withNull).comparesOrder = op.operator.comparesOrder ∧
      (nullOperator op withNull).comparesEquality = op.operator.comparesEquality := by
  cases op <;> cases withNull <;> exact ⟨rfl, rfl, rfl⟩

theorem comparesOrder_of_swapsNull {op : BinaryOp} {e : Expr} (h : swapsNull op e = true) :
    op.operator.comparesOrder = false := by
  cases op <;> first | rfl | simp [swapsNull] at h

/-- What a plain expression compiles to is written for the tree of the expression. -/
structure IsWritten (s : Scope) (e : Expr) (t : Term) : Prop where
  /-- The term is plain, too. -/
  isPlain : t.isPlain = true
  /-- There is a marker for each leaf. -/
  markers : t.written.markers = e.leaves.length
  /-- Both compare alike. -/
  comparesEquality : t.comparesEquality = e.comparesEquality
  /-- And both are common, or neither. -/
  isCommon : t.isCommon = e.isCommon
  /-- The tree is that of the expression. -/
  tree : ∀ n, s.tree? n e = some (t.written.phrase n)

/-- A node is written for its tree if its parts are written for theirs. -/
theorem respects_isWritten (s : Scope) :
    s.Respects fun e t => e.isPlain = true → s.IsWritten e t where
  property hc _ := by
    refine ⟨rfl, rfl, rfl, rfl, fun n => ?_⟩
    cases hq : s.qualifier <;> simp [tree?, hc, hq, Term.written, Written.phrase, Phrase.reference]
  constant v _ := by cases v <;> exact ⟨rfl, rfl, rfl, rfl, fun n => rfl⟩
  arg _ := ⟨rfl, rfl, rfl, rfl, fun n => rfl⟩
  listArg he := nomatch he
  all he := nomatch he
  swapped {op _ _} hop hr he := by
    obtain ⟨⟨hxor, -⟩, hplain⟩ := Expr.isPlain_binary.mp he
    obtain ⟨hbits, horder, hequality⟩ := nullOperator_compares op true
    have hwr := hr hplain
    have hswap : swapsNull op (.constant .null) = true := swapsNull_iff.mpr ⟨hop, rfl⟩
    refine ⟨Term.isPlain_operation.mpr ⟨⟨nullOperator_ne hxor _, hwr.isPlain⟩, rfl⟩, ?_, hequality,
      ?_, fun n => ?_⟩
    · simp [Term.written, Written.markers, Term.markers_encloseIf, hwr.markers, Expr.leaves,
        Leaf.ofValue, Value.isNull]
    · have hnot : op.operator.comparesOrder = false := comparesOrder_of_swapsNull hswap
      simp [Term.isCommon, Expr.isCommon, hbits, horder, hnot, hwr.isCommon]
    · simp [tree?, hwr.tree, hswap, Term.written, Written.phrase, Term.phrase_encloseIf,
        Expr.leaves, Leaf.ofValue, Value.isNull]
  binary {op left right _ _} hswap _ _ hl hr he := by
    obtain ⟨⟨hxor, hleft⟩, hright⟩ := Expr.isPlain_binary.mp he
    obtain ⟨hbits, horder, hequality⟩ := nullOperator_compares op (left.isNull || right.isNull)
    have hwl := hl hleft
    have hwr := hr hright
    refine ⟨Term.isPlain_operation.mpr ⟨⟨nullOperator_ne hxor _, hwl.isPlain⟩, hwr.isPlain⟩, ?_,
      hequality, ?_, fun n => ?_⟩
    · simp [Term.written, Written.markers, Term.markers_encloseIf, hwl.markers, hwr.markers,
        Expr.leaves]
    · simp only [Term.isCommon, Expr.isCommon, hbits, horder, hwl.comparesEquality, hwl.isCommon,
        hwr.isCommon]
    · simp [tree?, hwl.tree, hwr.tree, hswap, Term.written, Written.phrase, Term.phrase_encloseIf,
        Term.markers_encloseIf, hwl.markers]
  unary _ ho he := by
    have hx := ho he
    refine ⟨hx.isPlain, ?_, rfl, hx.isCommon, fun n => ?_⟩
    · simp [Term.written, Written.markers, Term.markers_encloseIf, hx.markers, Expr.leaves]
    · simp [tree?, hx.tree, Term.written, Written.phrase, Term.phrase_encloseIf]
  call _ _ _ he := nomatch he
  case _ _ _ he := nomatch he
  cast _ _ he := nomatch he
  tuple _ he := nomatch he
  named _ _ he := nomatch he
  rowNumber _ _ he := nomatch he

theorem isWritten_compile {s : Scope} {e : Expr} (he : e.isPlain = true) {t : Term}
    (h : s.compile e = .ok t) : s.IsWritten e t :=
  s.respects_isWritten.compile e h he

/-- **The text of a call** of a prepared expression is that of its term. -/
theorem text_statement {s : Scope} {e : Expr} (he : e.isPlain = true) {t : Term}
    (ht : s.compile e = .ok t) {o : Operation} (ho : s.prepare .sqlite e = .ok o)
    {args : List Argument} {st : Statement} (hst : o.statement args = .ok st) :
    st.sql.toList = t.written.text := by
  rw [prepare, ht] at ho
  obtain rfl := Except.ok.inj ho
  have hlist : Leaf.listArg ∉ Fragment.leaves (t.fragments .sqlite) := by
    rw [leaves_compile s .sqlite e ht]
    exact Expr.listArg_notMem_leaves he
  rw [Fragment.text_ofFragments hlist hst]
  exact t.filledText_fragments (isWritten_compile he ht).isPlain

/-- **SQLite reads the whole statement of an expression of operators, with a marker for each leaf,
and the tree that it reads is the one that the expression stands for exactly if every operand that
SQLite would group otherwise stands in parentheses.** That is so if no operator works on bits, and
none that compares for order has another comparison on its left. -/
theorem reads_prepare (s : Scope) (e : Expr) (he : e.isPlain = true) {o : Operation}
    (ho : s.prepare .sqlite e = .ok o) {args : List Argument} {st : Statement}
    (hst : o.statement args = .ok st) :
    ∃ t tree read, s.compile e = .ok t ∧ s.tree? 0 e = some tree ∧
      Reading.phrase.run ⟨Token.ofText st.sql, 0⟩ = .ok (read, ⟨[], e.leaves.length⟩) ∧
      (read = tree ↔ t.written.fits = true) ∧ (e.isCommon = true → read = tree) := by
  obtain ⟨t, ht⟩ : ∃ t, s.compile e = .ok t := by
    cases ht : s.compile e with
    | error fault => simp [prepare, ht, Except.map] at ho
    | ok t => exact ⟨t, rfl⟩
  have hwritten := isWritten_compile he ht
  have hlegal := t.legal_written hwritten.isPlain
  have htight := t.tight_written hwritten.isPlain
  have hspells := Written.spells hlegal htight Token.isGap_empty
  have htokens : Token.ofText st.sql = t.written.tokens "" :=
    hspells.ofText (text_statement he ht ho hst)
  have hread := Written.run_phrase_regrouped hlegal htight ""
  rw [← htokens, hwritten.markers] at hread
  have hiff := Written.phrase_regrouped_iff htight 0
  refine ⟨t, _, _, ht, hwritten.tree 0, hread, hiff, fun hcommon => hiff.mpr ?_⟩
  exact (t.fits_written hwritten.isPlain (hwritten.isCommon.trans hcommon)).1

/-- The bits of a comparison are read as a comparison of bits, and a negated comparison beside one with
the absent value as it was meant. -/
theorem reads_prepare_bits :
    let m : Model := ⟨"t", .table, [{ field := "A", name := "a", type := .int64 },
      { field := "B", name := "b", type := .int64 }], [], []⟩
    let s : Scope := ⟨m, false, none⟩
    let bits : Expr := .binary .bitAnd (.binary .eq (.property "A") (.property "B")) .arg
    let negated : Expr := .binary .or (.binary .ne (.constant .null) (.property "A"))
      (.unary .not (.binary .lt (.property "B") .arg))
    (∃ o st read, s.prepare .sqlite bits = .ok o ∧ o.statement [.value (.int 1)] = .ok st ∧
      Reading.phrase.run ⟨Token.ofText st.sql, 0⟩ = .ok (read, ⟨[], 1⟩) ∧
      read ≠ .binary (.binary (.quoted "a") .equal (.quoted "b")) .bitAnd (.parameter 0)) ∧
    ∃ o st, s.prepare .sqlite negated = .ok o ∧ o.statement [.value (.int 1)] = .ok st ∧
      Reading.phrase.run ⟨Token.ofText st.sql, 0⟩ =
        .ok (.binary (.binary (.quoted "a") .isNot (.datum .null)) .or
          (.unary .not (.binary (.quoted "b") .less (.parameter 0))), ⟨[], 1⟩) := by
  intro m s bits negated
  have hstatement : ∀ e o, s.prepare .sqlite e = .ok o → e.leaves = [.arg] →
      ∃ st, o.statement [.value (.int 1)] = .ok st := fun e o ho he =>
    ((binds_prepare (by simp [Dialect.shipped]) ho).accepts _).mpr (by rw [he]; rfl)
  constructor
  · obtain ⟨o, ho⟩ : ∃ o, s.prepare .sqlite bits = .ok o := ⟨_, rfl⟩
    obtain ⟨st, hst⟩ := hstatement bits o ho rfl
    obtain ⟨t, tree, read, ht, htree, hread, hiff, -⟩ := reads_prepare s bits rfl ho hst
    obtain rfl := Except.ok.inj ht
    obtain rfl := Option.some.inj htree
    exact ⟨o, st, read, ho, hst, hread, fun h => absurd (hiff.mp h) (by decide)⟩
  · obtain ⟨o, ho⟩ : ∃ o, s.prepare .sqlite negated = .ok o := ⟨_, rfl⟩
    obtain ⟨st, hst⟩ := hstatement negated o ho rfl
    obtain ⟨t, tree, read, ht, htree, hread, -, hcommon⟩ := reads_prepare s negated rfl ho hst
    obtain rfl := Option.some.inj htree
    obtain rfl := hcommon rfl
    exact ⟨o, st, ho, hst, hread⟩

end Scope

end EntitySql
