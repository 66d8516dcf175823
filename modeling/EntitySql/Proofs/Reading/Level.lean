import EntitySql.Proofs.Reading.Grammar

/-!
# The levels of an expression

Which operands may stand bare. An operand fits a level when its outermost operator binds tighter;
a rendered term is grouped by a table of priorities when all its bare operands fit the levels on
which they are read. The parentheses that the renderer leaves out are exactly those that the
library's own table does not need.

## Main definitions

* `Term.IsExpression`, `Term.IsOperand`: terms that are expressions, with a branch in every choice
  or not
* `Grammar.Fits`, `Grammar.Grouped`: bare operands that bind tightly enough
* `Grammar.Stops`: nothing that follows continues a term of a level

## Main results

* `Grammar.grouped_declared`: every term is grouped by the priorities of the library
* `Grammar.unary_lt_of_leading`: a term of a level does not begin with a looser operator
* `Grammar.leading_right_of_is`: what is bare behind `IS` does not begin with `NOT`
* `Grammar.chain_of_stops`, `Grammar.chain_operation`: when a chain ends and when it goes on
-/

namespace EntitySql

namespace Term

/-- Whether a node may stand in an expression: it is not a part of a query, and a choice has a
branch. -/
def isExpressionNode : Term → Bool
  | named .. | all _ | paging .. => false
  | case _ branches _ => !branches.isEmpty
  | _ => true

/-- A term is an expression. -/
def IsExpression (t : Term) : Prop := t.Forall fun s => s.isExpressionNode = true

/-- Whether a node is not a part of a query. -/
def isOperandNode : Term → Bool
  | named .. | all _ | paging .. => false
  | _ => true

/-- A term has no part of a query in it; its choices may be without branches. -/
def IsOperand (t : Term) : Prop := t.Forall fun s => s.isOperandNode = true

theorem isOperandNode_of_isExpressionNode {t : Term} (h : t.isExpressionNode = true) :
    t.isOperandNode = true := by
  cases t <;> simp_all [isExpressionNode, isOperandNode]

/-- The operator in front of an operand that a term begins with. -/
def leading? : Term → Option UnaryOperator
  | unary op _ => some op
  | operation left op _ => if left.needsParens op false then none else left.leading?
  | _ => none

end Term

namespace Grammar

/-! ### The symbols that begin a term -/

@[simp] theorem unaryOf?_unarySymbol (u : UnaryOperator) :
    unaryOf? (Term.unarySymbol u) = some u := by
  cases u <;> rfl

/-- The symbols by which the reader tells that no expression comes next. -/
def closers : List Symbol := [.mark ")", .mark "*", .word "WHEN", .word "DISTINCT"]

/-- An expression begins with a symbol that tells so, which is an operator just if the expression
begins with one. -/
theorem exists_head?_symbols (d : Dialect) {t : Term} (ht : t.IsOperand) :
    ∃ x, (t.symbols d).head? = some x ∧ unaryOf? x = t.leading? ∧ x ∉ closers := by
  induction ht with
  | @column qualifier name =>
    cases qualifier <;> exact ⟨.name _, rfl, rfl, by simp [closers]⟩
  | @constant v =>
    cases hv : v.isNull
    · exact ⟨.value v, by simp [Term.symbols, hv], rfl, by simp [closers]⟩
    · exact ⟨.word "NULL", by simp [Term.symbols, hv], rfl, by decide⟩
  | argument => exact ⟨.slot _, rfl, rfl, by simp [closers]⟩
  | @operation left right op _ _ _ ih =>
    obtain ⟨x, hx, hu, hc⟩ := ih
    cases hw : left.needsParens op false with
    | true =>
      exact ⟨.mark "(", by simp [Term.symbols, Term.wrapSymbols, hw],
        by simp only [Term.leading?, hw]; rfl, by decide⟩
    | false =>
      exact ⟨x, by simp [Term.symbols, Term.wrapSymbols, hw, hx],
        by simp [Term.leading?, hw, hu], hc⟩
  | @unary op =>
    exact ⟨Term.unarySymbol op, rfl, by simp [Term.leading?], by cases op <;> decide⟩
  | @call f => exact ⟨.word f.sql, rfl, by cases f <;> rfl, by cases f <;> decide⟩
  | case => exact ⟨.word "CASE", rfl, rfl, by decide⟩
  | cond => exact ⟨.word "CASE", rfl, rfl, by decide⟩
  | cast => exact ⟨.word "CAST", rfl, rfl, by decide⟩
  | tuple => exact ⟨.mark "(", rfl, rfl, by decide⟩
  | rowNumber => exact ⟨.word "ROW_NUMBER", rfl, rfl, by decide⟩
  | named h | all h | paging h => simp [Term.isOperandNode] at h

/-! ### Grouping by a table of priorities -/

/-- The outermost operator of a term has a priority below `n`. -/
def Fits (g : Priorities) (n : Nat) : Term → Prop
  | .operation _ op _ => g.binary op < n
  | .unary op _ => g.unary op < n
  | _ => True

theorem Fits.mono {g : Priorities} {m n : Nat} {t : Term} (h : Fits g m t) (hmn : m ≤ n) :
    Fits g n t := by
  cases t with
  | operation | unary => exact Nat.lt_of_lt_of_le h hmn
  | _ => trivial

/-- The operands that stand bare in a term bind tightly enough to be read as its operands. -/
def Grouped (g : Priorities) : Term → Prop
  | .operation left op right =>
    g.binary op < g.levels ∧
      (left.needsParens op false = false → Fits g (g.binary op + 1) left) ∧
      (Term.wrapsRight op right = false → Fits g (g.binary op) right)
  | .unary op _ => g.unary op < g.levels
  | _ => True

theorem fits_declared {n : Nat} {t : Term} :
    Fits .declared n t ↔ ∀ p ∈ t.priority?, p < n := by
  cases t <;> simp [Fits, Term.priority?, Priorities.declared]

/-- No operator between two operands has the priority of those in front of one. -/
theorem priority_ne_two (op : Operator) : op.priority ≠ 2 := by
  cases op <;> decide

/-- An operand that begins with an operator and has no parentheses binds tighter than the
operator. -/
theorem two_lt_of_bare {u : UnaryOperator} {x : Term} {op : Operator} {onRight : Bool}
    (h : (Term.unary u x).needsParens op onRight = false) : 2 < op.priority := by
  have hne := priority_ne_two op
  cases u with
  | negate =>
    have hlt : ¬op.priority < 2 := of_decide_eq_false h
    omega
  | not =>
    have hlt : ¬op.priority < 7 := of_decide_eq_false h
    omega

/-- An operand without parentheses binds at least as tightly as the operator. -/
theorem priority_le_of_bare {t : Term} {op : Operator} (h : t.needsParens op false = false) :
    ∀ p ∈ t.priority?, p ≤ op.priority := by
  cases t with
  | operation l o r => simpa [Term.needsParens, Term.priority?] using h
  | unary u x =>
    have hlt := two_lt_of_bare h
    simp [Term.priority?, UnaryOperator.priority]
    omega
  | _ => simp [Term.priority?]

/-- A right operand without parentheses binds tighter than the operator. -/
theorem priority_lt_of_bare {t : Term} {op : Operator} (h : Term.wrapsRight op t = false) :
    ∀ p ∈ t.priority?, p < op.priority := by
  by_cases hin : op = .isIn
  · subst hin
    cases t <;> simp_all [Term.wrapsRight, Term.isTuple, Term.priority?]
  · have hright : t.needsParens op true = false := by simpa [Term.wrapsRight, hin] using h
    cases t with
    | operation l o r =>
      simp [Term.needsParens, Term.priority?] at hright ⊢
      omega
    | unary u x => simpa [Term.priority?, UnaryOperator.priority] using two_lt_of_bare hright
    | _ => simp [Term.priority?]

/-- The priorities that the library declares are those by which it renders. -/
theorem grouped_declared (t : Term) : Grouped .declared t := by
  cases t with
  | operation left op right =>
    refine ⟨by cases op <;> decide, fun h => fits_declared.mpr fun p hp => ?_,
      fun h => fits_declared.mpr (priority_lt_of_bare h)⟩
    exact Nat.lt_succ_of_le (priority_le_of_bare h p hp)
  | unary op operand => exact (by decide : 2 < 10)
  | _ => trivial

/-- An expression of a level does not begin with an operator of a looser one. -/
theorem unary_lt_of_leading {g : Priorities} {t : Term} (ht : t.Forall (Grouped g)) {n : Nat}
    (hn : Fits g n t) {u : UnaryOperator} (hu : t.leading? = some u) : g.unary u < n := by
  induction ht generalizing n with
  | @operation left right op hop _ _ ih =>
    cases hw : left.needsParens op false with
    | true => simp [Term.leading?, hw] at hu
    | false =>
      have hleft : g.unary u < g.binary op + 1 :=
        ih (hop.2.1 hw) (by simpa [Term.leading?, hw] using hu)
      have hop : g.binary op < n := hn
      omega
  | unary =>
    obtain rfl : _ = u := Option.some.inj hu
    exact hn
  | _ => simp [Term.leading?] at hu

/-- A term that begins with `NOT` is a negation, or its operator binds at most as tightly as
`AND`. -/
theorem priority_of_leading_not {t : Term} (h : t.leading? = some .not) :
    (∃ x, t = .unary .not x) ∨ ∃ l op r, t = .operation l op r ∧ 7 ≤ op.priority := by
  fun_induction Term.leading? t with
  | case1 op x => exact .inl ⟨x, by rw [Option.some.inj h]⟩
  | case2 => simp at h
  | case3 left op right hw ih =>
    refine .inr ⟨left, op, right, rfl, ?_⟩
    have hbare : left.needsParens op false = false := by simpa using hw
    rcases ih h with ⟨x, rfl⟩ | ⟨l, o, r, rfl, ho⟩
    · exact Nat.le_of_not_lt (of_decide_eq_false hbare)
    · exact Nat.le_trans ho (priority_le_of_bare hbare o.priority rfl)
  | case4 => simp at h

/-- So the right operand of `IS` does not begin with `NOT`. -/
theorem leading_right_of_is {t : Term} (h : Term.wrapsRight .is t = false) :
    t.leading? ≠ some .not := by
  intro hnot
  rcases priority_of_leading_not hnot with ⟨x, rfl⟩ | ⟨l, o, r, rfl, ho⟩
  · simp [Term.wrapsRight, Term.needsParens, Operator.priority] at h
  · have hlt := priority_lt_of_bare h o.priority rfl
    have his : Operator.is.priority = 3 := rfl
    omega

/-! ### What may follow a term -/

/-- Nothing that follows continues a term of level `n`: no point, and no operator that binds
tighter than the level. -/
structure Stops (g : Priorities) (n : Nat) (rest : List Symbol) : Prop where
  /-- No point follows. -/
  no_point : rest.head? ≠ some (.mark ".")
  /-- An operator that follows does not bind tighter. -/
  le_binary : ∀ op ∈ (operatorAt? rest).map Prod.fst, n ≤ g.binary op

theorem Stops.mono {g : Priorities} {m n : Nat} {rest : List Symbol} (h : Stops g n rest)
    (hmn : m ≤ n) : Stops g m rest :=
  ⟨h.no_point, fun op hop => Nat.le_trans hmn (h.le_binary op hop)⟩

/-- The symbols that end a term of any level. -/
def delimiters : List Symbol :=
  [.mark ",", .mark ")", .word "WHEN", .word "THEN", .word "ELSE", .word "END", .word "AS",
    .word "DESC", .word "ORDER"]

/-- Nothing follows, or a symbol that ends a term. -/
def Delimits (rest : List Symbol) : Prop := ∀ x ∈ rest.head?, x ∈ delimiters

theorem Delimits.nil : Delimits [] := by simp [Delimits]

theorem Delimits.cons {x : Symbol} (rest : List Symbol) (hx : x ∈ delimiters) :
    Delimits (x :: rest) := by
  simpa [Delimits] using hx

theorem Delimits.stops {rest : List Symbol} (h : Delimits rest) (g : Priorities) (n : Nat) :
    Stops g n rest := by
  cases rest with
  | nil => exact ⟨by simp, by simp [operatorAt?]⟩
  | cons x rest =>
    have hx : x ∈ delimiters := h x rfl
    have hall : ∀ y ∈ delimiters, y ≠ .mark "." ∧ y ≠ .word "IS" ∧
        Operator.all.find? (fun op => Term.operatorSymbols op = [y]) = none := by decide
    obtain ⟨hpoint, his, hfind⟩ := hall x hx
    refine ⟨by simpa using hpoint, ?_⟩
    rw [operatorAt?, if_neg (fun h => his h.1), hfind]
    simp

theorem length_operatorSymbols_pos (op : Operator) : 0 < (Term.operatorSymbols op).length := by
  cases op <;> decide

/-- An operator is read as itself, where `NOT` does not follow `IS`. -/
theorem operatorAt?_operatorSymbols {op : Operator} {rest : List Symbol}
    (h : op = .is → rest.head? ≠ some (.word "NOT")) :
    operatorAt? (Term.operatorSymbols op ++ rest) = some (op, rest) := by
  cases op with
  | is => simp [Term.operatorSymbols, operatorAt?, h rfl]; rfl
  | isNot => rfl
  | _ => rfl

theorem stops_operatorSymbols {g : Priorities} {n : Nat} {op : Operator} {rest : List Symbol}
    (h : op = .is → rest.head? ≠ some (.word "NOT")) (hn : n ≤ g.binary op) :
    Stops g n (Term.operatorSymbols op ++ rest) := by
  refine ⟨by cases op <;> simp [Term.operatorSymbols, Operator.sql], fun o ho => ?_⟩
  rw [operatorAt?_operatorSymbols h] at ho
  obtain rfl : op = o := by simpa using ho
  exact hn

/-! ### The levels -/

section

variable {g : Priorities} {atom operand : Reader Term} {n p : Nat} {xs rest : List Symbol}
  {t : Term}

/-- Behind its left operand, a chain ends where no operator of its level follows. -/
theorem chain_of_stops (h : Stops g (p + 1) rest) (count : Nat) (left : Term) :
    chain g p operand count left rest = some (left, rest) := by
  cases count with
  | zero => rfl
  | succ count =>
    cases hop : operatorAt? rest with
    | none => simp [chain, hop]
    | some found =>
      obtain ⟨op, behind⟩ := found
      have hle : p + 1 ≤ g.binary op := h.le_binary op (by simp [hop])
      have hne : g.binary op ≠ p := by omega
      simp [chain, hop, hne]

/-- A chain goes on with an operator of its level. -/
theorem chain_operation {op : Operator} {count : Nat} {left right : Term} {ys : List Symbol}
    (h : op = .is → ys.head? ≠ some (.word "NOT")) (hop : g.binary op = p)
    (hright : operand ys = some (right, rest)) :
    chain g p operand (count + 1) left (Term.operatorSymbols op ++ ys) =
      chain g p operand count (.operation left op right) rest := by
  rw [chain, operatorAt?_operatorSymbols h]
  simp [hop, hright]

/-- No operator of the priority begins the symbols. -/
def Unprefixed (g : Priorities) (n : Nat) (xs : List Symbol) : Prop :=
  ∃ x, xs.head? = some x ∧ ∀ u, unaryOf? x = some u → g.unary u ≠ n

theorem Unprefixed.append {ys : List Symbol} (h : Unprefixed g n xs) :
    Unprefixed g n (xs ++ ys) := by
  obtain ⟨x, hx, hu⟩ := h
  exact ⟨x, by simp [List.head?_append, hx], hu⟩

theorem prefixed_of_unprefixed (h : Unprefixed g n xs) (inner : Reader Term) :
    prefixed g n inner xs = inner xs := by
  obtain ⟨x, hx, hu⟩ := h
  obtain ⟨ys, rfl⟩ := List.head?_eq_some_iff.mp hx
  cases hop : unaryOf? x with
  | none => simp [prefixed, hop]
  | some u => simp [prefixed, hop, hu u hop]

/-- A term that is read on a level begins a chain on the next. -/
theorem level_succ (h : Unprefixed g n xs) (hread : level g atom n xs = some (t, rest)) :
    level g atom (n + 1) xs =
      chain g n (prefixed g n (level g atom n)) rest.length t rest := by
  rw [level, prefixed_of_unprefixed h, hread]
  rfl

/-- What is read as an atom is read on every level. -/
theorem level_of_atom (h : ∀ p, Unprefixed g p xs) (hread : atom xs = some (t, rest))
    (hrest : Stops g n rest) : level g atom n xs = some (t, rest) := by
  induction n with
  | zero => exact hread
  | succ n ih =>
    rw [level_succ (h n) (ih (hrest.mono n.le_succ)), chain_of_stops hrest]

end

end Grammar

end EntitySql
