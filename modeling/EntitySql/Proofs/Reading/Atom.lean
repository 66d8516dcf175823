import EntitySql.Proofs.Reading.Level

/-!
# Reading atoms

The terms without an outermost operator, read from their symbols by a reader that takes the terms
inside them. What is read is the canonical form of the term: a choice between two values is a choice
between branches, a list of one item is the item, and the target of a conversion is the first type
with that native name.

## Main definitions

* `Term.canonical`: the tree that stands for all trees of the same spelling
* `Grammar.Takes`: a reader takes a term off the front of what ends it

## Main results

* `Grammar.separated_joined`: items that are divided by commas are read one by one
* `Grammar.parenthesized_list`, `Grammar.arguments_call`, `Grammar.choice_case`,
  `Grammar.conversion_cast`, `Grammar.numbering_rowNumber`: what is read behind a parenthesis, a
  function and each keyword
-/

namespace EntitySql

namespace Term

/-- The first type with the native name of the given one. -/
def canonicalType (d : Dialect) (target : ColumnType) : ColumnType :=
  (ColumnType.builtIn.find? fun type => d.nativeType type none = d.nativeType target none).getD
    target

mutual

/-- The tree that stands for all trees of the same spelling. -/
def canonical (d : Dialect) : Term → Term
  | operation left op right => .operation (left.canonical d) op (right.canonical d)
  | unary op operand => .unary op (operand.canonical d)
  | call function distinct args => .call function distinct (canonicalList d args)
  | case operand branches otherwise =>
    .case (canonicalOption d operand) (canonicalBranches d branches) (canonicalOption d otherwise)
  | cond condition yes no =>
    .case none [(condition.canonical d, yes.canonical d)] (some (no.canonical d))
  | cast operand target => .cast (operand.canonical d) (canonicalType d target)
  | tuple [item] => item.canonical d
  | tuple items => .tuple (canonicalList d items)
  | named operand name => .named (operand.canonical d) name
  | rowNumber partition order =>
    .rowNumber (canonicalList d partition) (canonicalOrder d order)
  | t => t

/-- The canonical forms of terms. -/
def canonicalList (d : Dialect) : List Term → List Term
  | [] => []
  | t :: ts => t.canonical d :: canonicalList d ts

/-- The canonical form of an optional term. -/
def canonicalOption (d : Dialect) : Option Term → Option Term
  | none => none
  | some t => some (t.canonical d)

/-- The canonical forms of branches. -/
def canonicalBranches (d : Dialect) : List (Term × Term) → List (Term × Term)
  | [] => []
  | (condition, result) :: rest =>
    (condition.canonical d, result.canonical d) :: canonicalBranches d rest

/-- The canonical forms of order terms. -/
def canonicalOrder (d : Dialect) : List (Term × Bool) → List (Term × Bool)
  | [] => []
  | (t, descending) :: rest => (t.canonical d, descending) :: canonicalOrder d rest

end

end Term

namespace Grammar

/-! ### Reading the parts of an atom -/

theorem accept_self (x : Symbol) (rest : List Symbol) : accept x (x :: rest) = (true, rest) := by
  simp [accept]

theorem accept_of_head? {x : Symbol} {xs : List Symbol} (h : xs.head? ≠ some x) :
    accept x xs = (false, xs) := by
  cases xs with
  | nil => rfl
  | cons y ys =>
    have hne : y ≠ x := by simpa using h
    simp [accept, hne]

@[simp] theorem expect_self (x : Symbol) (rest : List Symbol) :
    expect x (x :: rest) = some rest := by
  simp [expect]

/-- Lists of symbols that are divided by commas. -/
def joined : List (List Symbol) → List Symbol
  | [] => []
  | [xs] => xs
  | xs :: rest => xs ++ .mark "," :: joined rest

theorem listSymbols_eq (d : Dialect) (ts : List Term) :
    Term.listSymbols d ts = joined (ts.map (Term.symbols d)) := by
  induction ts with
  | nil => rfl
  | cons t ts ih =>
    cases ts with
    | nil => rfl
    | cons u us => simp only [Term.listSymbols, joined, List.map_cons] at ih ⊢; rw [ih]

theorem orderSymbols_eq (d : Dialect) (os : List (Term × Bool)) :
    Term.orderSymbols d os =
      joined (os.map fun b => b.1.symbols d ++ Term.directionSymbols b.2) := by
  induction os with
  | nil => rfl
  | cons b os ih =>
    cases os with
    | nil => rfl
    | cons u us =>
      simp only [Term.orderSymbols, joined, List.map_cons, List.append_assoc] at ih ⊢
      rw [ih]

theorem length_le_joined (l : List (List Symbol)) : l.length ≤ (joined l).length + 1 := by
  fun_induction joined l with
  | case1 => simp
  | case2 => simp
  | case3 xs rest _ ih => simp; omega

theorem length_le_of_mem_joined {l : List (List Symbol)} {xs : List Symbol} (h : xs ∈ l) :
    xs.length ≤ (joined l).length := by
  fun_induction joined l with
  | case1 => simp at h
  | case2 => simp_all
  | case3 ys rest _ ih =>
    rcases List.mem_cons.mp h with rfl | h
    · simp
    · have := ih h
      simp
      omega

/-- Items that are divided by commas are read one by one. -/
theorem separated_joined {α ι : Type} {item : Reader α} {write : ι → List Symbol} {value : ι → α}
    {P : List Symbol → Prop} (hcomma : ∀ rest, P (.mark "," :: rest)) {items : List ι}
    (hne : items ≠ [])
    (h : ∀ i ∈ items, ∀ rest, P rest → item (write i ++ rest) = some (value i, rest)) {n : Nat}
    (hn : items.length ≤ n) {rest : List Symbol} (hrest : P rest)
    (hend : rest.head? ≠ some (.mark ",")) :
    separated item n (joined (items.map write) ++ rest) = some (items.map value, rest) := by
  induction items generalizing n with
  | nil => exact absurd rfl hne
  | cons i items ih =>
    obtain ⟨n, rfl⟩ : ∃ m, n = m + 1 := ⟨n - 1, by simp at hn; omega⟩
    cases items with
    | nil =>
      have hread := h i List.mem_cons_self rest hrest
      simp [joined, separated, hread, accept_of_head? hend]
    | cons j items =>
      have hread := h i List.mem_cons_self
        (.mark "," :: (joined ((j :: items).map write) ++ rest)) (hcomma _)
      have hothers := ih (by simp) (fun k hk => h k (List.mem_cons_of_mem _ hk))
        (Nat.le_of_succ_le_succ hn)
      have happend : joined ((i :: j :: items).map write) ++ rest =
          write i ++ (.mark "," :: (joined ((j :: items).map write) ++ rest)) := by
        simp [joined]
      rw [happend, separated, hread]
      simp only [Option.bind_eq_bind, Option.bind_some, accept_self, hothers]
      rfl

/-! ### Reading an atom -/

section

variable {d : Dialect} {read : Reader Term}

/-- A reader takes an expression off the front of what ends it. -/
def Takes (d : Dialect) (read : Reader Term) (t : Term) : Prop :=
  ∀ rest, Delimits rest → read (t.symbols d ++ rest) = some (t.canonical d, rest)

theorem canonicalList_eq (d : Dialect) (ts : List Term) :
    Term.canonicalList d ts = ts.map (Term.canonical d) := by
  induction ts with
  | nil => rfl
  | cons t ts ih => rw [Term.canonicalList, ih, List.map_cons]

theorem canonicalOrder_eq (d : Dialect) (os : List (Term × Bool)) :
    Term.canonicalOrder d os = os.map fun b => (b.1.canonical d, b.2) := by
  induction os with
  | nil => rfl
  | cons b os ih => rw [Term.canonicalOrder, ih, List.map_cons]

/-- Terms that are divided by commas are read up to a delimiter that is no comma. -/
theorem separated_list {ts : List Term} (hne : ts ≠ []) (h : ∀ t ∈ ts, Takes d read t)
    {x : Symbol} (hx : x ∈ delimiters) (hcomma : x ≠ .mark ",") (rest : List Symbol) :
    separated read (Term.listSymbols d ts ++ x :: rest).length
      (Term.listSymbols d ts ++ x :: rest) = some (Term.canonicalList d ts, x :: rest) := by
  have hlength := length_le_joined (ts.map (Term.symbols d))
  rw [listSymbols_eq, canonicalList_eq]
  refine separated_joined (P := Delimits) (fun _ => Delimits.cons _ (by decide)) hne h ?_
    (Delimits.cons rest hx) (by simpa using hcomma)
  simp at hlength ⊢
  omega

/-- What follows a function name or an opening parenthesis begins with no closer. -/
theorem head?_list {ts : List Term} (hne : ts ≠ []) (h : ∀ t ∈ ts, t.IsOperand)
    {c : Symbol} (hc : c ∈ closers) (rest : List Symbol) :
    (Term.listSymbols d ts ++ rest).head? ≠ some c := by
  cases ts with
  | nil => exact absurd rfl hne
  | cons t ts =>
    obtain ⟨x, hx, -, hclosers⟩ := exists_head?_symbols d (h t List.mem_cons_self)
    have hhead : (Term.listSymbols d (t :: ts) ++ rest).head? = some x := by
      cases ts <;> simp [Term.listSymbols, hx]
    rw [hhead]
    rintro ⟨⟩
    exact hclosers hc

theorem head?_expression {t : Term} (h : t.IsOperand) {c : Symbol} (hc : c ∈ closers)
    (rest : List Symbol) : (t.symbols d ++ rest).head? ≠ some c := by
  simpa [Term.listSymbols] using
    head?_list (d := d) (List.cons_ne_nil t []) (by simpa using h) hc rest

/-- A list in parentheses. -/
theorem parenthesized_list {ts : List Term} (h : ∀ t ∈ ts, Takes d read t)
    (hexpr : ∀ t ∈ ts, t.IsOperand) (rest : List Symbol) :
    parenthesized read (Term.listSymbols d ts ++ .mark ")" :: rest) =
      some ((Term.tuple ts).canonical d, rest) := by
  cases ts with
  | nil => rfl
  | cons t ts =>
    have hread := separated_list (x := .mark ")") (List.cons_ne_nil t ts) h
      (by decide) (by decide) rest
    have hhead := head?_list (d := d) (List.cons_ne_nil t ts) hexpr (c := .mark ")") (by decide)
      (.mark ")" :: rest)
    rw [parenthesized, accept_of_head? hhead]
    simp only [hread]
    cases ts with
    | nil => simp [Term.canonicalList, Term.canonical]
    | cons u us => simp [Term.canonicalList, Term.canonical]

/-- A term in parentheses. -/
theorem parenthesized_term {t : Term} (h : Takes d read t) (hexpr : t.IsOperand)
    (rest : List Symbol) :
    parenthesized read (t.symbols d ++ .mark ")" :: rest) = some (t.canonical d, rest) := by
  have hitems : ∀ s ∈ [t], Takes d read s := by simpa using h
  simpa [Term.listSymbols, Term.canonical] using
    parenthesized_list hitems (by simpa using hexpr) rest

theorem arguments_call (f : Function) (distinct : Bool) {args : List Term}
    (h : ∀ t ∈ args, Takes d read t) (hexpr : ∀ t ∈ args, t.IsOperand) (rest : List Symbol) :
    arguments read f (.mark "(" :: (if distinct then [.word "DISTINCT"] else []) ++
      ((if args.isEmpty then [.mark "*"] else Term.listSymbols d args) ++ .mark ")" :: rest)) =
      some ((Term.call f distinct args).canonical d, rest) := by
  cases args with
  | nil => cases distinct <;> simp [arguments, accept, Term.canonical, Term.canonicalList]
  | cons t ts =>
    have hread := separated_list (x := .mark ")") (List.cons_ne_nil t ts) h
      (by decide) (by decide) rest
    have hstar := head?_list (d := d) (List.cons_ne_nil t ts) hexpr (c := .mark "*") (by decide)
      (.mark ")" :: rest)
    have hdistinct := head?_list (d := d) (List.cons_ne_nil t ts) hexpr (c := .word "DISTINCT")
      (by decide) (.mark ")" :: rest)
    cases distinct with
    | false =>
      simp [arguments, accept_of_head? hstar, accept_of_head? hdistinct, hread, Term.canonical,
        -List.length_append]
    | true =>
      simp [arguments, accept_self, accept_of_head? hstar, hread, Term.canonical,
        -List.length_append]

/-- The branches of a choice are read up to a delimiter that begins no other branch. -/
theorem branches_symbols {bs : List (Term × Term)} (hconditions : ∀ b ∈ bs, Takes d read b.1)
    (hresults : ∀ b ∈ bs, Takes d read b.2) {x : Symbol} (hx : x ∈ delimiters)
    (hwhen : x ≠ .word "WHEN") (rest : List Symbol) {n : Nat} (hn : bs.length ≤ n) :
    branches read n (Term.branchSymbols d bs ++ x :: rest) =
      some (Term.canonicalBranches d bs, x :: rest) := by
  induction bs generalizing n with
  | nil =>
    have hhead : (x :: rest).head? ≠ some (.word "WHEN") := by simpa using hwhen
    cases n with
    | zero => rfl
    | succ n => simp [Term.branchSymbols, Term.canonicalBranches, branches, accept_of_head? hhead]
  | cons b bs ih =>
    obtain ⟨condition, result⟩ := b
    obtain ⟨n, rfl⟩ : ∃ m, n = m + 1 := ⟨n - 1, by simp at hn; omega⟩
    have hothers := ih (fun b hb => hconditions b (List.mem_cons_of_mem _ hb))
      (fun b hb => hresults b (List.mem_cons_of_mem _ hb)) (Nat.le_of_succ_le_succ hn)
    have hbehind : Delimits (Term.branchSymbols d bs ++ x :: rest) := by
      cases bs with
      | nil => exact Delimits.cons rest hx
      | cons b bs => exact Delimits.cons _ (by decide)
    have hresult := hresults _ List.mem_cons_self _ hbehind
    have hcondition := hconditions _ List.mem_cons_self
      (.word "THEN" :: (result.symbols d ++ (Term.branchSymbols d bs ++ x :: rest)))
      (Delimits.cons _ (by decide))
    simp only at hcondition hresult
    simp [Term.branchSymbols, Term.canonicalBranches, branches, accept_self, hcondition, hresult,
      hothers]

theorem length_le_branchSymbols (d : Dialect) (bs : List (Term × Term)) :
    bs.length ≤ (Term.branchSymbols d bs).length := by
  induction bs with
  | nil => simp
  | cons b bs ih =>
    simp [Term.branchSymbols]
    omega

/-- What follows `CASE`, up to its end. -/
theorem choice_case (operand : Option Term) (bs : List (Term × Term)) (otherwise : Option Term)
    (hne : operand = none → bs ≠ []) (hoperand : ∀ t ∈ operand, Takes d read t)
    (hexpr : ∀ t ∈ operand, t.IsOperand) (hconditions : ∀ b ∈ bs, Takes d read b.1)
    (hresults : ∀ b ∈ bs, Takes d read b.2) (hotherwise : ∀ t ∈ otherwise, Takes d read t)
    (rest : List Symbol) :
    choice read (Term.optionSymbols d [] operand ++ (Term.branchSymbols d bs ++
      (Term.optionSymbols d [.word "ELSE"] otherwise ++ .word "END" :: rest))) =
      some ((Term.case operand bs otherwise).canonical d, rest) := by
  -- what stands behind the branches, and how it is read
  obtain ⟨x, ys, htail, hx, hwhen⟩ : ∃ x ys,
      Term.optionSymbols d [.word "ELSE"] otherwise ++ .word "END" :: rest = x :: ys ∧
        x ∈ delimiters ∧ x ≠ .word "WHEN" := by
    cases otherwise with
    | none => exact ⟨_, _, rfl, by decide, by decide⟩
    | some t => exact ⟨_, _, rfl, by decide, by decide⟩
  have helse : optional read (.word "ELSE") (x :: ys) =
      some (Term.canonicalOption d otherwise, .word "END" :: rest) := by
    rw [← htail]
    cases otherwise with
    | none => simp [Term.optionSymbols, optional, accept, Term.canonicalOption]
    | some t =>
      have hread := hotherwise t rfl (.word "END" :: rest) (Delimits.cons rest (by decide))
      simp [Term.optionSymbols, optional, accept_self, Term.canonicalOption, hread]
  rw [htail]
  have hbranches := branches_symbols hconditions hresults hx hwhen ys
    (n := (Term.branchSymbols d bs ++ x :: ys).length)
    (Nat.le_trans (length_le_branchSymbols d bs) (by simp))
  cases operand with
  | none =>
    have hhead : (Term.branchSymbols d bs ++ x :: ys).head? = some (.word "WHEN") := by
      cases bs with
      | nil => exact absurd rfl (hne rfl)
      | cons b bs => rfl
    simp [Term.optionSymbols, choice, hhead, hbranches, helse, Term.canonical,
      Term.canonicalOption, -List.length_append]
  | some t =>
    have hfirst := head?_expression (d := d) (hexpr t rfl) (c := .word "WHEN") (by decide)
      (Term.branchSymbols d bs ++ x :: ys)
    have hdelimits : Delimits (Term.branchSymbols d bs ++ x :: ys) := by
      cases bs with
      | nil => exact .cons ys hx
      | cons b bs => exact .cons _ (by decide)
    simp [Term.optionSymbols, choice, hfirst, hoperand t rfl _ hdelimits, hbranches, helse,
      Term.canonical, Term.canonicalOption, -List.length_append, -List.head?_append]

/-- The symbols of a native name close every parenthesis that they open. -/
theorem closing_typeSymbols (hd : d ∈ Dialect.shipped) (target : ColumnType)
    (rest : List Symbol) :
    closing 0 (Term.typeSymbols d target ++ .mark ")" :: rest) =
      some (Term.typeSymbols d target, rest) := by
  cases target with
  | custom name =>
    rw [Term.typeSymbols, Term.nativeType_custom hd]
    rcases Dialect.mem_shipped.mp hd with rfl | rfl | rfl <;> rfl
  | _ => rcases Dialect.mem_shipped.mp hd with rfl | rfl | rfl <;> rfl

/-- Native names are told apart by their symbols. -/
theorem typeSymbols_eq_iff (hd : d ∈ Dialect.shipped) : ∀ a ∈ ColumnType.builtIn,
    ∀ b ∈ ColumnType.builtIn, Term.typeSymbols d a = Term.typeSymbols d b ↔
      d.nativeType a none = d.nativeType b none := by
  rcases Dialect.mem_shipped.mp hd with rfl | rfl | rfl <;> decide +kernel

/-- Every native name is that of a type that does not come from a program. -/
theorem exists_builtIn (hd : d ∈ Dialect.shipped) (target : ColumnType) :
    ∃ b ∈ ColumnType.builtIn, d.nativeType b none = d.nativeType target none := by
  cases target with
  | custom name => exact ⟨.text, by decide, (Term.nativeType_custom hd name).symm⟩
  | _ => exact ⟨_, by decide, rfl⟩

/-- The type that a native name is read as. -/
theorem find?_typeSymbols (hd : d ∈ Dialect.shipped) (target : ColumnType) :
    (ColumnType.builtIn.find? fun type => Term.typeSymbols d type = Term.typeSymbols d target) =
      some (Term.canonicalType d target) := by
  obtain ⟨b, hb, hname⟩ := exists_builtIn hd target
  have hsame : ∀ type ∈ ColumnType.builtIn,
      decide (Term.typeSymbols d type = Term.typeSymbols d target) =
        decide (d.nativeType type none = d.nativeType target none) := by
    intro type htype
    have htarget : Term.typeSymbols d target = Term.typeSymbols d b := by
      rw [Term.typeSymbols, Term.typeSymbols, hname]
    rw [htarget, ← hname]
    exact decide_eq_decide.mpr (typeSymbols_eq_iff hd type htype b hb)
  rw [← List.head?_filter, List.filter_congr hsame, List.head?_filter, Term.canonicalType]
  cases hfind : ColumnType.builtIn.find? fun type =>
      decide (d.nativeType type none = d.nativeType target none) with
  | some type => rfl
  | none => exact absurd hname (by simpa using List.find?_eq_none.mp hfind b hb)

theorem conversion_cast (hd : d ∈ Dialect.shipped) {operand : Term} (h : Takes d read operand)
    (target : ColumnType) (rest : List Symbol) :
    conversion d read (.mark "(" :: (operand.symbols d ++ .word "AS" ::
      (Term.typeSymbols d target ++ .mark ")" :: rest))) =
      some ((Term.cast operand target).canonical d, rest) := by
  have hoperand := h (.word "AS" :: (Term.typeSymbols d target ++ .mark ")" :: rest))
    (Delimits.cons _ (by decide))
  simp [conversion, hoperand, closing_typeSymbols hd, find?_typeSymbols hd, Term.canonical]

/-- An order term and its direction are read up to a comma or the end of the list. -/
theorem ordering_symbols {t : Term} (h : Takes d read t) (descending : Bool) {rest : List Symbol}
    (hrest : Delimits rest ∧ rest.head? ≠ some (.word "DESC")) :
    ordering read (t.symbols d ++ Term.directionSymbols descending ++ rest) =
      some ((t.canonical d, descending), rest) := by
  cases descending with
  | false => simp [ordering, Term.directionSymbols, h rest hrest.1, accept_of_head? hrest.2]
  | true =>
    have hread := h (.word "DESC" :: rest) (Delimits.cons rest (by decide))
    simp [ordering, Term.directionSymbols, hread, accept_self]

theorem separated_order {os : List (Term × Bool)} (hne : os ≠ [])
    (h : ∀ b ∈ os, Takes d read b.1) (rest : List Symbol) :
    separated (ordering read) (Term.orderSymbols d os ++ .mark ")" :: rest).length
      (Term.orderSymbols d os ++ .mark ")" :: rest) =
        some (Term.canonicalOrder d os, .mark ")" :: rest) := by
  have hlength :=
    length_le_joined (os.map fun b => b.1.symbols d ++ Term.directionSymbols b.2)
  rw [orderSymbols_eq, canonicalOrder_eq]
  refine separated_joined
    (P := fun rest => Delimits rest ∧ rest.head? ≠ some (.word "DESC"))
    (fun _ => ⟨Delimits.cons _ (by decide), by simp⟩) hne
    (fun b hb rest hrest => ordering_symbols (h b hb) b.2 hrest) ?_
    ⟨Delimits.cons rest (by decide), by simp⟩ (by simp)
  simp at hlength ⊢
  omega

/-- What follows `ROW_NUMBER`. -/
theorem numbering_rowNumber {partition : List Term} {order : List (Term × Bool)}
    (hpartition : ∀ t ∈ partition, Takes d read t) (horder : ∀ b ∈ order, Takes d read b.1)
    (rest : List Symbol) :
    numbering read (.mark "(" :: .mark ")" :: .word "OVER" :: .mark "(" ::
      ((if partition.isEmpty then []
        else .word "PARTITION" :: .word "BY" :: Term.listSymbols d partition) ++
      ((if order.isEmpty then [] else .word "ORDER" :: .word "BY" :: Term.orderSymbols d order) ++
        .mark ")" :: rest))) =
      some ((Term.rowNumber partition order).canonical d, rest) := by
  -- the order terms, whatever stands before them
  obtain ⟨x, ys, htail, hx, hcomma, hkeyword⟩ : ∃ x ys,
      (if order.isEmpty then [] else .word "ORDER" :: .word "BY" :: Term.orderSymbols d order) ++
        .mark ")" :: rest = x :: ys ∧ x ∈ delimiters ∧ x ≠ .mark "," ∧
          x ≠ .word "PARTITION" := by
    cases order with
    | nil => exact ⟨_, _, rfl, by decide, by decide, by decide⟩
    | cons b os => exact ⟨_, _, rfl, by decide, by decide, by decide⟩
  have hclause : clause (ordering read) (.word "ORDER") (x :: ys) =
      some (Term.canonicalOrder d order, .mark ")" :: rest) := by
    rw [← htail]
    cases order with
    | nil => simp [clause, accept, Term.canonicalOrder]
    | cons b os =>
      have hread := separated_order (List.cons_ne_nil b os) horder rest
      simp [clause, accept_self, hread, -List.length_append]
  rw [htail]
  cases partition with
  | nil =>
    have hhead : (x :: ys).head? ≠ some (.word "PARTITION") := by simpa using hkeyword
    have hfirst : clause read (.word "PARTITION") (x :: ys) = some ([], x :: ys) := by
      simp [clause, accept_of_head? hhead]
    simp [numbering, hfirst, hclause, Term.canonical, Term.canonicalList]
  | cons t ts =>
    have hread := separated_list (List.cons_ne_nil t ts) hpartition hx hcomma ys
    have hfirst : clause read (.word "PARTITION")
        (.word "PARTITION" :: .word "BY" :: (Term.listSymbols d (t :: ts) ++ x :: ys)) =
          some (Term.canonicalList d (t :: ts), x :: ys) := by
      simp [clause, accept_self, hread, -List.length_append]
    simp [numbering, hfirst, hclause, Term.canonical]

end

end Grammar

end EntitySql
