import EntitySql.Proofs.Reading.Atom
import EntitySql.Sql.Operation

/-!
# Rendering keeps the grouping

Reading a rendered expression gives back the expression, up to what the renderer spells alike. The
induction carries two facts about a term at once: it is read on each level that it fits, and where
the level may go on behind it, it is read as the left operand that begins the chain. The second is
what a chain of operators of one priority needs, because the reader has taken the left operands
before it knows how many operators follow.

The reader of atoms is a parameter of the induction. It reads at least what `Grammar.atom` reads;
where it reads more, terms of a wider class are read.

## Main definitions

* `Grammar.ReadsAtoms`: a reader of atoms for a class of terms
* `Grammar.ReadAs`: symbols that are read as a term on the levels that it fits
* `Grammar.IsGrouped`: expressions that a table of priorities groups

## Main results

* `Grammar.isRead_of_isGroupedBy`: a grouped term is read as its canonical form, on each level
* `Grammar.read_rendered_term`: a rendered expression is read as its canonical form
-/

namespace EntitySql

namespace Grammar

variable {d : Dialect} {g : Priorities} {A : Reader Term → Reader Term} {node : Term → Bool}

/-- Reads a term with at most `depth` others around each other, whose atoms `A` reads. -/
def phraseOf (A : Reader Term → Reader Term) (g : Priorities) : Nat → Reader Term
  | 0, _ => none
  | depth + 1, xs => level g (A (phraseOf A g depth)) g.levels xs

theorem phrase_eq (d : Dialect) (g : Priorities) (depth : Nat) :
    phrase d g depth = phraseOf (atom d) g depth := by
  induction depth with
  | zero => rfl
  | succ depth ih =>
    funext xs
    rw [phrase, phraseOf, ih]

/-- A reader of atoms for the terms of a class. No part of a query is one of them, and a choice
without operand and branches only if the reader reads it. -/
structure ReadsAtoms (d : Dialect) (g : Priorities) (node : Term → Bool)
    (A : Reader Term → Reader Term) : Prop where
  /-- No part of a query is one of the terms. -/
  operand : ∀ {t}, node t = true → t.isOperandNode = true
  /-- What is an atom without the reader is one. -/
  atom : ∀ {depth xs r}, Grammar.atom d (phraseOf A g depth) xs = some r →
    A (phraseOf A g depth) xs = some r
  /-- A choice without operand and branches is read. -/
  choice : ∀ {depth otherwise}, node (.case none [] otherwise) = true →
    (∀ t ∈ otherwise, Takes d (phraseOf A g depth) t) → ∀ rest,
      A (phraseOf A g depth) ((Term.case none [] otherwise).symbols d ++ rest) =
        some ((Term.case none [] otherwise).canonical d, rest)

/-- Expressions have branches in every choice, so no more than atoms need be read. -/
theorem readsAtoms_atom (d : Dialect) (g : Priorities) :
    ReadsAtoms d g Term.isExpressionNode (Grammar.atom d) where
  operand := Term.isOperandNode_of_isExpressionNode
  atom h := h
  choice h := by simp [Term.isExpressionNode] at h

/-- Symbols are read as a term on the levels that it fits. -/
structure ReadAs (A : Reader Term → Reader Term) (g : Priorities) (fits : Nat → Prop)
    (xs : List Symbol) (t : Term) : Prop where
  /-- They are read as the term where the level ends behind them. -/
  level : ∀ depth n rest, xs.length ≤ depth → fits n → Stops g n rest →
    level g (A (phraseOf A g depth)) n (xs ++ rest) = some (t, rest)
  /-- They begin a chain where the level may go on behind them. -/
  chained : ∀ depth p rest, xs.length ≤ depth → fits (p + 1) → Stops g p rest →
    ∃ count, rest.length ≤ count ∧
      Grammar.level g (A (phraseOf A g depth)) (p + 1) (xs ++ rest) =
        chain g p (prefixed g p (Grammar.level g (A (phraseOf A g depth)) p)) count t rest

/-- A term with an outermost operator is read on each level if it begins a chain on the level of
its operator. -/
theorem ReadAs.of_chained {fits : Nat → Prop} {xs : List Symbol} {t : Term} (hzero : ¬fits 0)
    (hxs : ∀ p, fits p → Unprefixed g p xs)
    (hchained : ∀ depth p rest, xs.length ≤ depth → fits (p + 1) → ¬fits p → Stops g p rest →
      ∃ count, rest.length ≤ count ∧
        Grammar.level g (A (phraseOf A g depth)) (p + 1) (xs ++ rest) =
          chain g p (prefixed g p (Grammar.level g (A (phraseOf A g depth)) p)) count t rest) :
    ReadAs A g fits xs t := by
  -- on looser levels, the term is the left operand of a chain
  have hstep : ∀ depth p rest, xs.length ≤ depth → fits (p + 1) → Stops g p rest →
      (fits p → Grammar.level g (A (phraseOf A g depth)) p (xs ++ rest) = some (t, rest)) →
      ∃ count, rest.length ≤ count ∧
        Grammar.level g (A (phraseOf A g depth)) (p + 1) (xs ++ rest) =
          chain g p (prefixed g p (Grammar.level g (A (phraseOf A g depth)) p)) count t rest := by
    intro depth p rest hdepth hsucc hrest hlevel
    by_cases hp : fits p
    · exact ⟨rest.length, Nat.le_refl _, level_succ (hxs p hp).append (hlevel hp)⟩
    · exact hchained depth p rest hdepth hsucc hp hrest
  have hlevel : ∀ depth n rest, xs.length ≤ depth → fits n → Stops g n rest →
      Grammar.level g (A (phraseOf A g depth)) n (xs ++ rest) = some (t, rest) := by
    intro depth n rest hdepth
    induction n with
    | zero => exact fun hn _ => absurd hn hzero
    | succ p ih =>
      intro hn hrest
      have hmono := hrest.mono p.le_succ
      obtain ⟨count, -, hchain⟩ := hstep depth p rest hdepth hn hmono fun hp => ih hp hmono
      rw [hchain, chain_of_stops hrest]
  exact ⟨hlevel, fun depth p rest hdepth hp hrest =>
    hstep depth p rest hdepth hp hrest fun hn => hlevel depth p rest hdepth hn hrest⟩

/-- An atom is read on every level. -/
theorem ReadAs.of_atom {xs : List Symbol} {t : Term} (h : ∀ p, Unprefixed g p xs)
    (hread : ∀ depth rest, xs.length ≤ depth → rest.head? ≠ some (.mark ".") →
      A (phraseOf A g depth) (xs ++ rest) = some (t, rest)) (fits : Nat → Prop) :
    ReadAs A g fits xs t := by
  refine ⟨fun depth n rest hdepth _ hrest => ?_, fun depth p rest hdepth _ hrest => ?_⟩
  · exact level_of_atom (fun p => (h p).append) (hread depth rest hdepth hrest.no_point) hrest
  · have hlevel := level_of_atom (n := p) (fun p => (h p).append)
      (hread depth rest hdepth hrest.no_point) hrest
    exact ⟨rest.length, Nat.le_refl _, level_succ (h p).append hlevel⟩

/-- A term is read as its canonical form. -/
def IsRead (d : Dialect) (A : Reader Term → Reader Term) (g : Priorities) (t : Term) : Prop :=
  ReadAs A g (Fits g · t) (t.symbols d) (t.canonical d)

theorem fits_levels {t : Term} (h : Grouped g t) : Fits g g.levels t := by
  cases t with
  | operation => exact h.1
  | unary => exact h
  | _ => trivial

/-- Inside other symbols, a term is read as a phrase. -/
theorem IsRead.takes {t : Term} (h : IsRead d A g t) (hg : Grouped g t) {depth : Nat}
    (hdepth : (t.symbols d).length < depth) : Takes d (phraseOf A g depth) t := by
  intro rest hrest
  obtain ⟨depth, rfl⟩ : ∃ m, depth = m + 1 := ⟨depth - 1, by omega⟩
  exact h.level depth g.levels rest (Nat.le_of_lt_succ hdepth) (fits_levels hg)
    (hrest.stops g g.levels)

theorem unprefixed_of_leading {t : Term} (ht : t.IsOperand) (h : t.leading? = none) (p : Nat) :
    Unprefixed g p (t.symbols d) := by
  obtain ⟨x, hx, hu, -⟩ := exists_head?_symbols d ht
  exact ⟨x, hx, fun u h' => by simp [hu, h] at h'⟩

/-- An operand is read whether it has parentheses or not. -/
theorem IsRead.wrap (hA : ReadsAtoms d g node A) {t : Term} (h : IsRead d A g t)
    (ht : t.IsOperand) (hg : Grouped g t) (wanted : Bool) :
    ReadAs A g (fun n => wanted = false → Fits g n t) (Term.wrapSymbols wanted (t.symbols d))
      (t.canonical d) := by
  cases wanted with
  | false =>
    exact ⟨fun depth n rest hdepth hn => h.level depth n rest hdepth (hn rfl),
      fun depth p rest hdepth hp => h.chained depth p rest hdepth (hp rfl)⟩
  | true =>
    refine ReadAs.of_atom (fun p => ⟨.mark "(", rfl, ?_⟩) (fun depth rest hdepth _ => ?_) _
    · intro u hu
      exact absurd hu (by cases u <;> decide)
    · have hlt : (t.symbols d).length < depth := by
        simp [Term.wrapSymbols] at hdepth
        omega
      have hread := parenthesized_term (h.takes hg hlt) ht rest
      refine hA.atom ?_
      simpa [Term.wrapSymbols, atom] using hread

/-- An operand begins with an operator just if it has no parentheses and begins with one. -/
theorem exists_head?_wrap {t : Term} (ht : t.IsOperand) (wanted : Bool) :
    ∃ x, (Term.wrapSymbols wanted (t.symbols d)).head? = some x ∧
      unaryOf? x = if wanted then none else t.leading? := by
  cases wanted with
  | true => exact ⟨.mark "(", rfl, rfl⟩
  | false =>
    obtain ⟨x, hx, hu, -⟩ := exists_head?_symbols d ht
    exact ⟨x, hx, hu⟩

/-- A term without an outermost operator. -/
theorem atomic_of_priority?_eq_none {t : Term} (h : t.priority? = none) :
    t.leading? = none ∧ ∀ n, Fits g n t := by
  cases t <;> simp_all [Term.priority?, Term.leading?, Fits]

theorem isRead_unary (hA : ReadsAtoms d g node A) {u : UnaryOperator} {t : Term}
    (ht : t.IsOperand) (hg : Grouped g t) (h : IsRead d A g t) :
    IsRead d A g (.unary u t) := by
  have hoperand := h.wrap hA ht hg t.priority?.isSome
  obtain ⟨x, hx, hu⟩ := exists_head?_wrap (d := d) ht t.priority?.isSome
  have hatom : unaryOf? x = none := by
    rw [hu]
    cases hp : t.priority? with
    | none => simp [(atomic_of_priority?_eq_none (g := g) hp).1]
    | some p => rfl
  refine ReadAs.of_chained (Nat.not_lt_zero _)
    (fun p hp => ⟨Term.unarySymbol u, rfl, fun v hv => ?_⟩) fun depth p rest hdepth hs hn hrest => ?_
  · obtain rfl : u = v := by simpa using hv
    exact Nat.ne_of_lt hp
  · have hpriority : g.unary u = p := by
      simp only [Fits] at hs hn
      omega
    have hlength : (Term.wrapSymbols t.priority?.isSome (t.symbols d)).length ≤ depth := by
      simp [Term.symbols] at hdepth
      omega
    have hread := hoperand.level depth p rest hlength
      (fun hp => (atomic_of_priority?_eq_none (by simpa using hp)).2 p) hrest
    have hprefix : Unprefixed g p (Term.wrapSymbols t.priority?.isSome (t.symbols d) ++ rest) :=
      ⟨x, by simp [List.head?_append, hx], fun v hv => by simp [hatom] at hv⟩
    have hcomment : (Term.wrapSymbols t.priority?.isSome (t.symbols d) ++ rest).head? ≠
        some (.mark "-") := by
      rw [List.head?_append, hx]
      rintro ⟨⟩
      exact absurd hatom (by decide)
    refine ⟨rest.length, Nat.le_refl _, ?_⟩
    rw [Term.symbols, Term.canonical, List.cons_append, level, prefixed,
      unaryOf?_unarySymbol]
    simp [hpriority, hcomment, prefixed_of_unprefixed hprefix, hread, -List.head?_append]

/-- Parts of a term that a table of priorities groups are of a class, and grouped. -/
abbrev IsGroupedBy (node : Term → Bool) (g : Priorities) (t : Term) : Prop :=
  t.Forall fun s => node s = true ∧ Grouped g s

/-- Parts of a term that a table of priorities groups are expressions, and grouped. -/
abbrev IsGrouped (g : Priorities) (t : Term) : Prop :=
  t.Forall fun s => s.isExpressionNode = true ∧ Grouped g s

theorem IsGroupedBy.isOperand (hA : ReadsAtoms d g node A) {t : Term} (h : IsGroupedBy node g t) :
    t.IsOperand :=
  h.mono fun _ h => hA.operand h.1

theorem IsGroupedBy.grouped {t : Term} (h : IsGroupedBy node g t) : Grouped g t := h.here.2

/-- An operand does not begin with an operator as loose as its level. -/
theorem unprefixed_wrap (hA : ReadsAtoms d g node A) {t : Term} (ht : IsGroupedBy node g t)
    {wanted : Bool} {n : Nat} (h : wanted = false → Fits g n t) :
    Unprefixed g n (Term.wrapSymbols wanted (t.symbols d)) := by
  obtain ⟨x, hx, hu⟩ := exists_head?_wrap (d := d) (ht.isOperand hA) wanted
  refine ⟨x, hx, fun u hv => ?_⟩
  cases wanted with
  | true => simp [hu] at hv
  | false =>
    exact Nat.ne_of_lt (unary_lt_of_leading (ht.mono fun _ h => h.2) (h rfl) (by simpa [hu] using hv))

/-- What stands to the right of `IS` is never taken for a part of `IS NOT`. -/
theorem head?_right_of_is {t : Term} (ht : t.IsOperand) (rest : List Symbol) :
    (Term.wrapSymbols (Term.wrapsRight .is t) (t.symbols d) ++ rest).head? ≠
      some (.word "NOT") := by
  obtain ⟨x, hx, hu⟩ := exists_head?_wrap (d := d) ht (Term.wrapsRight .is t)
  rw [List.head?_append, hx]
  rintro ⟨⟩
  have hnot : unaryOf? (.word "NOT") = some .not := rfl
  rw [hnot] at hu
  cases hw : Term.wrapsRight .is t with
  | true => simp [hw] at hu
  | false => exact leading_right_of_is hw (by simpa [hw, eq_comm] using hu)

theorem isRead_operation (hA : ReadsAtoms d g node A) {left right : Term} {op : Operator}
    (hop : Grouped g (.operation left op right)) (hleft : IsGroupedBy node g left)
    (hright : IsGroupedBy node g right) (ihleft : IsRead d A g left)
    (ihright : IsRead d A g right) : IsRead d A g (.operation left op right) := by
  obtain ⟨-, hbareLeft, hbareRight⟩ := hop
  have hl := ihleft.wrap hA (hleft.isOperand hA) hleft.grouped (left.needsParens op false)
  have hr := ihright.wrap hA (hright.isOperand hA) hright.grouped (Term.wrapsRight op right)
  refine ReadAs.of_chained (Nat.not_lt_zero _) (fun p hp => ?_)
    fun depth p rest hdepth hs hn hrest => ?_
  · have hbegin : Unprefixed g p
        (Term.wrapSymbols (left.needsParens op false) (left.symbols d)) := by
      exact unprefixed_wrap hA hleft fun hw => (hbareLeft hw).mono hp
    exact hbegin.append
  · have hpriority : g.binary op = p := by
      simp only [Fits] at hs hn
      omega
    subst hpriority
    have hlengths : (Term.wrapSymbols (left.needsParens op false) (left.symbols d)).length ≤ depth ∧
        (Term.wrapSymbols (Term.wrapsRight op right) (right.symbols d)).length ≤ depth := by
      simp [Term.symbols] at hdepth
      omega
    have hnot : op = .is →
        (Term.wrapSymbols (Term.wrapsRight op right) (right.symbols d) ++ rest).head? ≠
          some (.word "NOT") := by
      rintro rfl
      exact head?_right_of_is (hright.isOperand hA) rest
    obtain ⟨count, hcount, hchain⟩ := hl.chained depth (g.binary op) _ hlengths.1 hbareLeft
      (stops_operatorSymbols hnot (Nat.le_refl _))
    have hoperand := (prefixed_of_unprefixed (unprefixed_wrap hA hright hbareRight).append _).trans
      (hr.level depth (g.binary op) rest hlengths.2 hbareRight hrest)
    have hlt : rest.length < count := by
      have hpos := length_operatorSymbols_pos op
      simp at hcount
      omega
    obtain ⟨m, rfl⟩ : ∃ m, count = m + 1 := ⟨count - 1, by omega⟩
    refine ⟨m, Nat.le_of_lt_succ hlt, ?_⟩
    rw [Term.symbols, Term.canonical, List.append_assoc, List.append_assoc, hchain,
      chain_operation hnot rfl hoperand]

/-- A name that no point follows is a column without a qualifier. -/
theorem column_of_no_point {a : String} {rest : List Symbol}
    (h : rest.head? ≠ some (.mark ".")) : column a rest = some (.column none a, rest) := by
  unfold column
  split
  · simp at h
  · rfl

/-- The name of a function is none of the keywords. -/
theorem worded_function (d : Dialect) (read : Reader Term) (f : Function) (xs : List Symbol) :
    worded d read f.sql xs = arguments read f xs := by
  cases f <;> rfl

/-- A term that no operator begins is read if it is read as an atom. -/
theorem isRead_atom (hA : ReadsAtoms d g node A) {t : Term} (ht : IsGroupedBy node g t)
    (hleading : t.leading? = none)
    (hread : ∀ depth rest, (t.symbols d).length ≤ depth → rest.head? ≠ some (.mark ".") →
      atom d (phraseOf A g depth) (t.symbols d ++ rest) = some (t.canonical d, rest)) :
    IsRead d A g t :=
  .of_atom (unprefixed_of_leading (ht.isOperand hA) hleading)
    (fun depth rest hdepth hrest => hA.atom (hread depth rest hdepth hrest)) _

/-- The items of a list are shorter than what the list stands in. -/
theorem takes_items {ts : List Term} (hts : ∀ t ∈ ts, IsGroupedBy node g t)
    (ih : ∀ t ∈ ts, IsRead d A g t) {depth : Nat}
    (hdepth : (Term.listSymbols d ts).length < depth) :
    ∀ t ∈ ts, Takes d (phraseOf A g depth) t := by
  intro t ht
  refine (ih t ht).takes (hts t ht).grouped (Nat.lt_of_le_of_lt ?_ hdepth)
  rw [listSymbols_eq]
  exact length_le_of_mem_joined (List.mem_map_of_mem ht)

theorem takes_order {os : List (Term × Bool)} (hos : ∀ b ∈ os, IsGroupedBy node g b.1)
    (ih : ∀ b ∈ os, IsRead d A g b.1) {depth : Nat}
    (hdepth : (Term.orderSymbols d os).length < depth) :
    ∀ b ∈ os, Takes d (phraseOf A g depth) b.1 := by
  intro b hb
  refine (ih b hb).takes (hos b hb).grouped (Nat.lt_of_le_of_lt ?_ hdepth)
  have hle := length_le_of_mem_joined (List.mem_map_of_mem
    (f := fun b : Term × Bool => b.1.symbols d ++ Term.directionSymbols b.2) hb)
  rw [orderSymbols_eq]
  simp at hle
  omega

/-- The terms in the branches of a choice are shorter than the choice. -/
theorem length_le_of_mem_branchSymbols {bs : List (Term × Term)} {b : Term × Term} (hb : b ∈ bs) :
    (b.1.symbols d).length + (b.2.symbols d).length ≤ (Term.branchSymbols d bs).length := by
  induction bs with
  | nil => simp at hb
  | cons a bs ih =>
    rcases List.mem_cons.mp hb with rfl | hb
    · simp [Term.branchSymbols]
      omega
    · have hle := ih hb
      simp [Term.branchSymbols]
      omega

/-- **A grouped term is read as its canonical form, on each level.** -/
theorem isRead_of_isGroupedBy (hd : d ∈ Dialect.shipped) (hA : ReadsAtoms d g node A) {t : Term}
    (ht : IsGroupedBy node g t) : IsRead d A g t := by
  have hgrouped := ht
  induction ht with
  | operation h hleft hright ihleft ihright =>
    exact isRead_operation hA h.2 hleft hright (ihleft hleft) (ihright hright)
  | unary h ht ih =>
    exact isRead_unary hA (IsGroupedBy.isOperand hA ht) (IsGroupedBy.grouped ht) (ih ht)
  | @column qualifier name h =>
    refine isRead_atom hA hgrouped rfl fun depth rest _ hrest => ?_
    cases qualifier with
    | none => exact column_of_no_point hrest
    | some a => rfl
  | @constant v h =>
    refine isRead_atom hA hgrouped rfl fun depth rest _ _ => ?_
    cases v <;> rfl
  | argument h => exact isRead_atom hA hgrouped rfl fun depth rest _ _ => rfl
  | @call f distinct args h hargs ih =>
    refine isRead_atom hA hgrouped rfl fun depth rest hdepth _ => ?_
    have hlt : (Term.listSymbols d args).length < depth := by
      cases args with
      | nil => simp [Term.symbols, Term.listSymbols] at hdepth ⊢; omega
      | cons => simp [Term.symbols] at hdepth; omega
    have hread := arguments_call f distinct
      (takes_items hargs (fun t ht => ih t ht (hargs t ht)) hlt)
      (fun t ht => IsGroupedBy.isOperand hA (hargs t ht)) rest
    rw [← worded_function d] at hread
    simpa [Term.symbols, atom] using hread
  | @case operand bs otherwise h hoperand hconditions hresults hotherwise iho ihc ihr ihe =>
    have htake : ∀ {s : Term} (depth : Nat), IsGroupedBy node g s → IsRead d A g s →
        (s.symbols d).length < depth → Takes d (phraseOf A g depth) s :=
      fun _ hs hread hlt => hread.takes hs.grouped hlt
    have htakeElse : ∀ depth, (Term.optionSymbols d [.word "ELSE"] otherwise).length ≤ depth →
        ∀ t ∈ otherwise, Takes d (phraseOf A g depth) t := by
      rintro depth hdepth t ht
      obtain rfl := ht
      refine htake depth (hotherwise t rfl) (ihe t rfl (hotherwise t rfl)) ?_
      simp [Term.optionSymbols] at hdepth
      omega
    by_cases hbare : operand = none ∧ bs = []
    · obtain ⟨rfl, rfl⟩ := hbare
      refine .of_atom (unprefixed_of_leading (hgrouped.isOperand hA) rfl)
        (fun depth rest hdepth _ => ?_) _
      refine hA.choice h.1 (htakeElse depth ?_) rest
      simp only [Term.symbols, List.length_cons, List.length_append] at hdepth
      omega
    · refine isRead_atom hA hgrouped rfl fun depth rest hdepth _ => ?_
      have hne : operand = none → bs ≠ [] := fun ho hb => hbare ⟨ho, hb⟩
      simp only [Term.symbols, List.length_cons, List.length_append] at hdepth
      have hread := choice_case operand bs otherwise hne
        (fun t ht => htake depth (hoperand t ht) (iho t ht (hoperand t ht)) (by
          obtain rfl := ht
          simp [Term.optionSymbols] at hdepth
          omega))
        (fun t ht => IsGroupedBy.isOperand hA (hoperand t ht))
        (fun b hb => htake depth (hconditions b hb) (ihc b hb (hconditions b hb)) (by
          have hle := length_le_of_mem_branchSymbols (d := d) hb
          omega))
        (fun b hb => htake depth (hresults b hb) (ihr b hb (hresults b hb)) (by
          have hle := length_le_of_mem_branchSymbols (d := d) hb
          omega))
        (htakeElse depth (by omega)) rest
      simpa [Term.symbols, atom, worded] using hread
  | @cond condition yes no h hcondition hyes hno ihc ihy ihn =>
    refine isRead_atom hA hgrouped rfl fun depth rest hdepth _ => ?_
    simp only [Term.symbols, List.length_cons, List.length_append] at hdepth
    have hcondition' : Takes d (phraseOf A g depth) condition :=
      (ihc hcondition).takes (IsGroupedBy.grouped hcondition) (by omega)
    have hyes' : Takes d (phraseOf A g depth) yes :=
      (ihy hyes).takes (IsGroupedBy.grouped hyes) (by omega)
    have hno' : Takes d (phraseOf A g depth) no :=
      (ihn hno).takes (IsGroupedBy.grouped hno) (by omega)
    have hread := choice_case none [(condition, yes)] (some no) (by simp) (by simp) (by simp)
      (by simpa using hcondition') (by simpa using hyes') (by simpa using hno') rest
    simpa [Term.symbols, Term.optionSymbols, Term.branchSymbols, Term.canonical,
      Term.canonicalOption, Term.canonicalBranches, atom, worded] using hread
  | @cast operand target h hoperand ih =>
    refine isRead_atom hA hgrouped rfl fun depth rest hdepth _ => ?_
    have hlt : (operand.symbols d).length < depth := by
      simp [Term.symbols] at hdepth
      omega
    have hread := conversion_cast hd ((ih hoperand).takes (IsGroupedBy.grouped hoperand) hlt) target
      rest
    simpa [Term.symbols, atom, worded] using hread
  | @tuple items h hitems ih =>
    refine isRead_atom hA hgrouped rfl fun depth rest hdepth _ => ?_
    have hlt : (Term.listSymbols d items).length < depth := by
      simp [Term.symbols] at hdepth
      omega
    have hread := parenthesized_list (takes_items hitems (fun t ht => ih t ht (hitems t ht)) hlt)
      (fun t ht => IsGroupedBy.isOperand hA (hitems t ht)) rest
    simpa [Term.symbols, atom] using hread
  | @rowNumber partition order h hpartition horder ihp iho =>
    refine isRead_atom hA hgrouped rfl fun depth rest hdepth _ => ?_
    have hp : (Term.listSymbols d partition).length < depth := by
      cases partition with
      | nil => simp [Term.symbols, Term.listSymbols] at hdepth ⊢; omega
      | cons => simp [Term.symbols] at hdepth; omega
    have ho : (Term.orderSymbols d order).length < depth := by
      cases order with
      | nil => simp [Term.symbols, Term.orderSymbols] at hdepth ⊢; omega
      | cons => simp [Term.symbols] at hdepth; omega
    have hread := numbering_rowNumber
      (takes_items hpartition (fun t ht => ihp t ht (hpartition t ht)) hp)
      (takes_order horder (fun b hb => iho b hb (horder b hb)) ho) rest
    simpa [Term.symbols, atom, worded] using hread
  | named h | all h | paging h => exact absurd (hA.operand h.1) (by simp [Term.isOperandNode])

/-- By any priorities that group a rendered expression, it is read as its canonical form. -/
theorem read?_of_isGrouped (hd : d ∈ Dialect.shipped) {t : Term} (ht : IsGrouped g t) :
    read? d g (Draft.term ⟨d, []⟩ t).fragments = some (t.canonical d) := by
  have hnormal : (Draft.term ⟨d, []⟩ t).fragments = Fragment.normalize (t.fragments d) := rfl
  have hsymbols : d.symbols (Fragment.allSigns (Draft.term ⟨d, []⟩ t).fragments) = t.symbols d := by
    rw [hnormal, Fragment.allSigns_normalize, (Term.scans_fragments hd t).symbols_eq]
  have hread := (isRead_of_isGroupedBy hd (readsAtoms_atom d g) ht).takes ht.here.2
    (Nat.lt_succ_self _) [] .nil
  rw [List.append_nil] at hread
  rw [read?, hsymbols, readSymbols?, phrase_eq, hread]

/-- **A rendered expression is read as its canonical form**, by the priorities that the library
declares. So no operand is rendered bare where that would regroup it. -/
theorem read_rendered_term (hd : d ∈ Dialect.shipped) {t : Term} (ht : t.IsExpression) :
    read? d .declared (Draft.term ⟨d, []⟩ t).fragments = some (t.canonical d) :=
  read?_of_isGrouped hd (ht.mono fun s hs => ⟨hs, grouped_declared s⟩)

/-- A difference to the right of a difference keeps its parentheses, and a list of one item behind
`IN` is read as the item. -/
theorem read_rendered_difference :
    Dialect.sqlServer ∈ Dialect.shipped ∧
      (Term.operation
        (.operation (.column none "a") .subtract
          (.operation (.column none "b") .subtract (.argument false)))
        .isIn (.tuple [.constant (.int 1)])).IsExpression ∧
      read? .sqlServer .declared (Draft.term ⟨.sqlServer, []⟩
        (.operation
          (.operation (.column none "a") .subtract
            (.operation (.column none "b") .subtract (.argument false)))
          .isIn (.tuple [.constant (.int 1)]))).fragments =
        some (.operation
          (.operation (.column none "a") .subtract
            (.operation (.column none "b") .subtract (.argument false)))
          .isIn (.constant (.int 1))) := by
  have hd : Dialect.sqlServer ∈ Dialect.shipped := by simp [Dialect.shipped]
  have ht : (Term.operation
      (.operation (.column none "a") .subtract
        (.operation (.column none "b") .subtract (.argument false)))
      .isIn (.tuple [.constant (.int 1)])).IsExpression := by
    refine .operation rfl
      (.operation rfl (.column rfl) (.operation rfl (.column rfl) (.argument rfl)))
      (.tuple rfl fun t h => ?_)
    obtain rfl := List.mem_singleton.mp h
    exact .constant rfl
  exact ⟨hd, ht, read_rendered_term hd ht⟩

end Grammar

end EntitySql
