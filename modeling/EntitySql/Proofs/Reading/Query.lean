import EntitySql.Proofs.Reading.Clause

/-!
# Reading a query

A reader of whole queries that does not know how they are written: it splits the symbols of a query
into its clauses and reads each of them to its end on its own, the terms by a table of priorities.

## Main definitions

* `Grammar.QueryText`, `Grammar.readQuery?`: the query that symbols are read as
* `Grammar.IsSelected`: the terms that may be selected

## Main results

* `Grammar.items_list`, `Grammar.items_order`: lists of terms are read to their end
* `Grammar.items_selected`: so are selected terms, with their names
-/

namespace EntitySql

namespace Grammar

variable {d : Dialect} {g : Priorities}

/-! ### Reading the clauses -/

/-- A query as it is read. -/
structure QueryText where
  /-- The selected terms. -/
  projection : List Term
  /-- The table. -/
  table : String
  /-- The alias of the table. -/
  qualifier : Option String
  /-- The condition. -/
  condition : Option Term
  /-- The terms to group by. -/
  groups : List Term
  /-- The terms to order by, each ascending or descending. -/
  order : List (Term × Bool)
  /-- Whether there is an order by `(SELECT NULL)`, which is none in particular. -/
  orderedByNothing : Bool
  /-- The greatest number of rows, as it is written; a negative number is no limit. -/
  limit : Option Int
  /-- The number of rows skipped, as it is written. -/
  offset : Option Nat

/-- Reads symbols to their end. -/
def whole {α : Type} (read : Reader α) (xs : List Symbol) : Option α :=
  match read xs with
  | some (a, []) => some a
  | _ => none

/-- Reads items that are divided by commas, to the end. -/
def items {α : Type} (item : Reader α) (xs : List Symbol) : Option (List α) :=
  whole (separated item (xs.length + 1)) xs

/-- Reads what follows the second word of a keyword. -/
def behindBy {α : Type} (read : List Symbol → Option α) (xs : List Symbol) : Option α :=
  (expect (.word "BY") xs).bind read

/-- Reads the name of a term, if it has one. -/
def named (t : Term) : Reader Term
  | .word "AS" :: .name n :: rest => some (.named t n, rest)
  | rest => some (t, rest)

/-- Reads a selected term: all columns, or a term with or without a name. -/
def selected (phrase : Reader Term) : Reader Term
  | .mark "*" :: rest => some (.all none, rest)
  | .name a :: .mark "." :: .mark "*" :: rest => some (.all (some a), rest)
  | xs => (phrase xs).bind fun (t, rest) => named t rest

/-- Reads a table and its alias. -/
def source : List Symbol → Option (String × Option String)
  | [.name table] => some (table, none)
  | [.name table, .word "AS", .name a] => some (table, some a)
  | _ => none

/-- What a query is ordered by that must be ordered and is not. -/
def nothing : List Symbol := [.mark "(", .word "SELECT", .word "NULL", .mark ")"]

/-- Reads the terms to order by; none are read where the order is by nothing. -/
def orderItems (phrase : Reader Term) (xs : List Symbol) : Option (Option (List (Term × Bool))) :=
  ((items (ordering phrase) xs).map some).or (if xs = nothing then some none else none)

/-- The number that a word of digits stands for. -/
def number? (w : String) : Option Nat :=
  if !w.toList.isEmpty && w.toList.all Char.isDigit then some (Nat.ofDigitChars 10 w.toList 0)
  else none

/-- Reads the greatest number of rows. -/
def bound : List Symbol → Option Int
  | [.word w] => (number? w).map fun n => (n : Int)
  | [.mark "-", .word w] => (number? w).map fun n => -(n : Int)
  | [.word "NEXT", .word w, .word "ROWS", .word "ONLY"] => (number? w).map fun n => (n : Int)
  | _ => none

/-- Reads the number of rows skipped. -/
def skipped : List Symbol → Option Nat
  | [.word w] => number? w
  | [.word w, .word "ROWS"] => number? w
  | _ => none

/-- The query that symbols are read as. They are split at the keywords of the clauses, of which
there is at most one each, in their order; and each clause is read to its end. -/
def readQuery? (d : Dialect) (g : Priorities) (xs : List Symbol) : Option QueryText := do
  let (front, clauses) := split 0 xs
  guard (front = [] ∧ (clauses.map Prod.fst).Sublist clauseWords)
  let term := phraseOf (openAtom d) g (xs.length + 1)
  let projection ← (clauses.lookup "SELECT").bind (items (selected term))
  let (table, qualifier) ← (clauses.lookup "FROM").bind source
  let condition ← (clauses.lookup "WHERE").mapM (whole term)
  let groups ← (clauses.lookup "GROUP").mapM (behindBy (items term))
  let order ← (clauses.lookup "ORDER").mapM (behindBy (orderItems term))
  let limit ← ((clauses.lookup "LIMIT").or (clauses.lookup "FETCH")).mapM bound
  let offset ← (clauses.lookup "OFFSET").mapM skipped
  return {
    projection, table, qualifier, condition
    groups := groups.getD []
    order := order.join.getD []
    orderedByNothing := (order.map Option.isNone).getD false
    limit, offset }

/-! ### Numbers -/

theorem isDigit_of_mem_number {n : Nat} {c : Char} (h : c ∈ (toString n).toList) :
    c.isDigit = true := by
  rw [Nat.toString_eq_repr, Nat.toList_repr] at h
  exact Nat.isDigit_of_mem_toDigits (by decide) (by decide) h

theorem toList_number_ne_nil (n : Nat) : (toString n).toList ≠ [] := by
  rw [Nat.toString_eq_repr, Nat.toList_repr]
  exact Nat.toDigits_ne_nil

@[simp] theorem number?_toString (n : Nat) : number? (toString n) = some n := by
  have hdigits : (!(toString n).toList.isEmpty && (toString n).toList.all Char.isDigit) = true := by
    simp only [Bool.and_eq_true, Bool.not_eq_true', List.isEmpty_eq_false_iff, List.all_eq_true]
    exact ⟨toList_number_ne_nil n, fun c hc => isDigit_of_mem_number hc⟩
  rw [number?, if_pos hdigits, Nat.toString_eq_repr, Nat.toList_repr,
    Nat.ofDigitChars_ten_toDigits]

/-! ### Reading a clause to its end -/

theorem items_joined {α ι : Type} {item : Reader α} {write : ι → List Symbol} {value : ι → α}
    {P : List Symbol → Prop} (hcomma : ∀ rest, P (.mark "," :: rest)) (hnil : P []) {l : List ι}
    (hne : l ≠ []) (h : ∀ i ∈ l, ∀ rest, P rest → item (write i ++ rest) = some (value i, rest)) :
    items item (joined (l.map write)) = some (l.map value) := by
  have hlength : l.length ≤ (joined (l.map write)).length + 1 := by
    simpa using length_le_joined (l.map write)
  have hread := separated_joined hcomma hne h hlength hnil (by simp)
  rw [List.append_nil] at hread
  rw [items, whole, hread]

/-- A term is read to the end. -/
theorem whole_symbols {read : Reader Term} {t : Term} (h : Takes d read t) :
    whole read (t.symbols d) = some (t.canonical d) := by
  have hread := h [] .nil
  rw [List.append_nil] at hread
  rw [whole, hread]

theorem items_list {read : Reader Term} {ts : List Term} (hne : ts ≠ [])
    (h : ∀ t ∈ ts, Takes d read t) :
    items read (Term.listSymbols d ts) = some (ts.map (Term.canonical d)) := by
  rw [listSymbols_eq]
  exact items_joined (P := Delimits) (fun _ => .cons _ (by decide)) .nil hne h

theorem items_order {read : Reader Term} {os : List (Term × Bool)} (hne : os ≠ [])
    (h : ∀ b ∈ os, Takes d read b.1) :
    items (ordering read) (Term.orderSymbols d os) =
      some (os.map fun b => (b.1.canonical d, b.2)) := by
  rw [orderSymbols_eq]
  exact items_joined (P := fun rest => Delimits rest ∧ rest.head? ≠ some (.word "DESC"))
    (fun _ => ⟨.cons _ (by decide), by simp⟩) ⟨.nil, by simp⟩ hne
    fun b hb rest hrest => ordering_symbols (h b hb) b.2 hrest

/-! ### Selected terms -/

/-- A term that may be selected: all columns, or a term with or without a name. -/
inductive IsSelected : Term → Prop where
  | all (qualifier : Option String) : IsSelected (.all qualifier)
  | named {t : Term} (name : String) : t.IsOperand → IsSelected (.named t name)
  | operand {t : Term} : t.IsOperand → IsSelected t

/-- A term does not begin like all columns of a table. -/
theorem ne_all_of_isOperand {t : Term} (ht : t.IsOperand) {rest : List Symbol}
    (hrest : rest.head? ≠ some (.mark ".")) (a : String) (ys : List Symbol) :
    t.symbols d ++ rest ≠ .name a :: .mark "." :: .mark "*" :: ys := by
  induction ht generalizing rest with
  | @column qualifier name =>
    cases qualifier with
    | none =>
      intro h
      obtain ⟨-, rfl⟩ : name = a ∧ rest = .mark "." :: .mark "*" :: ys := by
        simpa [Term.symbols, Term.qualifierSymbols] using h
      exact hrest rfl
    | some q => simp [Term.symbols, Term.qualifierSymbols]
  | @operation left right op _ _ _ ih =>
    have hbehind : (Term.operatorSymbols op ++ (Term.wrapSymbols (Term.wrapsRight op right)
        (right.symbols d) ++ rest)).head? ≠ some (.mark ".") := by
      cases op <;> simp [Term.operatorSymbols, Operator.sql]
    cases hw : left.needsParens op false with
    | true => simp [Term.symbols, Term.wrapSymbols, hw]
    | false => simpa [Term.symbols, Term.wrapSymbols, hw] using ih hbehind
  | @unary op => cases op <;> simp [Term.symbols, Term.unarySymbol]
  | named h | all h | paging h => simp [Term.isOperandNode] at h
  | @constant v =>
    rw [Term.symbols]
    split <;> simp
  | _ => simp [Term.symbols]

/-- A selected term is read up to a comma or the end of the list. -/
theorem selected_symbols {read : Reader Term} {t : Term} (ht : IsSelected t)
    (h : ∀ s : Term, s.IsOperand → (s.symbols d).length ≤ (t.symbols d).length → Takes d read s)
    {rest : List Symbol} (hrest : Delimits rest ∧ rest.head? ≠ some (.word "AS")) :
    selected read (t.symbols d ++ rest) = some (t.canonical d, rest) := by
  -- what is read is a term, since it begins as no list of all columns does
  have hterm : ∀ {s : Term} (xs : List Symbol), s.IsOperand → Delimits xs →
      (s.symbols d).length ≤ (t.symbols d).length →
      selected read (s.symbols d ++ xs) = named (s.canonical d) xs := by
    intro s xs hs hxs hle
    unfold selected
    split
    · next heq =>
      have hstar := head?_expression (d := d) hs (c := .mark "*") (by decide) xs
      exact absurd (by rw [heq]; rfl) hstar
    · next heq =>
      exact absurd heq (ne_all_of_isOperand hs (hxs.stops .declared 0).no_point _ _)
    · simp [h s hs hle xs hxs]
  cases ht with
  | all qualifier => cases qualifier <;> rfl
  | @named s name hs =>
    have hread := hterm (.word "AS" :: .name name :: rest) hs (.cons _ (by decide))
      (by simp [Term.symbols])
    simpa [Term.symbols, Term.canonical, named] using hread
  | operand hs =>
    rw [hterm rest hs hrest.1 (Nat.le_refl _)]
    unfold named
    split
    · exact absurd rfl hrest.2
    · rfl

theorem items_selected {read : Reader Term} {ts : List Term} (hne : ts ≠ [])
    (hts : ∀ t ∈ ts, IsSelected t)
    (h : ∀ s : Term, s.IsOperand → (s.symbols d).length ≤ (Term.listSymbols d ts).length →
      Takes d read s) :
    items (selected read) (Term.listSymbols d ts) = some (ts.map (Term.canonical d)) := by
  have hle : ∀ t ∈ ts, (t.symbols d).length ≤ (Term.listSymbols d ts).length := by
    intro t ht
    rw [listSymbols_eq]
    exact length_le_of_mem_joined (List.mem_map_of_mem ht)
  have hread : ∀ t ∈ ts, ∀ rest, Delimits rest ∧ rest.head? ≠ some (.word "AS") →
      selected read (t.symbols d ++ rest) = some (t.canonical d, rest) :=
    fun t ht rest hrest => selected_symbols (hts t ht)
      (fun s hs hlength => h s hs (Nat.le_trans hlength (hle t ht))) hrest
  rw [listSymbols_eq] at *
  exact items_joined (P := fun rest => Delimits rest ∧ rest.head? ≠ some (.word "AS"))
    (fun _ => ⟨.cons _ (by decide), by simp⟩) ⟨.nil, by simp⟩ hne hread

/-! ### Orders -/

/-- What a query is ordered by that has no order is no term. -/
theorem phraseOf_nothing (d : Dialect) (g : Priorities) (depth : Nat) :
    phraseOf (openAtom d) g depth nothing = none := by
  cases depth with
  | zero => rfl
  | succ depth =>
    have hselect := phraseOf_end d g depth (w := "SELECT") (by decide) [.word "NULL", .mark ")"]
    refine level_of_atom_eq_none (fun p => ⟨.mark "(", rfl, fun u hu => ?_⟩) ?_ g.levels
    · exact absurd hu (by cases u <;> decide)
    · simp [nothing, openAtom, atom, parenthesized, accept, separated, hselect, bareChoice, expect]

theorem orderItems_nothing (d : Dialect) (g : Priorities) (depth : Nat) :
    orderItems (phraseOf (openAtom d) g depth) nothing = some none := by
  have hitems : items (ordering (phraseOf (openAtom d) g depth)) nothing = none := by
    simp [items, whole, separated, ordering, phraseOf_nothing]
  rw [orderItems, hitems]
  rfl

theorem orderItems_order {read : Reader Term} {os : List (Term × Bool)} (hne : os ≠ [])
    (h : ∀ b ∈ os, Takes d read b.1) :
    orderItems read (Term.orderSymbols d os) =
      some (some (os.map fun b => (b.1.canonical d, b.2))) := by
  rw [orderItems, items_order hne h]
  rfl

end Grammar

end EntitySql
