import EntitySql.Proofs.Grouping
import Mathlib.Data.List.Nodup

/-!
# The clauses of a query

A query is split at the keywords of its clauses, wherever one stands outside of parentheses. Names
are symbols of their own, so that no name is taken for a keyword, and what a window orders by stands
in parentheses. So a term has no clause that begins or ends in it, and clauses that are written one
after the other are split where each of them begins.

The terms of a query may have choices without any branch, which are written `CASE END` and
`CASE ELSE 1 END`. `Grammar.openAtom` reads these too.

## Main definitions

* `Grammar.openAtom`: reads an atom, or a choice without operand and branches
* `Grammar.split`: the clauses of symbols, each a keyword and what follows it
* `Grammar.Passes`: symbols that no clause begins or ends in
* `Grammar.assemble`: clauses with given contents, in the order in which they are written

## Main results

* `Grammar.readsAtoms_openAtom`: the terms of a query can be read with `Grammar.openAtom`
* `Grammar.passes_symbols`: no clause begins or ends in a term
* `Grammar.split_clauseSymbols`: clauses that are written one after the other are split again
-/

namespace EntitySql

namespace Grammar

variable {d : Dialect} {g : Priorities}

/-! ### Choices without branches -/

/-- Reads a choice without operand and branches. -/
def bareChoice (phrase : Reader Term) : Reader Term := fun xs => do
  let rest ← expect (.word "CASE") xs
  let (otherwise, rest) ← optional phrase (.word "ELSE") rest
  let rest ← expect (.word "END") rest
  return (.case none [] otherwise, rest)

/-- Reads an atom, or a choice without operand and branches. -/
def openAtom (d : Dialect) (phrase : Reader Term) : Reader Term := fun xs =>
  (atom d phrase xs).or (bareChoice phrase xs)

/-- What is no atom and begins with no operator is not read on any level. -/
theorem level_of_atom_eq_none {atom : Reader Term} {xs : List Symbol}
    (h : ∀ p, Unprefixed g p xs) (hatom : atom xs = none) (n : Nat) : level g atom n xs = none := by
  induction n with
  | zero => exact hatom
  | succ n ih => rw [level, prefixed_of_unprefixed (h n), ih]; rfl

/-- No term begins with the end of a choice, or with a query. -/
theorem phraseOf_end (d : Dialect) (g : Priorities) (depth : Nat) {w : String}
    (hw : w ∈ ["ELSE", "END", "SELECT"]) (rest : List Symbol) :
    phraseOf (openAtom d) g depth (.word w :: rest) = none := by
  have hcases : w = "ELSE" ∨ w = "END" ∨ w = "SELECT" := by simpa using hw
  cases depth with
  | zero => rfl
  | succ depth =>
    refine level_of_atom_eq_none (fun p => ⟨.word w, rfl, fun u hu => ?_⟩) ?_ g.levels
    · rcases hcases with rfl | rfl | rfl <;> exact absurd hu (by cases u <;> decide)
    · rcases hcases with rfl | rfl | rfl <;> rfl

/-- The terms of a query are read with `openAtom`. -/
theorem readsAtoms_openAtom (d : Dialect) (g : Priorities) :
    ReadsAtoms d g Term.isOperandNode (openAtom d) where
  operand h := h
  atom h := by rw [openAtom, h, Option.some_or]
  choice := by
    intro depth otherwise _ htakes rest
    have hatom : ∀ w xs, w ∈ ["ELSE", "END", "SELECT"] →
        atom d (phraseOf (openAtom d) g depth) (.word "CASE" :: .word w :: xs) = none := by
      intro w xs hw
      have hend := phraseOf_end d g depth hw xs
      have hwhen : w ≠ "WHEN" := by
        rintro rfl
        exact absurd hw (by decide)
      simp [atom, worded, choice, hend, hwhen]
    cases otherwise with
    | none =>
      have hnone := hatom "END" rest (by decide)
      simp [Term.symbols, Term.optionSymbols, Term.branchSymbols, openAtom, hnone, bareChoice,
        optional, accept, Term.canonical, Term.canonicalOption, Term.canonicalBranches]
    | some t =>
      have hread := htakes t rfl (.word "END" :: rest) (.cons rest (by decide))
      have hnone := hatom "ELSE" (t.symbols d ++ .word "END" :: rest) (by decide)
      simp [Term.symbols, Term.optionSymbols, Term.branchSymbols, openAtom, hnone, bareChoice,
        optional, accept, Term.canonical, Term.canonicalOption, Term.canonicalBranches,
        hread]

/-! ### Splitting -/

/-- The keywords of the clauses of a query, in the order in which they are written. -/
def clauseWords : List String :=
  ["SELECT", "FROM", "WHERE", "GROUP", "ORDER", "LIMIT", "OFFSET", "FETCH"]

/-- The keyword that a symbol is, if no parenthesis is open. -/
def clauseWord? (depth : Nat) : Symbol → Option String
  | .word w => if depth = 0 ∧ w ∈ clauseWords then some w else none
  | _ => none

/-- How many parentheses are open behind a symbol. -/
def depthBehind (depth : Nat) (x : Symbol) : Nat :=
  if x = .mark "(" then depth + 1 else if x = .mark ")" then depth - 1 else depth

/-- Splits symbols at the keywords outside parentheses: what stands in front of the first of them,
and each keyword with what stands between it and the next. -/
def split : Nat → List Symbol → List Symbol × List (String × List Symbol)
  | _, [] => ([], [])
  | depth, x :: rest =>
    let (front, clauses) := split (depthBehind depth x) rest
    match clauseWord? depth x with
    | some w => ([], (w, front) :: clauses)
    | none => (x :: front, clauses)

/-- Symbols that no clause begins or ends in, where at least `n` parentheses are open. -/
def Passes (n : Nat) (xs : List Symbol) : Prop :=
  ∀ depth, n ≤ depth → ∀ rest,
    split depth (xs ++ rest) = (xs ++ (split depth rest).1, (split depth rest).2)

theorem Passes.nil (n : Nat) : Passes n [] := fun _ _ _ => rfl

theorem Passes.mono {m n : Nat} {xs : List Symbol} (h : Passes m xs) (hmn : m ≤ n) : Passes n xs :=
  fun depth hdepth => h depth (Nat.le_trans hmn hdepth)

theorem Passes.append {n : Nat} {xs ys : List Symbol} (hx : Passes n xs) (hy : Passes n ys) :
    Passes n (xs ++ ys) := by
  intro depth hdepth rest
  rw [List.append_assoc, hx depth hdepth, hy depth hdepth, List.append_assoc]

/-- A symbol that is neither a parenthesis nor a keyword outside of them. -/
theorem Passes.cons {n : Nat} {x : Symbol} {xs : List Symbol}
    (hx : ∀ depth, n ≤ depth → depthBehind depth x = depth ∧ clauseWord? depth x = none)
    (h : Passes n xs) : Passes n (x :: xs) := by
  intro depth hdepth rest
  obtain ⟨hbehind, hword⟩ := hx depth hdepth
  rw [List.cons_append, split, hbehind, hword, h depth hdepth]
  rfl

theorem Passes.name {n : Nat} {xs : List Symbol} (a : String) (h : Passes n xs) :
    Passes n (.name a :: xs) :=
  h.cons fun _ _ => ⟨rfl, rfl⟩

theorem Passes.mark {n : Nat} {xs : List Symbol} {m : String} (hm : m ≠ "(" ∧ m ≠ ")")
    (h : Passes n xs) : Passes n (.mark m :: xs) :=
  h.cons fun _ _ => ⟨by simp [depthBehind, hm], rfl⟩

/-- A word that is no keyword, or stands in parentheses. -/
theorem Passes.word {n : Nat} {xs : List Symbol} {w : String} (hw : 0 < n ∨ w ∉ clauseWords)
    (h : Passes n xs) : Passes n (.word w :: xs) := by
  refine h.cons fun depth hdepth => ⟨rfl, if_neg ?_⟩
  rintro ⟨rfl, hmem⟩
  rcases hw with hn | hw
  · omega
  · exact hw hmem

/-- Parentheses that are closed again; keywords may stand in them. -/
theorem Passes.parens {n : Nat} {xs ys : List Symbol} (hx : Passes 1 xs) (hy : Passes n ys) :
    Passes n (.mark "(" :: (xs ++ .mark ")" :: ys)) := by
  intro depth hdepth rest
  have hclose : split (depth + 1) (.mark ")" :: (ys ++ rest)) =
      (.mark ")" :: ys ++ (split depth rest).1, (split depth rest).2) := by
    have hbehind : depthBehind (depth + 1) (.mark ")") = depth := rfl
    rw [split, hbehind, hy depth hdepth]
    rfl
  have hbehind : depthBehind depth (.mark "(") = depth + 1 := rfl
  rw [List.cons_append, List.append_assoc, List.cons_append, split, hbehind,
    hx (depth + 1) (Nat.le_add_left 1 depth), hclose]
  simp [clauseWord?]

theorem Passes.joined {n : Nat} {l : List (List Symbol)} (h : ∀ xs ∈ l, Passes n xs) :
    Passes n (joined l) := by
  fun_induction Grammar.joined l with
  | case1 => exact .nil n
  | case2 xs => exact h xs List.mem_cons_self
  | case3 xs rest _ ih =>
    exact (h xs List.mem_cons_self).append
      ((ih fun ys hy => h ys (List.mem_cons_of_mem _ hy)).mark (by decide))

/-! ### The terms of a query -/

section

variable {n : Nat}

theorem passes_list {ts : List Term} (h : ∀ t ∈ ts, Passes n (t.symbols d)) :
    Passes n (Term.listSymbols d ts) := by
  rw [listSymbols_eq]
  exact .joined (by simpa using h)

theorem passes_order {os : List (Term × Bool)} (h : ∀ b ∈ os, Passes n (b.1.symbols d)) :
    Passes n (Term.orderSymbols d os) := by
  rw [orderSymbols_eq]
  refine .joined fun xs hxs => ?_
  obtain ⟨b, hb, rfl⟩ := List.mem_map.mp hxs
  refine (h b hb).append ?_
  rw [Term.directionSymbols]
  split
  · exact (Passes.nil n).word (.inr (by decide))
  · exact .nil n

theorem passes_wrap {wanted : Bool} {xs : List Symbol} (h : Passes 0 xs) :
    Passes 0 (Term.wrapSymbols wanted xs) := by
  cases wanted with
  | false => exact h
  | true => exact (h.mono (Nat.zero_le 1)).parens (.nil 0)

theorem passes_option {keyword : List Symbol} (hkeyword : Passes n keyword) {o : Option Term}
    (h : ∀ t ∈ o, Passes n (t.symbols d)) : Passes n (Term.optionSymbols d keyword o) := by
  cases o with
  | none => exact .nil n
  | some t => exact hkeyword.append (h t rfl)

theorem passes_branches {bs : List (Term × Term)} (hconditions : ∀ b ∈ bs, Passes n (b.1.symbols d))
    (hresults : ∀ b ∈ bs, Passes n (b.2.symbols d)) : Passes n (Term.branchSymbols d bs) := by
  induction bs with
  | nil => exact .nil n
  | cons b bs ih =>
    have hrest := ih (fun b hb => hconditions b (List.mem_cons_of_mem _ hb))
      fun b hb => hresults b (List.mem_cons_of_mem _ hb)
    exact ((hconditions b List.mem_cons_self).append
      (((hresults b List.mem_cons_self).append hrest).word (.inr (by decide)))).word
        (.inr (by decide))

theorem passes_operator (op : Operator) : Passes n (Term.operatorSymbols op) := by
  cases op with
  | isNot => exact ((Passes.nil n).word (.inr (by decide))).word (.inr (by decide))
  | like | is | isIn | and | or => exact (Passes.nil n).word (.inr (by decide))
  | _ => exact (Passes.nil n).mark (by decide)

theorem passes_qualified (qualifier : Option String) {xs : List Symbol} (h : Passes n xs) :
    Passes n (Term.qualifierSymbols qualifier ++ xs) := by
  cases qualifier with
  | none => exact h
  | some a => exact (h.mark (by decide)).name a

/-- Whether symbols close every parenthesis that they open, and `depth` more. -/
def closes : Nat → List Symbol → Bool
  | depth, [] => depth == 0
  | depth, x :: rest => (x ≠ .mark ")" || 0 < depth) && closes (depthBehind depth x) rest

theorem passes_of_closes {xs : List Symbol} (h : closes 0 xs = true) : Passes 1 xs := by
  suffices hall : ∀ opened depth rest, closes opened xs = true → 1 ≤ depth →
      split (depth + opened) (xs ++ rest) = (xs ++ (split depth rest).1, (split depth rest).2) from
    fun depth hdepth rest => hall 0 depth rest h hdepth
  clear h
  induction xs with
  | nil =>
    intro opened depth rest h _
    obtain rfl : opened = 0 := by simpa [closes] using h
    rfl
  | cons x xs ih =>
    intro opened depth rest h hdepth
    obtain ⟨hx, hxs⟩ := Bool.and_eq_true_iff.mp h
    have hbehind : depthBehind (depth + opened) x = depth + depthBehind opened x := by
      by_cases hopen : x = .mark "("
      · simp [depthBehind, hopen, Nat.add_assoc]
      · by_cases hclose : x = .mark ")"
        · simp [hclose] at hx
          simp [depthBehind, hclose]
          omega
        · simp [depthBehind, hopen, hclose]
    have hword : clauseWord? (depth + opened) x = none := by
      unfold clauseWord?
      split
      · exact if_neg fun hzero => by omega
      · rfl
    rw [List.cons_append, split, hbehind, hword, ih _ depth rest hxs hdepth]
    rfl

/-- Native names close their parentheses. -/
theorem passes_type (hd : d ∈ Dialect.shipped) (target : ColumnType) :
    Passes 1 (Term.typeSymbols d target) := by
  refine passes_of_closes ?_
  cases target with
  | custom name =>
    rw [Term.typeSymbols, Term.nativeType_custom hd]
    rcases Dialect.mem_shipped.mp hd with rfl | rfl | rfl <;> decide +kernel
  | _ => rcases Dialect.mem_shipped.mp hd with rfl | rfl | rfl <;> decide +kernel

/-- **No clause begins or ends in a term of a query**, unless the term is a paging clause. -/
theorem passes_symbols (hd : d ∈ Dialect.shipped) {t : Term}
    (ht : t.Forall fun s => ∀ l o b, s ≠ .paging l o b) : Passes 0 (t.symbols d) := by
  have hin : ∀ {xs}, Passes 0 xs → Passes 1 xs := fun h => h.mono (Nat.zero_le 1)
  induction ht with
  | @column qualifier name => exact passes_qualified qualifier ((Passes.nil 0).name name)
  | @constant v =>
    rw [Term.symbols]
    split
    · exact (Passes.nil 0).word (.inr (by decide))
    · exact (Passes.nil 0).cons fun _ _ => ⟨rfl, rfl⟩
  | argument => exact (Passes.nil 0).cons fun _ _ => ⟨rfl, rfl⟩
  | operation _ _ _ ihleft ihright =>
    exact (passes_wrap ihleft).append ((passes_operator _).append (passes_wrap ihright))
  | @unary op operand _ _ ih =>
    cases op with
    | negate => exact (passes_wrap ih).mark (by decide)
    | not => exact (passes_wrap ih).word (.inr (by decide))
  | @call f distinct args _ _ ih =>
    have hargs : Passes 1 (if args.isEmpty then [.mark "*"] else Term.listSymbols d args) := by
      split
      · exact (Passes.nil 1).mark (by decide)
      · exact passes_list fun t ht => hin (ih t ht)
    have hall := (hargs.parens (.nil 0)).word (.inr (by cases f <;> decide : f.sql ∉ clauseWords))
    have hdistinct := ((hargs.word (.inl Nat.one_pos) (w := "DISTINCT")).parens (.nil 0)).word
      (.inr (by cases f <;> decide : f.sql ∉ clauseWords))
    cases distinct with
    | false => simpa [Term.symbols] using hall
    | true => simpa [Term.symbols] using hdistinct
  | case _ _ _ _ _ iho ihc ihr ihe =>
    refine Passes.word (.inr (by decide)) ((passes_option (.nil 0) iho).append
      ((passes_branches ihc ihr).append ((passes_option ?_ ihe).append ?_)))
    · exact (Passes.nil 0).word (.inr (by decide))
    · exact (Passes.nil 0).word (.inr (by decide))
  | cond _ _ _ _ ihc ihy ihn =>
    have hend : Passes 0 [.word "END"] := (Passes.nil 0).word (.inr (by decide))
    have helse := (ihn.append hend).word (.inr (by decide)) (w := "ELSE")
    have hthen := (ihy.append helse).word (.inr (by decide)) (w := "THEN")
    exact ((ihc.append hthen).word (.inr (by decide))).word (.inr (by decide))
  | @cast operand target _ _ ih =>
    have htyped := (passes_type hd target).word (.inl Nat.one_pos) (w := "AS")
    have hall := (((hin ih).append htyped).parens (.nil 0)).word (.inr (by decide)) (w := "CAST")
    simpa [Term.symbols] using hall
  | tuple _ _ ih =>
    exact (passes_list fun t ht => hin (ih t ht)).parens (.nil 0)
  | named _ _ ih => exact ih.append (((Passes.nil 0).name _).word (.inr (by decide)))
  | @all qualifier => exact passes_qualified qualifier ((Passes.nil 0).mark (by decide))
  | @rowNumber partition order _ _ _ ihp iho =>
    have hpartition : Passes 1 (if partition.isEmpty then []
        else .word "PARTITION" :: .word "BY" :: Term.listSymbols d partition) := by
      split
      · exact .nil 1
      · exact ((passes_list fun t ht => hin (ihp t ht)).word (.inr (by decide))).word
          (.inr (by decide))
    have horder : Passes 1 (if order.isEmpty then []
        else .word "ORDER" :: .word "BY" :: Term.orderSymbols d order) := by
      split
      · exact .nil 1
      · exact ((passes_order fun b hb => hin (iho b hb)).word (.inr (by decide))).word
          (.inl Nat.one_pos)
    have hwindow := ((hpartition.append horder).parens (.nil 0)).word (.inr (by decide))
      (w := "OVER")
    have hall := ((Passes.nil 1).parens hwindow).word (.inr (by decide)) (w := "ROW_NUMBER")
    simpa [Term.symbols] using hall
  | paging h => exact absurd rfl (h _ _ _)

end

/-! ### Clauses one after the other -/

/-- The symbols of clauses, each behind its keyword. -/
def clauseSymbols (clauses : List (String × List Symbol)) : List Symbol :=
  clauses.flatMap fun c => .word c.1 :: c.2

/-- **Clauses that are written one after the other are split again**, if no clause begins or ends
in one of them. -/
theorem split_clauseSymbols {clauses : List (String × List Symbol)}
    (h : ∀ c ∈ clauses, c.1 ∈ clauseWords ∧ Passes 0 c.2) :
    split 0 (clauseSymbols clauses) = ([], clauses) := by
  induction clauses with
  | nil => rfl
  | cons c clauses ih =>
    obtain ⟨hword, hpasses⟩ := h c List.mem_cons_self
    have hrest := ih fun e he => h e (List.mem_cons_of_mem _ he)
    have hkeyword : clauseWord? 0 (.word c.1) = some c.1 := if_pos ⟨rfl, hword⟩
    have hbehind : depthBehind 0 (.word c.1) = 0 := rfl
    have hcons : clauseSymbols (c :: clauses) = .word c.1 :: (c.2 ++ clauseSymbols clauses) := rfl
    rw [hcons, split, hbehind, hkeyword, hpasses 0 (Nat.le_refl 0), hrest]
    simp

/-- The clauses with the given contents, in the order in which they are written. -/
def assemble (parts : String → Option (List Symbol)) : List (String × List Symbol) :=
  clauseWords.filterMap fun w => (parts w).map (w, ·)

/-- Each clause is found again by its keyword. -/
theorem lookup_assemble (parts : String → Option (List Symbol)) {w : String}
    (hw : w ∈ clauseWords) : (assemble parts).lookup w = parts w := by
  suffices hall : ∀ words : List String, (words.filterMap fun v => (parts v).map (v, ·)).lookup w =
      if w ∈ words then parts w else none from (hall clauseWords).trans (if_pos hw)
  intro words
  induction words with
  | nil => rfl
  | cons v words ih =>
    by_cases hv : w = v
    · subst hv
      cases hp : parts w <;> simp [hp, ih]
    · have hne : (w == v) = false := by simpa using hv
      cases hp : parts v <;> simp [hp, hv, List.lookup_cons, hne, ih]

theorem fst_assemble (parts : String → Option (List Symbol)) :
    (assemble parts).map Prod.fst = clauseWords.filter fun w => (parts w).isSome := by
  rw [assemble]
  induction clauseWords with
  | nil => rfl
  | cons v words ih => cases hp : parts v <;> simp [hp, ih]

theorem sublist_assemble (parts : String → Option (List Symbol)) :
    ((assemble parts).map Prod.fst).Sublist clauseWords := by
  rw [fst_assemble]
  exact List.filter_sublist

/-- A clause is written once if it has a content, and otherwise not at all. -/
theorem count_assemble (parts : String → Option (List Symbol)) {w : String}
    (hw : w ∈ clauseWords) :
    ((assemble parts).map Prod.fst).count w = if (parts w).isSome then 1 else 0 := by
  have hnodup : clauseWords.Nodup := by decide
  rw [fst_assemble]
  split
  · next hsome =>
    exact List.count_eq_one_of_mem (hnodup.filter _) (List.mem_filter.mpr ⟨hw, hsome⟩)
  · next hnone => exact List.count_eq_zero.mpr fun hmem => hnone (List.mem_filter.mp hmem).2

/-- The symbols of a clause, none without content. -/
def partSymbols (w : String) : Option (List Symbol) → List Symbol
  | none => []
  | some xs => .word w :: xs

theorem clauseSymbols_assemble (parts : String → Option (List Symbol)) :
    clauseSymbols (assemble parts) = clauseWords.flatMap fun w => partSymbols w (parts w) := by
  rw [clauseSymbols, assemble]
  induction clauseWords with
  | nil => rfl
  | cons v words ih => cases hp : parts v <;> simp [hp, ih, partSymbols]

end Grammar

end EntitySql
