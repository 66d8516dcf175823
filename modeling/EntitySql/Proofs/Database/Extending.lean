import EntitySql.Proofs.Database.Consuming

/-!
# Reading in front of a limit

The limit is the last clause of a query, and the word that begins it is no name and no operator. So
whatever is taken off the front of some tokens is taken in the same way when a limit follows them:
every step that is asked for a token where the limit stands answers as if there were none.

A step that has fuel may be given more of it, as it is when more tokens are left.

## Main definitions

* `Reading.ExtendsAt`, `Reading.Extends`: a step takes the same in front of a limit
* `Reading.ExtendsGrammar`: so do all steps of the grammar of expressions
* `Reading.Bounds`: the tokens behind `LIMIT` are read to their end
* `Reading.Pages`: a query is read to the end, and so it is in front of a limit

## Main results

* `Reading.extendsGrammar`: the steps of the grammar of expressions
* `Reading.pages_query`: a query in front of a limit
* `Reading.run_command?_paged`: a statement that is a query
-/

namespace EntitySql

/-- The word that begins a limit. -/
def Token.limit : Token := ofWord " " "LIMIT"

namespace Reading

variable {α β : Type}

section

variable {ext : List Token}

/-- What the first step takes off the front of the tokens, the second one takes where a limit
follows them. -/
def ExtendsAt (ext ts : List Token) (s t : Reading α) : Prop :=
  ∀ k a us m, s.run ⟨ts, k⟩ = .ok (a, ⟨us, m⟩) →
    us <:+ ts ∧ t.run ⟨ts ++ Token.limit :: ext, k⟩ = .ok (a, ⟨us ++ Token.limit :: ext, m⟩)

/-- So it is for all tokens. -/
def Extends (ext : List Token) (s t : Reading α) : Prop := ∀ ts, ExtendsAt ext ts s t

/-! ### Steps that are put together -/

section

variable {ts : List Token} {s t : Reading α} {f g : α → Reading β}

theorem ExtendsAt.bind (h : ExtendsAt ext ts s t)
    (hnext : ∀ a us, us <:+ ts → ExtendsAt ext us (f a) (g a)) :
    ExtendsAt ext ts (s >>= f) (t >>= g) := by
  intro k b us m hrun
  obtain ⟨⟨a, vs, n⟩, ha, hb⟩ := exists_of_bind_eq_ok hrun
  obtain ⟨hvs, hfirst⟩ := h k a vs n ha
  obtain ⟨hus, hsecond⟩ := hnext a vs hvs n b us m hb
  refine ⟨hus.trans hvs, ?_⟩
  rw [StateT.run_bind, hfirst]
  exact hsecond

@[grind ←]
theorem Extends.bind (h : Extends ext s t) (hnext : ∀ a, Extends ext (f a) (g a)) :
    Extends ext (s >>= f) (t >>= g) :=
  fun ts => (h ts).bind fun a us _ => hnext a us

@[grind ←]
theorem extends_pure (a : α) : Extends ext (pure a) (pure a) := by
  intro ts k b us m hrun
  obtain ⟨rfl, rfl, rfl⟩ : a = b ∧ ts = us ∧ k = m := by simpa using hrun
  exact ⟨List.suffix_rfl, rfl⟩

@[grind ←]
theorem Extends.map (f : α → β) (h : Extends ext s t) : Extends ext (f <$> s) (f <$> t) := by
  rw [map_eq_pure_bind, map_eq_pure_bind]
  exact h.bind fun a => extends_pure (f a)

theorem ExtendsAt.ite {c : Prop} [Decidable c] {s' t' : Reading α} (h : ExtendsAt ext ts s t)
    (h' : ExtendsAt ext ts s' t') :
    ExtendsAt ext ts (if c then s else s') (if c then t else t') := by
  split
  · exact h
  · exact h'

theorem Extends.ite {c : Prop} [Decidable c] {s' t' : Reading α} (h : Extends ext s t)
    (h' : Extends ext s' t') : Extends ext (if c then s else s') (if c then t else t') :=
  fun ts => (h ts).ite (h' ts)

/-- What refuses takes nothing. -/
@[grind ←]
theorem extends_refuse : Extends ext refuse t := by
  intro ts k a us m hrun
  obtain ⟨fault, hfault⟩ := run_refuse (α := α) ⟨ts, k⟩
  simp [hfault] at hrun

@[grind ←]
theorem extends_throw (fault : Fault) : Extends ext (throw fault) t := by
  intro ts k a us m hrun
  cases hrun

/-- A step that is given the tokens that are left. -/
theorem extends_left {f g : List Token → Reading β}
    (h : ∀ ts, ExtendsAt ext ts (f ts) (g (ts ++ Token.limit :: ext))) :
    Extends ext (left >>= f) (left >>= g) :=
  fun ts k a us m hrun => h ts k a us m hrun

/-- A step that is given the next token. -/
theorem extendsAt_peek? {f g : Option Token → Reading β}
    (hnone : ts = [] → ExtendsAt ext [] (f none) (g (some .limit)))
    (hsome : ∀ t us, ts = t :: us → ExtendsAt ext (t :: us) (f (some t)) (g (some t))) :
    ExtendsAt ext ts (peek? >>= f) (peek? >>= g) := by
  intro k a us m hrun
  cases ts with
  | nil => exact hnone rfl k a us m hrun
  | cons t ts => exact hsome t ts rfl k a us m hrun

theorem extends_peek? {f g : Option Token → Reading β}
    (hnone : ExtendsAt ext [] (f none) (g (some .limit)))
    (hsome : ∀ t us, ExtendsAt ext (t :: us) (f (some t)) (g (some t))) :
    Extends ext (peek? >>= f) (peek? >>= g) :=
  fun _ => extendsAt_peek? (fun _ => hnone) fun t us _ => hsome t us

/-- A token is passed over. -/
theorem extendsAt_skip {f g : Unit → Reading β} {t : Token} (h : ExtendsAt ext ts (f ()) (g ())) :
    ExtendsAt ext (t :: ts) (skip >>= f) (skip >>= g) := by
  intro k a us m hrun
  obtain ⟨hus, hrest⟩ := h k a us m hrun
  exact ⟨hus.trans (List.suffix_cons t ts), hrest⟩

end

/-! ### Basic steps -/

@[simp] theorem nameOf?_limit : nameOf? Token.limit = none := by decide

@[simp] theorem isSymbol_limit (symbol : String) : Token.limit.isSymbol symbol = false := by
  simp [Token.limit]

theorem isWord_limit {keyword : String} (h : keyword ≠ "LIMIT") :
    Token.limit.isWord keyword = false := by
  have hlimit : "LIMIT".toList.map Char.toUpper = "LIMIT".toList := by decide
  rw [Token.limit, Token.isWord_ofWord, hlimit]
  exact beq_eq_false_iff_ne.mpr fun heq => h (String.toList_inj.mp heq).symm

/-- A step that only asks whether the next token is one of a kind. -/
theorem extends_look {p : Token → Bool} (hp : p .limit = false) :
    Extends ext (do return ((← peek?).map p).getD false)
      (do return ((← peek?).map p).getD false) := by
  refine extends_peek? ?_ fun t ts => extends_pure _ (t :: ts)
  have hnone : ExtendsAt ext [] (pure false) (pure false) := extends_pure false []
  simpa [hp] using hnone

@[grind ←]
theorem extends_sees {keyword : String} (h : keyword ≠ "LIMIT") :
    Extends ext (sees keyword) (sees keyword) := extends_look (isWord_limit h)

@[grind ←]
theorem extends_seesSymbol (symbol : String) :
    Extends ext (seesSymbol symbol) (seesSymbol symbol) := extends_look (isSymbol_limit symbol)

/-- Takes the next token if it is one of a kind, and says whether it did. -/
def acceptIf (p : Token → Bool) : Reading Bool := do
  if ← (do return ((← peek?).map p).getD false) then
    skip
    return true
  else return false

section

variable {ts : List Token} {f g : Bool → Reading β} {symbol keyword : String}

theorem extendsAt_acceptIf {p : Token → Bool} (hp : p .limit = false)
    (hno : ExtendsAt ext ts (f false) (g false))
    (hyes : ∀ t us, ts = t :: us → p t = true → ExtendsAt ext us (f true) (g true)) :
    ExtendsAt ext ts (acceptIf p >>= f) (acceptIf p >>= g) := by
  have hstop : ∀ us k, (∀ t ∈ us.head?, p t = false) →
      (acceptIf p).run ⟨us, k⟩ = .ok (false, ⟨us, k⟩) := by
    intro us k hus
    cases us with
    | nil => rfl
    | cons t us => simp [acceptIf, hus t rfl]
  have hgo : ∀ t us k, p t = true → (acceptIf p).run ⟨t :: us, k⟩ = .ok (true, ⟨us, k⟩) := by
    intro t us k ht
    simp [acceptIf, ht]
  intro k b us m hrun
  rw [StateT.run_bind] at hrun ⊢
  cases ts with
  | nil =>
    rw [hstop [] k (by simp)] at hrun
    rw [hstop _ k (by simpa using hp)]
    exact hno k b us m hrun
  | cons t ts =>
    cases ht : p t with
    | false =>
      rw [hstop (t :: ts) k (by simpa using ht)] at hrun
      rw [hstop _ k (by simpa using ht)]
      exact hno k b us m hrun
    | true =>
      rw [hgo t ts k ht] at hrun
      rw [List.cons_append, hgo t _ k ht]
      obtain ⟨hus, hrest⟩ := hyes t ts rfl ht k b us m hrun
      exact ⟨hus.trans (List.suffix_cons t ts), hrest⟩

/-- A step behind a symbol that may be there. -/
theorem extendsAt_acceptSymbol (hno : ExtendsAt ext ts (f false) (g false))
    (hyes : ∀ t us, ts = t :: us → t.isSymbol symbol = true →
      ExtendsAt ext us (f true) (g true)) :
    ExtendsAt ext ts (acceptSymbol symbol >>= f) (acceptSymbol symbol >>= g) :=
  extendsAt_acceptIf (isSymbol_limit symbol) hno hyes

/-- A step behind a keyword that may be there. -/
theorem extendsAt_accept (hk : keyword ≠ "LIMIT") (hno : ExtendsAt ext ts (f false) (g false))
    (hyes : ∀ t us, ts = t :: us → t.isWord keyword = true → ExtendsAt ext us (f true) (g true)) :
    ExtendsAt ext ts (accept keyword >>= f) (accept keyword >>= g) :=
  extendsAt_acceptIf (isWord_limit hk) hno hyes

end

@[grind ←]
theorem extends_accept {keyword : String} (h : keyword ≠ "LIMIT") :
    Extends ext (accept keyword) (accept keyword) := by
  intro ts
  rw [← bind_pure (accept keyword)]
  exact extendsAt_accept h (extends_pure false ts) fun _ us _ _ => extends_pure true us

@[grind ←]
theorem extends_acceptSymbol (symbol : String) :
    Extends ext (acceptSymbol symbol) (acceptSymbol symbol) := by
  intro ts
  rw [← bind_pure (acceptSymbol symbol)]
  exact extendsAt_acceptSymbol (extends_pure false ts) fun _ us _ _ => extends_pure true us

@[grind ←]
theorem extends_expect {keyword : String} (h : keyword ≠ "LIMIT") :
    Extends ext (expect keyword) (expect keyword) := by
  refine (extends_accept h).bind fun found => ?_
  cases found with
  | false => exact extends_refuse
  | true => exact extends_pure _

@[grind ←]
theorem extends_expectSymbol (symbol : String) :
    Extends ext (expectSymbol symbol) (expectSymbol symbol) := by
  refine (extends_acceptSymbol symbol).bind fun found => ?_
  cases found with
  | false => exact extends_refuse
  | true => exact extends_pure _

@[grind ←]
theorem extends_name : Extends ext name name := by
  refine extends_peek? ?_ fun t ts => ?_
  · simpa using extends_refuse []
  · cases ht : nameOf? t with
    | none => simpa [ht] using extends_refuse (t :: ts)
    | some s =>
      have hskip : ExtendsAt ext (t :: ts) (skip >>= fun _ => pure s) (skip >>= fun _ => pure s) :=
        extendsAt_skip (extends_pure s ts)
      simpa [ht] using hskip

@[grind ←]
theorem extends_nameAsWritten : Extends ext nameAsWritten nameAsWritten := by
  refine extends_peek? ?_ fun t ts => ?_
  · intro k a us m hrun
    cases hrun
  · exact (extends_name.bind fun s => extends_pure _) (t :: ts)

/-- The tokens that are taken are the same. -/
theorem ExtendsAt.taken {s t : Reading α} {ts : List Token} (h : ExtendsAt ext ts s t) :
    ExtendsAt ext ts (taken s) (taken t) := by
  intro k r us m hrun
  obtain ⟨⟨a, vs, n⟩, ha, hr⟩ := exists_of_bind_eq_ok hrun
  obtain ⟨hvs, hfirst⟩ := h k a vs n ha
  obtain ⟨rfl, hleft⟩ := Prod.mk.inj (Except.ok.inj hr)
  cases hleft
  refine ⟨hvs, ?_⟩
  have hle : ts.length - us.length ≤ ts.length := Nat.sub_le _ _
  have hcount : (ts ++ Token.limit :: ext).length - (us ++ Token.limit :: ext).length =
      ts.length - us.length := by
    simp only [List.length_append]
    omega
  simp [Reading.taken, hfirst, hcount, List.take_append_of_le_length hle, -List.length_append]

section

variable {s t : Reading α} (h : Extends ext s t)

include h

@[grind ←]
theorem extends_behind {keyword : String} (hk : keyword ≠ "LIMIT") :
    Extends ext (behind keyword s) (behind keyword t) :=
  (extends_accept hk).bind fun _ => .ite (.map some h) (extends_pure none)

@[grind ←]
theorem extends_taken : Extends ext (taken s) (taken t) := fun ts => (h ts).taken

/-- Items are divided by commas; there are no more of them than tokens. -/
theorem extends_separated {n n' : Nat} (hn : n ≤ n') {ts : List Token} (hts : ts.length ≤ n) :
    ExtendsAt ext ts (separated s n) (separated t n') := by
  induction n generalizing n' ts with
  | zero =>
    obtain rfl := List.length_eq_zero_iff.mp (Nat.le_zero.mp hts)
    cases n' with
    | zero => exact (h.bind fun a => extends_pure [a]) []
    | succ n' =>
      refine (h []).bind fun a us hus => ?_
      obtain rfl := List.suffix_nil.mp hus
      -- nothing is left, and no comma stands where the limit begins
      intro k b vs m hrun
      obtain ⟨rfl, rfl, rfl⟩ : [a] = b ∧ [] = vs ∧ k = m := by simpa using hrun
      simp
  | succ n ih =>
    obtain ⟨n', rfl⟩ : ∃ m, n' = m + 1 := ⟨n' - 1, by omega⟩
    refine (h ts).bind fun a us hus => ?_
    refine extendsAt_acceptSymbol (extends_pure [a] us) fun v vs hvs _ => ?_
    have hle := hus.length_le
    rw [hvs, List.length_cons] at hle
    exact (ih (by omega) (by omega)).bind fun as _ _ => extends_pure (a :: as) _

end

/-- Items in parentheses. -/
@[grind ←]
theorem extends_inParens {s t : Reading α} (h : Extends ext s t) :
    Extends ext (inParens s) (inParens t) := by
  refine (extends_expectSymbol "(").bind fun _ => extends_left fun ts => ?_
  refine (extends_separated h (by simp) (Nat.le_refl _)).bind fun items us _ => ?_
  exact ((extends_expectSymbol ")").bind fun _ => extends_pure items) us

/-! ### Expressions -/

/-- The next token is passed over if it is a number. -/
theorem extends_number :
    Extends ext
      (do
        match (← peek?).map Token.lexeme with
        | some .number => skip
        | _ => (refuse : Reading Unit))
      (do
        match (← peek?).map Token.lexeme with
        | some .number => skip
        | _ => refuse) := by
  refine extends_peek? (extends_refuse []) fun t ts => ?_
  cases ht : t.lexeme with
  | number => simpa [ht] using extendsAt_skip (f := pure) (g := pure) (extends_pure () ts)
  | _ => simpa [ht] using extends_refuse (t :: ts)

@[grind ←]
theorem extends_signedNumber : Extends ext signedNumber signedNumber := by
  unfold signedNumber
  repeat' first
    | exact extends_number
    | with_reducible first | apply Extends.bind | apply Extends.ite | intro _
  all_goals grind

/-- A declared type has no more words than there are tokens. -/
theorem extends_typeWords {n n' : Nat} (hn : n ≤ n') {ts : List Token} (hts : ts.length ≤ n) :
    ExtendsAt ext ts (typeWords n) (typeWords n') := by
  induction n generalizing n' ts with
  | zero =>
    obtain rfl := List.length_eq_zero_iff.mp (Nat.le_zero.mp hts)
    intro k a us m hrun
    obtain ⟨rfl, rfl⟩ : [] = us ∧ k = m := by simpa [typeWords] using hrun
    cases n' <;> simp [typeWords]
  | succ n ih =>
    obtain ⟨n', rfl⟩ : ∃ m, n' = m + 1 := ⟨n' - 1, by omega⟩
    rw [typeWords, typeWords]
    refine extendsAt_peek? (fun _ => ?_) fun t us hus => ?_
    · have hnone : ExtendsAt ext [] (pure ()) (pure ()) := extends_pure () []
      simpa using hnone
    · have hle : us.length ≤ n := by simpa [hus] using hts
      cases ht : nameOf? t with
      | none => simpa [ht] using extends_pure () (t :: us)
      | some name =>
        simp only [Option.bind_some, ht, Option.isSome_some, if_true]
        refine extendsAt_skip (ExtendsAt.bind (extends_seesSymbol "(" us) fun found vs hvs => ?_)
        refine ExtendsAt.ite ?_ (ih (by omega) (Nat.le_trans hvs.length_le hle))
        exact ((extends_inParens extends_signedNumber).bind fun _ => extends_pure ()) vs

@[grind ←]
theorem extends_typeName : Extends ext typeName typeName := by
  refine extends_left fun ts => ?_
  have hwords : ExtendsAt ext ts (typeWords ts.length)
      (typeWords (ts ++ Token.limit :: ext).length) :=
    extends_typeWords (by simp) (Nat.le_refl ts.length)
  refine hwords.taken.bind fun r us _ => ?_
  obtain ⟨-, _ | ⟨t, _ | ⟨u, tokens⟩⟩⟩ := r
  all_goals exact extends_pure _ us

/-- A word that begins no operator. -/
theorem operator?_word {gap w : String}
    (hw : ∀ keyword ∈ "NOT" :: wordOperators.map (·.1), (Token.ofWord gap w).isWord keyword = false)
    (ts : List Token) : operator? (Token.ofWord gap w :: ts) = none := by
  have hsymbols : (symbolOperators.find? fun s => (Token.ofWord gap w).isSymbol s.1) = none := by
    simp
  have hwords : (wordOperators.find? fun s => (Token.ofWord gap w).isWord s.1) = none := by
    simpa using fun keyword op hop =>
      hw keyword (List.mem_cons_of_mem _ (List.mem_map_of_mem (f := (·.1)) hop))
  have hnot := hw "NOT" (by decide)
  have his := hw "IS" (by decide)
  simp only [operator?, hsymbols, hwords, hnot, his]
  rfl

/-- The operator at the front of tokens does not reach to the limit. -/
theorem operator?_append (ts : List Token) :
    operator? (ts ++ Token.limit :: ext) = operator? ts := by
  rcases ts with _ | ⟨t, _ | ⟨u, us⟩⟩
  · exact operator?_word (by decide) ext
  · simp [operator?, isWord_limit]
  · rfl

theorem le_length_of_operator? {ts : List Token} {op : Operator} {negated : Bool} {count : Nat}
    (h : operator? ts = some (op, negated, count)) : count ≤ ts.length := by
  cases ts with
  | nil => cases h
  | cons t us =>
    simp only [operator?] at h
    generalize (symbolOperators.find? fun s => t.isSymbol s.1) = symbol at h
    generalize (wordOperators.find? fun w => t.isWord w.1) = word at h
    cases us <;> cases symbol <;> cases word <;> grind

/-- Tokens are passed over. -/
theorem extendsAt_drop {f g : PUnit → Reading β} {ts : List Token} {n : Nat} (hn : n ≤ ts.length)
    (h : ExtendsAt ext (ts.drop n) (f ⟨⟩) (g ⟨⟩)) :
    ExtendsAt ext ts ((modify fun u => { u with tokens := u.tokens.drop n }) >>= f)
      ((modify fun u => { u with tokens := u.tokens.drop n }) >>= g) := by
  intro k a us m hrun
  obtain ⟨hus, hrest⟩ := h k a us m hrun
  refine ⟨hus.trans (List.drop_suffix n ts), ?_⟩
  rw [← List.drop_append_of_le_length hn] at hrest
  exact hrest

/-- A marker is counted, which leaves the tokens. -/
theorem extends_marker (number : Option Nat) :
    Extends ext
      (do
        let u ← get
        let n := number.getD (u.markers + 1)
        set { u with markers := max n u.markers }
        return Phrase.parameter (n - 1))
      (do
        let u ← get
        let n := number.getD (u.markers + 1)
        set { u with markers := max n u.markers }
        return Phrase.parameter (n - 1)) := by
  intro ts k a us m hrun
  obtain ⟨rfl, hu⟩ := Prod.mk.inj (Except.ok.inj hrun)
  cases hu
  exact ⟨List.suffix_rfl, rfl⟩

/-- A step that depends on the symbol after the next token. -/
theorem extendsAt_peekSecond? {s t s' t' : Reading β} {symbol : String} {w : Bool} {v : Token}
    {ts : List Token} (hyes : ∀ u us, ts = u :: us → ExtendsAt ext (v :: u :: us) s t)
    (hno : ExtendsAt ext (v :: ts) s' t') :
    ExtendsAt ext (v :: ts)
      (do
        if w && (← (do return ((← peekSecond?).map (Token.isSymbol · symbol)).getD false)) then s
        else s')
      (do
        if w && (← (do return ((← peekSecond?).map (Token.isSymbol · symbol)).getD false)) then t
        else t') := by
  cases ts with
  | nil =>
    intro k a us m hrun
    obtain ⟨hus, hrest⟩ := hno k a us m (by simpa using hrun)
    exact ⟨hus, by simpa using hrest⟩
  | cons u us =>
    have hfound := ExtendsAt.ite (c := (w && u.isSymbol symbol) = true) (hyes u us rfl) hno
    exact hfound

/-! ### Expressions

The steps of the grammar of expressions call each other with less fuel, so they are taken together:
with one more unit of fuel on both sides each of them extends if all of them do. -/

/-- The steps of the grammar of expressions, for one supply of fuel and another. -/
structure ExtendsGrammar (ext : List Token) (fuel fuel' : Nat) : Prop where
  expression (least : Nat) : Extends ext (expression fuel least) (expression fuel' least)
  climb (least : Nat) (p : Phrase) : Extends ext (climb fuel least p) (climb fuel' least p)
  operand : Extends ext (operand fuel) (operand fuel')
  symbolOperand (t : Token) (ts : List Token) :
    ExtendsAt ext (t :: ts) (symbolOperand fuel t) (symbolOperand fuel' t)
  wordOperand (t : Token) (ts : List Token) :
    ExtendsAt ext (t :: ts) (wordOperand fuel t) (wordOperand fuel' t)
  expressions : Extends ext (expressions fuel) (expressions fuel')
  orderTerms : Extends ext (orderTerms fuel) (orderTerms fuel')
  branches : Extends ext (branches fuel) (branches fuel')

theorem extendsGrammar_zero (fuel' : Nat) : ExtendsGrammar ext 0 fuel' where
  expression least := by
    rw [expression]
    exact extends_refuse
  climb least p := by
    rw [climb]
    exact extends_refuse
  operand := by
    rw [operand]
    exact extends_refuse
  symbolOperand t ts := by
    rw [symbolOperand]
    exact extends_refuse _
  wordOperand t ts := by
    rw [wordOperand]
    exact extends_refuse _
  expressions := by
    rw [expressions]
    exact extends_refuse
  orderTerms := by
    rw [orderTerms]
    exact extends_refuse
  branches := by
    rw [branches]
    exact extends_refuse

section

variable {fuel fuel' : Nat} (h : ExtendsGrammar ext fuel fuel')

include h

theorem extends_expression (least : Nat) :
    Extends ext (expression (fuel + 1) least) (expression (fuel' + 1) least) := by
  rw [expression, expression]
  exact h.operand.bind fun p => h.climb least p

theorem extends_climb (least : Nat) (p : Phrase) :
    Extends ext (climb (fuel + 1) least p) (climb (fuel' + 1) least p) := by
  rw [climb, climb]
  refine .ite ((extends_accept (by decide)).bind fun _ => .ite (h.climb least _)
    ((extends_accept (by decide)).bind fun _ => .ite (h.climb least _) ?_)) ?_
  -- what comes behind an operator is the same, wherever the two words were looked for
  all_goals
    refine extends_left fun ts => ?_
    rw [operator?_append]
    cases hoperator : operator? ts with
    | none => exact extends_pure p ts
    | some r =>
      obtain ⟨op, negated, count⟩ := r
      refine ExtendsAt.ite (extends_pure p ts) ?_
      refine extendsAt_drop (le_length_of_operator? hoperator) ?_
      have hjoined : ∀ joined : Phrase, Extends ext
          (climb fuel least (if negated then .unary .not joined else joined))
          (climb fuel' least (if negated then .unary .not joined else joined)) :=
        fun joined => h.climb least _
      refine Extends.ite ?_ ((h.expression _).bind fun _ => hjoined _) _
      refine (extends_expectSymbol "(").bind fun _ => (extends_acceptSymbol ")").bind fun _ => ?_
      refine .ite (hjoined _) (h.expressions.bind fun members => ?_)
      refine (extends_expectSymbol ")").bind fun _ => .ite ?_ (hjoined _)
      cases members.find? fun m => decide (m.width ≠ p.width) with
      | none => exact hjoined _
      | some m => exact (extends_throw _).bind fun _ => hjoined _

theorem extends_operand : Extends ext (operand (fuel + 1)) (operand (fuel' + 1)) := by
  rw [operand, operand]
  refine extends_peek? (extends_refuse []) fun t ts => ?_
  cases hlexeme : t.lexeme
  all_goals simp only [hlexeme]
  case illegal => exact extends_refuse _
  case number | text | blob => exact extendsAt_skip (extends_pure _ ts)
  case marker number => exact extendsAt_skip (extends_marker number ts)
  case symbol => exact h.symbolOperand t ts
  case word => exact h.wordOperand t ts
  case quoted name =>
    refine extendsAt_skip (((extends_acceptSymbol ".").bind fun _ => ?_) ts)
    exact .ite (extends_name.bind fun _ => extends_pure _) (extends_pure _)
  case bracketed name =>
    refine extendsAt_skip (((extends_acceptSymbol ".").bind fun _ => ?_) ts)
    exact .ite (extends_name.bind fun _ => extends_pure _) (extends_pure _)

theorem extends_symbolOperand (t : Token) (ts : List Token) : ExtendsAt ext (t :: ts)
    (symbolOperand (fuel + 1) t) (symbolOperand (fuel' + 1) t) := by
  rw [symbolOperand, symbolOperand]
  refine ExtendsAt.ite ?_ (ExtendsAt.ite ?_ (ExtendsAt.ite ?_ (extends_refuse _)))
  · refine extendsAt_skip ((h.expressions.bind fun items => ?_) ts)
    refine (extends_expectSymbol ")").bind fun _ => ?_
    rcases items with _ | ⟨item, _ | ⟨next, items⟩⟩
    all_goals exact extends_pure _
  · refine extendsAt_skip (extends_peek? (extends_refuse []) (fun number us => ?_) ts)
    refine .ite (extendsAt_skip (extends_pure _ us)) ?_
    exact ((h.expression _).bind fun p => extends_pure p.negation) (number :: us)
  · exact extendsAt_skip (h.expression _ ts)

/-- The parts of a choice behind its first word. -/
theorem extends_case : Extends ext
    (do
      let operand ← if ← sees "WHEN" then pure none else some <$> expression fuel 0
      let branches ← branches fuel
      let otherwise ← if ← accept "ELSE" then some <$> expression fuel 0 else pure none
      expect "END"
      return Phrase.case operand branches otherwise)
    (do
      let operand ← if ← sees "WHEN" then pure none else some <$> expression fuel' 0
      let branches ← branches fuel'
      let otherwise ← if ← accept "ELSE" then some <$> expression fuel' 0 else pure none
      expect "END"
      return Phrase.case operand branches otherwise) := by
  have hclose : ∀ operand cases otherwise, Extends ext
      (do
        expect "END"
        return Phrase.case operand cases otherwise)
      (do
        expect "END"
        return Phrase.case operand cases otherwise) := fun _ _ _ =>
    (extends_expect (by decide)).bind fun _ => extends_pure _
  have hsome : Extends ext (some <$> expression fuel 0) (some <$> expression fuel' 0) :=
    .map some (h.expression 0)
  have hcases : ∀ operand, Extends ext
      (do
        let branches ← branches fuel
        let otherwise ← if ← accept "ELSE" then some <$> expression fuel 0 else pure none
        expect "END"
        return Phrase.case operand branches otherwise)
      (do
        let branches ← branches fuel'
        let otherwise ← if ← accept "ELSE" then some <$> expression fuel' 0 else pure none
        expect "END"
        return Phrase.case operand branches otherwise) := fun operand =>
    h.branches.bind fun cases => (extends_accept (by decide)).bind fun _ =>
      .ite (hsome.bind (hclose operand cases)) ((extends_pure none).bind (hclose operand cases))
  exact (extends_sees (by decide)).bind fun _ =>
    .ite ((extends_pure none).bind hcases) (hsome.bind hcases)

/-- The order of a window, behind its partition. -/
theorem extends_windowOrder (name : String) (parts : List Phrase) : Extends ext
    (do
      let order ← if ← accept "ORDER" then
        expect "BY"
        orderTerms fuel
      else pure []
      expectSymbol ")"
      return Phrase.rowNumber name parts order)
    (do
      let order ← if ← accept "ORDER" then
        expect "BY"
        orderTerms fuel'
      else pure []
      expectSymbol ")"
      return Phrase.rowNumber name parts order) := by
  have hclose : ∀ order, Extends ext
      (do
        expectSymbol ")"
        return Phrase.rowNumber name parts order)
      (do
        expectSymbol ")"
        return Phrase.rowNumber name parts order) := fun order =>
    (extends_expectSymbol ")").bind fun _ => extends_pure _
  refine (extends_accept (by decide)).bind fun _ => .ite ?_ ((extends_pure []).bind hclose)
  exact (extends_expect (by decide)).bind fun _ => h.orderTerms.bind hclose

theorem extends_wordOperand (t : Token) (ts : List Token) : ExtendsAt ext (t :: ts)
    (wordOperand (fuel + 1) t) (wordOperand (fuel' + 1) t) := by
  rw [wordOperand, wordOperand]
  refine extendsAt_accept (by decide) ?_ fun _ us _ _ => extends_pure _ us
  refine extendsAt_accept (by decide) ?_ fun _ us _ _ =>
    ((h.expression _).bind fun p => extends_pure _) us
  refine extendsAt_accept (by decide) ?_ fun _ us _ _ => extends_pure _ us
  refine extendsAt_accept (by decide) ?_ fun _ us _ _ => extends_pure _ us
  refine extendsAt_accept (by decide) ?_ fun _ us _ _ => extends_pure _ us
  refine extendsAt_accept (by decide) ?_ fun _ us _ _ => extends_case h us
  refine extendsAt_peekSecond? (fun u us hus => ?_) ((extends_name.bind fun name => ?_) _)
  · refine extendsAt_skip (extendsAt_skip (((h.expression 0).bind fun a => ?_) us))
    refine (extends_expect (by decide)).bind fun _ => extends_typeName.bind fun type => ?_
    exact (extends_expectSymbol ")").bind fun _ => extends_pure _
  · have hcolumn : Extends ext
        (do
          if ← acceptSymbol "." then return Phrase.column (some name) (← Reading.name)
          else return .column none name)
        (do
          if ← acceptSymbol "." then return Phrase.column (some name) (← Reading.name)
          else return .column none name) :=
      (extends_acceptSymbol ".").bind fun _ =>
        .ite (extends_name.bind fun _ => extends_pure _) (extends_pure _)
    have hargs : ∀ distinct, Extends ext
        (do
          let args ← expressions fuel
          expectSymbol ")"
          return Phrase.call name distinct args)
        (do
          let args ← expressions fuel'
          expectSymbol ")"
          return Phrase.call name distinct args) := fun distinct =>
      h.expressions.bind fun _ => (extends_expectSymbol ")").bind fun _ => extends_pure _
    have horder := extends_windowOrder h name
    refine (extends_acceptSymbol "(").bind fun _ => .ite ?_ hcolumn
    refine (extends_acceptSymbol "*").bind fun _ => .ite ?_ ?_
    · exact (extends_expectSymbol ")").bind fun _ => extends_pure _
    · refine (extends_acceptSymbol ")").bind fun _ => .ite ?_
        ((extends_accept (by decide)).bind hargs)
      refine (extends_accept (by decide)).bind fun _ => .ite ?_ (extends_pure _)
      refine (extends_expectSymbol "(").bind fun _ => (extends_accept (by decide)).bind ?_
      refine fun _ => .ite ?_ ((extends_pure []).bind horder)
      exact (extends_expect (by decide)).bind fun _ => h.expressions.bind horder

theorem extends_expressions :
    Extends ext (expressions (fuel + 1)) (expressions (fuel' + 1)) := by
  rw [expressions, expressions]
  refine (h.expression 0).bind fun first => (extends_acceptSymbol ",").bind fun _ => ?_
  exact .ite (h.expressions.bind fun _ => extends_pure _) (extends_pure [first])

theorem extends_orderTerms :
    Extends ext (orderTerms (fuel + 1)) (orderTerms (fuel' + 1)) := by
  rw [orderTerms, orderTerms]
  have hmore : ∀ r : Phrase × Bool, Extends ext
      (do if ← acceptSymbol "," then return r :: (← orderTerms fuel) else return [r])
      (do if ← acceptSymbol "," then return r :: (← orderTerms fuel') else return [r]) :=
    fun r => (extends_acceptSymbol ",").bind fun _ =>
      .ite (h.orderTerms.bind fun _ => extends_pure _) (extends_pure [r])
  refine (h.expression 0).bind fun p => (extends_accept (by decide)).bind fun descending => ?_
  exact .ite ((extends_accept (by decide)).bind fun _ => hmore _) (hmore _)

theorem extends_branches :
    Extends ext (branches (fuel + 1)) (branches (fuel' + 1)) := by
  rw [branches, branches]
  refine (extends_expect (by decide)).bind fun _ => (h.expression 0).bind fun condition => ?_
  refine (extends_expect (by decide)).bind fun _ => (h.expression 0).bind fun result => ?_
  refine (extends_sees (by decide)).bind fun _ => ?_
  exact .ite (h.branches.bind fun _ => extends_pure _) (extends_pure [(condition, result)])

theorem ExtendsGrammar.succ : ExtendsGrammar ext (fuel + 1) (fuel' + 1) :=
  ⟨extends_expression h, extends_climb h, extends_operand h, extends_symbolOperand h,
    extends_wordOperand h, extends_expressions h, extends_orderTerms h, extends_branches h⟩

end

/-- **The steps of the grammar of expressions**, for one supply of fuel and a greater one. -/
theorem extendsGrammar {fuel fuel' : Nat} (hfuel : fuel ≤ fuel') :
    ExtendsGrammar ext fuel fuel' := by
  induction fuel generalizing fuel' with
  | zero => exact extendsGrammar_zero fuel'
  | succ fuel ih =>
    obtain ⟨fuel', rfl⟩ : ∃ m, fuel' = m + 1 := ⟨fuel' - 1, by omega⟩
    exact (ih (Nat.le_of_succ_le_succ hfuel)).succ

@[grind ←]
theorem extends_phrase : Extends ext phrase phrase := by
  refine extends_left fun ts => ?_
  have hfuel : 4 * ts.length + 4 ≤ 4 * (ts ++ Token.limit :: ext).length + 4 := by
    rw [List.length_append]
    omega
  exact (extendsGrammar hfuel).expression 0 ts

/-! ### Queries -/

@[grind ←]
theorem extends_objectName : Extends ext objectName objectName := by grind [objectName]

@[grind ←]
theorem extends_givenName? : Extends ext givenName? givenName? := by
  refine (extends_accept (by decide)).bind fun _ => .ite (.map some extends_name) ?_
  refine extends_peek? ?_ fun t ts => ?_
  · simpa using extends_pure none []
  · cases ht : nameOf? t with
    | none => simpa [ht] using extends_pure none (t :: ts)
    | some s =>
      have hskip : ExtendsAt ext (t :: ts) (skip >>= fun _ => pure (some s))
          (skip >>= fun _ => pure (some s)) := extendsAt_skip (extends_pure (some s) ts)
      simpa [ht] using hskip

@[grind ←]
theorem extends_selected : Extends ext selected selected := by
  refine (extends_acceptSymbol "*").bind fun _ => .ite (extends_pure _) ?_
  have hphrase : Extends ext
      (do
        let r ← taken phrase
        return Selected.phrase r.1 (← givenName?) (Token.written r.2))
      (do
        let r ← taken phrase
        return Selected.phrase r.1 (← givenName?) (Token.written r.2)) :=
    (extends_taken extends_phrase).bind fun _ => extends_givenName?.bind fun _ => extends_pure _
  refine extends_left fun ts => ?_
  -- three tokens that end in a star do not reach to the limit
  rcases ts with _ | ⟨t, _ | ⟨point, _ | ⟨star, us⟩⟩⟩
  · rcases ext with _ | ⟨e, _ | ⟨e', ext⟩⟩
    · exact hphrase []
    · exact hphrase []
    · simpa using hphrase []
  · cases ext with
    | nil => exact hphrase [t]
    | cons e ext => simpa using hphrase [t]
  · simpa using hphrase [t, point]
  · refine ExtendsAt.ite ?_ (hphrase _)
    exact extendsAt_skip (extendsAt_skip (extendsAt_skip (extends_pure _ us)))

@[grind ←]
theorem extends_phrases : Extends ext phrases phrases :=
  extends_left fun ts => extends_separated extends_phrase (by simp) (Nat.le_refl _)

@[grind ←]
theorem extends_orderTerm : Extends ext orderTerm orderTerm := by
  unfold orderTerm
  repeat' with_reducible first | apply Extends.bind | apply Extends.ite | intro _
  all_goals grind

/-- The tokens behind `LIMIT` are a limit, and an offset if there is one. -/
def Bounds (ext : List Token) (limit : Phrase) (offset : Option Phrase) : Prop :=
  ∃ us, (∀ m, phrase.run ⟨ext, m⟩ = .ok (limit, ⟨us, m⟩)) ∧
    ∀ m, (behind "OFFSET" phrase).run ⟨us, m⟩ = .ok (offset, ⟨[], m⟩)

/-- A query that is read from tokens among which is no `LIMIT`, to their end, has no limit; with one
behind them it is read as the same query with that limit. -/
def Pages (ext : List Token) (limit : Phrase) (offset : Option Phrase) (s : Reading Query) : Prop :=
  ∀ ts k q m, (∀ t ∈ ts, t.isWord "LIMIT" = false) → s.run ⟨ts, k⟩ = .ok (q, ⟨[], m⟩) →
    (q.limit = none ∧ q.offset = none) ∧ s.run ⟨ts ++ Token.limit :: ext, k⟩ =
      .ok ({ q with limit := some limit, offset := offset }, ⟨[], m⟩)

section

variable {limit : Phrase} {offset : Option Phrase} {s : Reading α} {f : α → Reading Query}

theorem Pages.bind (h : Extends ext s s) (hnext : ∀ a, Pages ext limit offset (f a)) :
    Pages ext limit offset (s >>= f) := by
  intro ts k q m hts hrun
  obtain ⟨⟨a, us, n⟩, ha, hq⟩ := exists_of_bind_eq_ok hrun
  obtain ⟨hus, hfirst⟩ := h ts k a us n ha
  obtain ⟨hnone, hrest⟩ := hnext a us n q m (fun t ht => hts t (hus.subset ht)) hq
  refine ⟨hnone, ?_⟩
  rw [StateT.run_bind, hfirst]
  exact hrest

/-- Items that are divided by commas, of which there are no more than tokens. -/
theorem Pages.separated {item : Reading α} {f : List α → Reading Query} (h : Extends ext item item)
    (hnext : ∀ as, Pages ext limit offset (f as)) :
    Pages ext limit offset (do f (← Reading.separated item (← left).length)) := by
  have hitems : Extends ext (do Reading.separated item (← left).length)
      (do Reading.separated item (← left).length) :=
    extends_left fun ts => extends_separated h (by simp) (Nat.le_refl _)
  simpa only [bind_assoc] using Pages.bind hitems hnext

/-- What stands behind a keyword that may be there. -/
theorem Pages.behind {keyword : String} {f : Option α → Reading Query} (hk : keyword ≠ "LIMIT")
    (h : Extends ext s s) (hnext : ∀ a, Pages ext limit offset (f a)) :
    Pages ext limit offset (do f (← Reading.behind keyword s)) :=
  Pages.bind (extends_behind h hk) hnext

/-- The limit itself. -/
theorem pages_limit (hbounds : Bounds ext limit offset) (f : Option Phrase → Option Phrase → Query)
    (hf : ∀ l o, f l o = { f none none with limit := l, offset := o }) :
    Pages ext limit offset (do
      let l ← Reading.behind "LIMIT" phrase
      let o ← if l.isSome then Reading.behind "OFFSET" phrase else pure none
      return f l o) := by
  intro ts k q m hts hrun
  cases ts with
  | nil =>
    obtain ⟨rfl, rfl⟩ : f none none = q ∧ k = m := by
      simpa [Reading.behind, Reading.accept] using hrun
    have hnone := hf none none
    obtain ⟨us, hlimit, hoffset⟩ := hbounds
    refine ⟨⟨congrArg Query.limit hnone, congrArg Query.offset hnone⟩, ?_⟩
    have hword : Token.limit.isWord "LIMIT" = true := by decide
    have hfirst : (Reading.behind "LIMIT" phrase).run ⟨[] ++ Token.limit :: ext, k⟩ =
        .ok (some limit, ⟨us, k⟩) := by
      simp [Reading.behind, hword, hlimit]
    rw [StateT.run_bind, hfirst, ← hf]
    simp [hoffset]
  | cons t ts =>
    have ht := hts t List.mem_cons_self
    simp [Reading.behind, ht] at hrun

/-- One of two queries. -/
theorem Pages.ite {c : Prop} [Decidable c] {s t : Reading Query} (hs : Pages ext limit offset s)
    (ht : Pages ext limit offset t) : Pages ext limit offset (if c then s else t) := by
  split
  · exact hs
  · exact ht

end

/-- **A query in front of a limit.** -/
theorem pages_query {limit : Phrase} {offset : Option Phrase} (hbounds : Bounds ext limit offset) :
    Pages ext limit offset query := by
  refine Pages.bind (extends_accept (by decide)) fun distinct => ?_
  refine Pages.ite (Pages.bind (extends_accept (by decide)) fun _ => ?_) ?_
  -- the clauses are the same, whether or not `ALL` was looked for
  all_goals
    refine Pages.separated extends_selected fun items => ?_
    refine Pages.behind (by decide) ?_ fun source => ?_
    · exact extends_objectName.bind fun _ => extends_givenName?.bind fun _ => extends_pure _
    refine Pages.behind (by decide) extends_phrase fun condition => ?_
    refine Pages.behind (by decide) ?_ fun groups => ?_
    · exact (extends_expect (by decide)).bind fun _ => extends_phrases
    refine Pages.behind (by decide) extends_phrase fun having => ?_
    refine Pages.behind (by decide) ?_ fun order => ?_
    · exact (extends_expect (by decide)).bind fun _ => extends_left fun ts =>
        extends_separated extends_orderTerm (by simp) (Nat.le_refl _)
    exact pages_limit hbounds _ fun _ _ => rfl

/-! ### Statements -/

/-- The first word of a query says that the statement is one. -/
theorem run_command_select (gap : String) (ts : List Token) (k : Nat) :
    command.run ⟨Token.ofWord gap "SELECT" :: ts, k⟩ =
      (do return .query (← query) : Reading Command).run ⟨ts, k⟩ := by
  have hselect : (Token.ofWord gap "SELECT").isWord "SELECT" = true := by
    rw [Token.isWord_ofWord]
    decide
  simp [command, hselect]

/-- A statement that begins with `SELECT` is a query, which is read to the end unless a semicolon
stands in it. -/
theorem exists_query {ts : List Token} (hts : ∀ t ∈ ts, t.isSymbol ";" = false) {gap : String}
    {k : Nat} {c : Option Command} {u : Unread}
    (h : command?.run ⟨Token.ofWord gap "SELECT" :: ts, k⟩ = .ok (c, u)) :
    ∃ q m, c = some (.query q) ∧ u = ⟨[], m⟩ ∧ query.run ⟨ts, k⟩ = .ok (q, ⟨[], m⟩) := by
  have hselect : (Token.ofWord gap "SELECT").isSymbol ";" = false := by simp
  have hcommand := run_command_select gap ts k
  simp only [command?, StateT.run_bind, run_skipSemicolons hselect, ok_bind, run_left,
    List.isEmpty_cons] at h
  cases hquery : query.run ⟨ts, k⟩ with
  | error fault => simp [hcommand, hquery] at h
  | ok r =>
    obtain ⟨q, us, m⟩ := r
    have hus := consumes_query ts k q ⟨us, m⟩ hquery
    cases us with
    | nil =>
      have hnone : (acceptSymbol ";").run ⟨[], m⟩ = .ok (false, ⟨[], m⟩) := rfl
      obtain ⟨rfl, rfl⟩ : some (.query q) = c ∧ ⟨[], m⟩ = u := by
        simpa [hcommand, hquery, hnone] using h
      exact ⟨q, m, rfl, rfl, rfl⟩
    | cons v vs =>
      have hv : v.isSymbol ";" = false := hts v (hus.subset List.mem_cons_self)
      obtain ⟨fault, hfault⟩ := run_refuse (α := Option Command) ⟨v :: vs, m⟩
      simp [hcommand, hquery, hv, hfault] at h

/-- **A query with a limit behind it is the same query with that limit.** -/
theorem run_command?_paged {limit : Phrase} {offset : Option Phrase}
    (hbounds : Bounds ext limit offset) {ts : List Token}
    (hts : ∀ t ∈ ts, t.isWord "LIMIT" = false ∧ t.isSymbol ";" = false) {gap : String} {k : Nat}
    {c : Option Command} {u : Unread}
    (h : command?.run ⟨Token.ofWord gap "SELECT" :: ts, k⟩ = .ok (c, u)) :
    ∃ q m, c = some (.query q) ∧ u = ⟨[], m⟩ ∧ (q.limit = none ∧ q.offset = none) ∧
      command?.run ⟨Token.ofWord gap "SELECT" :: (ts ++ Token.limit :: ext), k⟩ =
        .ok (some (.query { q with limit := some limit, offset := offset }), ⟨[], m⟩) := by
  obtain ⟨q, m, hc, hu, hquery⟩ := exists_query (fun t ht => (hts t ht).2) h
  obtain ⟨hnone, hpaged⟩ := pages_query hbounds ts k q m (fun t ht => (hts t ht).1) hquery
  refine ⟨q, m, hc, hu, hnone, ?_⟩
  refine run_command? (by simp) ?_
  rw [run_command_select]
  simp [hpaged]

end

end Reading

end EntitySql
