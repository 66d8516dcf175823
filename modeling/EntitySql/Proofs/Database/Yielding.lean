import EntitySql.Database.Grammar.Statement
import EntitySql.Proofs.Database.Lexing
import EntitySql.Proofs.Outcome
import Mathlib.Algebra.GroupWithZero.Nat

/-!
# What reading yields

A step that meets the tokens it expects takes them off the front, and `run` says what it gives and
leaves. The equations for the basic steps are simp lemmas, so a step that only looks for keywords
and symbols is run by unfolding it.

Where a statement holds a default, what follows depends on a text that may not be readable at all.
Statements about such steps are about partial correctness: whenever the step takes something off the
front of the given tokens, what it gives and leaves is as stated, and a step that refuses satisfies
every such statement.

## Main definitions

* `Reading.Yields`: partial correctness of a step
* `Token.Ends`: the comma or parenthesis behind an item of a list

## Main results

* `Reading.Yields.bind`, `Reading.Yields.taken`: how steps are put together
* `Reading.run_separated_items`, `Reading.run_inParens_items`: lists divided by commas
* `Reading.yields_command?`: one statement
-/

namespace EntitySql

namespace Token

theorem isWord_ofWord (gap w keyword : String) :
    (ofWord gap w).isWord keyword = (w.toList.map Char.toUpper == keyword.toList) := by
  simp [isWord, ofWord]

@[simp] theorem isWord_ofName (gap name keyword : String) :
    (ofName gap name).isWord keyword = false := by
  simp [isWord, ofName]

@[simp] theorem isWord_ofMark (gap : String) (c : Char) (keyword : String) :
    (ofMark gap c).isWord keyword = false := by
  simp [isWord, ofMark]

@[simp] theorem isSymbol_ofWord (gap w symbol : String) :
    (ofWord gap w).isSymbol symbol = false := by
  simp [isSymbol, ofWord]

@[simp] theorem isSymbol_ofName (gap name symbol : String) :
    (ofName gap name).isSymbol symbol = false := by
  simp [isSymbol, ofName]

theorem isSymbol_ofMark (gap : String) (c : Char) (symbol : String) :
    (ofMark gap c).isSymbol symbol = ([c] == symbol.toList) := by
  simp [isSymbol, ofMark]

/-- The token ends an item of a list in parentheses. -/
def Ends (t : Token) : Prop := t.isSymbol "," = true ∨ t.isSymbol ")" = true

theorem Ends.lexeme {t : Token} (h : t.Ends) : t.lexeme = .symbol := by
  rcases h with h | h <;> simp only [isSymbol, Bool.and_eq_true, beq_iff_eq] at h <;> exact h.1

theorem Ends.isWord {t : Token} (h : t.Ends) (keyword : String) : t.isWord keyword = false := by
  simp [Token.isWord, h.lexeme]

end Token

namespace Reading

variable {α β : Type}

@[simp] theorem ok_bind {ε : Type} (a : α) (f : α → Except ε β) : (Except.ok a >>= f) = f a := (rfl)

@[simp] theorem error_bind {ε : Type} (e : ε) (f : α → Except ε β) :
    ((Except.error e : Except ε α) >>= f) = .error e := (rfl)

@[simp] theorem pure_eq_ok {ε : Type} (a : α) : (pure a : Except ε α) = .ok a := (rfl)

@[simp] theorem map_ok {ε : Type} (a : α) (f : α → β) :
    (f <$> (Except.ok a : Except ε α)) = .ok (f a) := (rfl)

/-! ### Running steps -/

section

variable (u : Unread) (keyword symbol : String) (t : Token) (ts : List Token) (k : Nat)

@[simp] theorem run_left : left.run u = .ok (u.tokens, u) := rfl

@[simp] theorem run_peek? : peek?.run u = .ok (u.tokens.head?, u) := rfl

@[simp] theorem run_peekSecond? : peekSecond?.run u = .ok (u.tokens[1]?, u) := rfl

@[simp] theorem run_skip : skip.run u = .ok ((), { u with tokens := u.tokens.tail }) := rfl

@[simp] theorem run_sees :
    (sees keyword).run u =
      .ok ((u.tokens.head?.map (Token.isWord · keyword)).getD false, u) := rfl

@[simp] theorem run_seesSymbol :
    (seesSymbol symbol).run u =
      .ok ((u.tokens.head?.map (Token.isSymbol · symbol)).getD false, u) := rfl

@[simp] theorem run_accept :
    (accept keyword).run ⟨t :: ts, k⟩ =
      .ok (t.isWord keyword, ⟨if t.isWord keyword then ts else t :: ts, k⟩) := by
  cases h : t.isWord keyword <;> simp [accept, h]

@[simp] theorem run_acceptSymbol :
    (acceptSymbol symbol).run ⟨t :: ts, k⟩ =
      .ok (t.isSymbol symbol, ⟨if t.isSymbol symbol then ts else t :: ts, k⟩) := by
  cases h : t.isSymbol symbol <;> simp [acceptSymbol, h]

variable {keyword symbol t}

@[simp] theorem run_expect (h : t.isWord keyword = true) :
    (expect keyword).run ⟨t :: ts, k⟩ = .ok ((), ⟨ts, k⟩) := by
  simp [expect, h]

@[simp] theorem run_expectSymbol (h : t.isSymbol symbol = true) :
    (expectSymbol symbol).run ⟨t :: ts, k⟩ = .ok ((), ⟨ts, k⟩) := by
  simp [expectSymbol, h]

/-- A refusal is an error, whatever comes next. -/
theorem run_refuse : ∃ fault, (refuse : Reading α).run u = .error fault := by
  have hthrow : ∀ fault, (throw fault : Reading α).run u = .error fault := fun _ => rfl
  unfold refuse
  cases hhead : u.tokens.head? with
  | none => exact ⟨.unfinished, by simp [hhead, hthrow]⟩
  | some t =>
    by_cases hillegal : t.lexeme = .illegal
    · exact ⟨.illegalToken (String.ofList t.text), by simp [hhead, hillegal, hthrow]⟩
    · exact ⟨.unexpectedToken (String.ofList t.text), by simp [hhead, hillegal, hthrow]⟩

/-- A quoted name is taken as the name. -/
@[simp] theorem run_name (gap n : String) :
    name.run ⟨Token.ofName gap n :: ts, k⟩ = .ok (n, ⟨ts, k⟩) := by
  simp [name, nameOf?, Token.ofName]

@[simp] theorem run_nameAsWritten (gap n : String) :
    nameAsWritten.run ⟨Token.ofName gap n :: ts, k⟩ =
      .ok ((n, Text.Quoted.enclose '"' '"' n), ⟨ts, k⟩) := by
  simp [nameAsWritten]
  simp [Token.ofName]

end

/-- The tokens of items with commas between them. -/
def separate : List (List Token) → List Token
  | [] => []
  | [p] => p
  | p :: ps => p ++ Token.ofMark "" ',' :: separate ps

theorem length_le_separate {ps : List (List Token)} (h : ∀ p ∈ ps, p ≠ []) :
    ps.length ≤ (separate ps).length := by
  induction ps with
  | nil => exact Nat.le_refl _
  | cons p ps ih =>
    have hp : 1 ≤ p.length := List.length_pos_iff.mpr (h p List.mem_cons_self)
    have hps := ih fun q hq => h q (List.mem_cons_of_mem p hq)
    cases ps with
    | nil => simpa [separate] using hp
    | cons q qs =>
      simp only [separate, List.length_append, List.length_cons] at hps ⊢
      omega

/-- An item of a list: its tokens, what is read from them where a number of markers stands in front of
it, and its own markers. -/
structure Item (α : Type) where
  /-- The tokens. -/
  tokens : List Token
  /-- What is read. -/
  value : Nat → α
  /-- The number of its markers. -/
  markers : Nat := 0

namespace Item

/-- What is read from items where a number of markers stands in front of them. -/
def values : List (Item α) → Nat → List α
  | [], _ => []
  | x :: xs, k => x.value k :: values xs (k + x.markers)

/-- An item without markers. -/
def constant (x : List Token × α) : Item α := ⟨x.1, fun _ => x.2, 0⟩

theorem values_constant (xs : List (List Token × α)) (k : Nat) :
    values (xs.map constant) k = xs.map (·.2) := by
  induction xs with
  | nil => rfl
  | cons x xs ih => simp [values, constant, ih]

theorem sum_constant (xs : List (List Token × α)) :
    ((xs.map constant).map markers).sum = 0 := by
  induction xs with
  | nil => rfl
  | cons x xs ih => simpa [constant] using ih

end Item

/-- **Items divided by commas are taken one after the other**, up to a token that is no comma. -/
theorem run_separated_items {item : Reading α} {last : Token} (hlast : last.isSymbol "," = false)
    {items : List (Item α)} (hne : items ≠ [])
    (hitem : ∀ x ∈ items, ∀ (t : Token) ts k, t = Token.ofMark "" ',' ∨ t = last →
      item.run ⟨x.tokens ++ t :: ts, k⟩ = .ok (x.value k, ⟨t :: ts, k + x.markers⟩))
    {n : Nat} (hn : items.length ≤ n + 1) (ts : List Token) (k : Nat) :
    (separated item n).run ⟨separate (items.map Item.tokens) ++ last :: ts, k⟩ =
      .ok (Item.values items k, ⟨last :: ts, k + (items.map Item.markers).sum⟩) := by
  have hcomma : (Token.ofMark "" ',').isSymbol "," = true := rfl
  induction items generalizing n k with
  | nil => exact absurd rfl hne
  | cons x items ih =>
    have hfirst := hitem x List.mem_cons_self
    cases items with
    | nil =>
      have hrun := hfirst last ts k (.inr rfl)
      cases n with
      | zero => simp [separated, separate, hrun, Item.values]
      | succ n => simp [separated, separate, hrun, hlast, Item.values]
    | cons y items =>
      cases n with
      | zero => simp at hn
      | succ n =>
        have hrest := ih (by simp) (fun z hz => hitem z (List.mem_cons_of_mem x hz))
          (Nat.le_of_succ_le_succ hn) (k + x.markers)
        have hrun := hfirst (Token.ofMark "" ',')
          (separate ((y :: items).map Item.tokens) ++ last :: ts) k (.inl rfl)
        simp only [List.map_cons, separate, List.append_assoc, List.cons_append, List.sum_cons,
          ← Nat.add_assoc] at hrest hrun ⊢
        simp [separated, hrun, hcomma, hrest, Item.values]

/-- So are items in parentheses. -/
theorem run_inParens_items {item : Reading α} {items : List (Item α)} (hne : items ≠ [])
    (hitem : ∀ x ∈ items, x.tokens ≠ [] ∧ ∀ (t : Token) ts k, t.Ends →
      item.run ⟨x.tokens ++ t :: ts, k⟩ = .ok (x.value k, ⟨t :: ts, k + x.markers⟩))
    (gap : String) (ts : List Token) (k : Nat) :
    (inParens item).run ⟨Token.ofMark gap '(' ::
        (separate (items.map Item.tokens) ++ Token.ofMark "" ')' :: ts), k⟩ =
      .ok (Item.values items k, ⟨ts, k + (items.map Item.markers).sum⟩) := by
  have hopen : (Token.ofMark gap '(').isSymbol "(" = true := rfl
  have hclose : (Token.ofMark "" ')').isSymbol ")" = true := rfl
  have hpieces : ∀ p ∈ items.map Item.tokens, p ≠ [] := by
    intro p hp
    obtain ⟨x, hx, rfl⟩ := List.mem_map.mp hp
    exact (hitem x hx).1
  have hlength := length_le_separate hpieces
  have hends : ∀ t : Token, t = Token.ofMark "" ',' ∨ t = Token.ofMark "" ')' → t.Ends := by
    rintro t (rfl | rfl)
    · exact .inl rfl
    · exact .inr rfl
  have hcount : items.length ≤
      (separate (items.map Item.tokens) ++ Token.ofMark "" ')' :: ts).length + 1 := by
    simp only [List.length_map, List.length_append, List.length_cons] at hlength ⊢
    omega
  have hitems := run_separated_items rfl hne
    (fun x hx t ts k ht => (hitem x hx).2 t ts k (hends t ht)) hcount ts k
  simp only [inParens, StateT.run_bind, run_expectSymbol, hopen, hclose, ok_bind, run_left, hitems,
    StateT.run_pure, pure_eq_ok]

section

variable {item : Reading α} {items : List (List Token × α)} (hne : items ≠ [])

include hne

/-- Items without markers are taken up to a token that is no comma. -/
theorem run_separated_until {last : Token} (hlast : last.isSymbol "," = false)
    (hitem : ∀ x ∈ items, ∀ (t : Token) ts k, t = Token.ofMark "" ',' ∨ t = last →
      item.run ⟨x.1 ++ t :: ts, k⟩ = .ok (x.2, ⟨t :: ts, k⟩))
    {n : Nat} (hn : items.length ≤ n + 1) (ts : List Token) (k : Nat) :
    (separated item n).run ⟨separate (items.map (·.1)) ++ last :: ts, k⟩ =
      .ok (items.map (·.2), ⟨last :: ts, k⟩) := by
  have hconstant : ∀ x ∈ items.map Item.constant, ∀ (t : Token) us k,
      t = Token.ofMark "" ',' ∨ t = last →
        item.run ⟨x.tokens ++ t :: us, k⟩ = .ok (x.value k, ⟨t :: us, k + x.markers⟩) := by
    intro x hx
    obtain ⟨y, hy, rfl⟩ := List.mem_map.mp hx
    exact hitem y hy
  have hall := run_separated_items hlast (by simpa using hne) hconstant (by simpa using hn) ts k
  rw [Item.values_constant, Item.sum_constant, List.map_map] at hall
  exact hall

/-- They are taken up to a closing parenthesis. -/
theorem run_separated
    (hitem : ∀ x ∈ items, ∀ (t : Token) ts k, t.Ends →
      item.run ⟨x.1 ++ t :: ts, k⟩ = .ok (x.2, ⟨t :: ts, k⟩))
    {n : Nat} (hn : items.length ≤ n + 1) (gap : String) (ts : List Token) (k : Nat) :
    (separated item n).run ⟨separate (items.map (·.1)) ++ Token.ofMark gap ')' :: ts, k⟩ =
      .ok (items.map (·.2), ⟨Token.ofMark gap ')' :: ts, k⟩) := by
  refine run_separated_until hne rfl (fun x hx t us k ht => hitem x hx t us k ?_) hn ts k
  rcases ht with rfl | rfl
  · exact .inl rfl
  · exact .inr rfl

/-- So are items in parentheses. -/
theorem run_inParens
    (hitem : ∀ x ∈ items, x.1 ≠ [] ∧ ∀ (t : Token) ts k, t.Ends →
      item.run ⟨x.1 ++ t :: ts, k⟩ = .ok (x.2, ⟨t :: ts, k⟩))
    (gap : String) (ts : List Token) (k : Nat) :
    (inParens item).run ⟨Token.ofMark gap '(' ::
        (separate (items.map (·.1)) ++ Token.ofMark "" ')' :: ts), k⟩ =
      .ok (items.map (·.2), ⟨ts, k⟩) := by
  have hconstant : ∀ x ∈ items.map Item.constant, x.tokens ≠ [] ∧ ∀ (t : Token) us k, t.Ends →
      item.run ⟨x.tokens ++ t :: us, k⟩ = .ok (x.value k, ⟨t :: us, k + x.markers⟩) := by
    intro x hx
    obtain ⟨y, hy, rfl⟩ := List.mem_map.mp hx
    exact hitem y hy
  have hall := run_inParens_items (by simpa using hne) hconstant gap ts k
  rw [Item.values_constant, Item.sum_constant, List.map_map] at hall
  exact hall

end

/-! ### What a step yields -/

/-- Whatever the step takes off the front of the tokens, it gives and leaves what is stated. -/
def Yields (step : Reading α) (ts : List Token) (P : α → List Token → Prop) : Prop :=
  ∀ k a u, step.run ⟨ts, k⟩ = .ok (a, u) → P a u.tokens

section

variable {step : Reading α} {ts us : List Token} {P : β → List Token → Prop}

theorem Yields.mono {P Q : α → List Token → Prop} (h : Yields step ts P)
    (hpq : ∀ a us, P a us → Q a us) : Yields step ts Q :=
  fun k a u hrun => hpq a u.tokens (h k a u hrun)

theorem Yields.bind {next : α → Reading β} {Q : α → List Token → Prop} (h : Yields step ts Q)
    (hnext : ∀ a us, Q a us → Yields (next a) us P) : Yields (step >>= next) ts P := by
  intro k b u hrun
  obtain ⟨⟨a, v⟩, ha, hb⟩ := exists_of_bind_eq_ok hrun
  exact hnext a v.tokens (h k a v ha) v.markers b u hb

/-- A step that is run is passed over. -/
theorem Yields.bind_run {next : α → Reading β} {a : α}
    (h : ∀ k, step.run ⟨ts, k⟩ = .ok (a, ⟨us, k⟩)) (hnext : Yields (next a) us P) :
    Yields (step >>= next) ts P := by
  intro k b u hrun
  rw [StateT.run_bind, h] at hrun
  exact hnext k b u hrun

theorem yields_of_run {P : α → List Token → Prop} {a : α}
    (h : ∀ k, step.run ⟨ts, k⟩ = .ok (a, ⟨us, k⟩)) (hp : P a us) : Yields step ts P := by
  intro k b u hrun
  rw [h] at hrun
  obtain ⟨rfl, rfl⟩ := Prod.mk.inj (Except.ok.inj hrun)
  exact hp

theorem yields_pure {b : β} (hp : P b ts) : Yields (pure b) ts P :=
  yields_of_run (fun _ => rfl) hp

/-- What refuses yields whatever is stated. -/
theorem yields_refuse {P : α → List Token → Prop} : Yields refuse ts P := by
  intro k a u hrun
  obtain ⟨fault, hfault⟩ := run_refuse (α := α) ⟨ts, k⟩
  simp [hfault] at hrun

/-- A step that gives what another one gives behind some tokens, in another form. -/
theorem yields_of_map {other : Reading β} {f : β → α}
    (h : ∀ k, step.run ⟨ts, k⟩ = (fun r => (f r.1, r.2)) <$> other.run ⟨us, k⟩)
    (hother : Yields other us P) : Yields step ts fun a vs => ∃ b, a = f b ∧ P b vs := by
  intro k a u hrun
  rw [h] at hrun
  obtain ⟨r, hr, hmap⟩ := exists_of_map_eq_ok hrun
  obtain ⟨rfl, rfl⟩ := Prod.mk.inj hmap
  exact ⟨r.1, rfl, hother k r.1 r.2 hr⟩

/-- The tokens that a step takes are those in front of what it leaves. -/
theorem Yields.taken {Q : α → Prop} (h : Yields step (ts ++ us) fun a vs => vs = us ∧ Q a) :
    Yields (taken step) (ts ++ us) fun r vs => vs = us ∧ Q r.1 ∧ r.2 = ts := by
  unfold Reading.taken
  refine .bind_run (fun k => rfl) (.bind h fun a vs hvs => .bind_run (fun k => rfl) ?_)
  obtain ⟨rfl, ha⟩ := hvs
  refine yields_pure ⟨rfl, ha, ?_⟩
  have hcount : (ts ++ vs).length - vs.length = ts.length := by simp
  change List.take ((ts ++ vs).length - vs.length) (ts ++ vs) = ts
  rw [hcount, List.take_left]

end

/-! ### One statement -/

/-- Only semicolons are skipped in front of a statement. -/
theorem run_skipSemicolons {t : Token} (ht : t.isSymbol ";" = false) (ts : List Token) (k : Nat) :
    (modify (σ := Unread) (m := Reading) fun u =>
      { u with tokens := u.tokens.dropWhile (·.isSymbol ";") }).run ⟨t :: ts, k⟩ =
        .ok (⟨⟩, ⟨t :: ts, k⟩) := by
  have hdrop : (t :: ts).dropWhile (·.isSymbol ";") = t :: ts := by simp [ht]
  exact congrArg (fun ts => Except.ok (PUnit.unit, Unread.mk ts k)) hdrop

/-- A statement is read from the front of a text, and nothing is left if no semicolon comes next. -/
theorem yields_command? {t : Token} {ts : List Token} (hsymbol : t.isSymbol ";" = false)
    {P : Command → Prop}
    (h : Yields command (t :: ts) fun c vs => (∀ v ∈ vs.head?, v.isSymbol ";" = false) ∧ P c) :
    Yields command? (t :: ts) fun r vs => vs = [] ∧ ∃ c, r = some c ∧ P c := by
  unfold command?
  refine .bind_run (run_skipSemicolons hsymbol ts)
    (.bind_run (fun k => run_left _) (.bind h fun c vs hc => ?_))
  obtain ⟨hend, hc⟩ := hc
  cases vs with
  | nil =>
    have hnone : ∀ k, (acceptSymbol ";").run ⟨[], k⟩ = .ok (false, ⟨[], k⟩) := fun k => rfl
    exact .bind_run (fun k => run_left _) (.bind_run hnone (yields_pure ⟨rfl, c, rfl, hc⟩))
  | cons v vs =>
    have hnone : ∀ k, (acceptSymbol ";").run ⟨v :: vs, k⟩ = .ok (false, ⟨v :: vs, k⟩) := by
      intro k
      rw [run_acceptSymbol, hend v rfl]
      rfl
    exact .bind_run (fun k => run_left _) (.bind_run hnone yields_refuse)

/-- A statement that is read to the end of its text. -/
theorem run_command? {t : Token} {ts : List Token} {c : Command} {k n : Nat}
    (hsymbol : t.isSymbol ";" = false) (h : command.run ⟨t :: ts, k⟩ = .ok (c, ⟨[], n⟩)) :
    command?.run ⟨t :: ts, k⟩ = .ok (some c, ⟨[], n⟩) := by
  have hnone : (acceptSymbol ";").run ⟨[], n⟩ = .ok (false, ⟨[], n⟩) := rfl
  simp only [command?, StateT.run_bind, run_skipSemicolons hsymbol, ok_bind, run_left]
  simp [h, hnone]

end Reading

end EntitySql
