import EntitySql.Proofs.Database.Written

/-!
# Reading operators back

How operators are grouped is decided by the table of the reader, and not by the tree that an
expression was written for. The two agree where parentheses stand around every operand that the
table would group otherwise: such an expression fits, and then the reader finds its tree again.

An operand on the left of an operator must not let the operator into it. That depends on the
operators along its right edge, and `NOT` lets in every operator that binds tighter than itself, so
each expression has a limit. An operand on the right only needs an outermost operator that binds
tighter.

## Main definitions

* `Written.level`, `Written.limit`: how tightly the outermost operator binds, and which operators
  may follow
* `Written.fits`: parentheses stand wherever the table asks for them
* `Reading.Closes`: what ends an expression

## Main results

* `Written.isRead`: an expression that fits is read as its tree, up to what follows
* `Written.run_phrase`: so is its whole text
-/

namespace EntitySql

open Token

namespace Written

/-- How tightly a unary operator binds when it is read. -/
def binding : UnaryOperator → Nat
  | .not => Reading.notBinding
  | .negate => Reading.signBinding

/-- How tightly the outermost binary operator binds; single operands and unary operations are never
divided. -/
def level : Written → Nat
  | binary _ op _ => Reading.binding op
  | _ => 10

/-- An operator that binds as tightly as this or tighter, and follows, is let into the
expression. -/
def limit : Written → Nat
  | unary op x => min (binding op) x.limit
  | binary _ op r => min (Reading.binding op + 1) r.limit
  | _ => 10

/-- Parentheses stand wherever the table of the reader asks for them. -/
def fits : Written → Bool
  | null | marker | column _ _ => true
  | enclosed x => x.fits
  | unary op x => x.fits && binding op ≤ x.level
  | binary l op r =>
    l.fits && r.fits && Reading.binding op < l.limit && Reading.binding op < r.level

theorem fits_binary {l r : Written} {op : Operator} : (binary l op r).fits = true ↔
    (l.fits = true ∧ r.fits = true) ∧ Reading.binding op < l.limit ∧
      Reading.binding op < r.level := by
  simp only [fits, Bool.and_eq_true, decide_eq_true_eq, and_assoc]

theorem fits_unary {x : Written} {op : UnaryOperator} :
    (unary op x).fits = true ↔ x.fits = true ∧ binding op ≤ x.level := by
  simp only [fits, Bool.and_eq_true, decide_eq_true_eq]

/-- A single operand is never divided, and lets in everything that may follow. -/
theorem level_of_isClosed {w : Written} (h : w.isClosed = true) : w.level = 10 ∧ w.limit = 10 := by
  cases w with
  | unary op x => simp [isClosed] at h
  | binary l op r => simp [isClosed] at h
  | _ => exact ⟨rfl, rfl⟩

end Written

namespace Reading

/-! ### What ends an expression -/

/-- The tokens begin with nothing that belongs to an expression whose operators bind at least as
tightly as given. -/
structure Closes (least : Nat) (us : List Token) : Prop where
  /-- No point comes next. -/
  point : ∀ t ∈ us.head?, t.isSymbol "." = false
  /-- Nor is absence asked for. -/
  absence : ∀ t ∈ us.head?, t.isWord "ISNULL" = false ∧ t.isWord "NOTNULL" = false
  /-- Nor does an operator come next that binds as tightly. -/
  operator : ∀ op negated count, operator? us = some (op, negated, count) → binding op < least

theorem Closes.mono {least least' : Nat} {us : List Token} (h : Closes least us)
    (hle : least ≤ least') : Closes least' us :=
  ⟨h.point, h.absence, fun op negated count hop =>
    Nat.lt_of_lt_of_le (h.operator op negated count hop) hle⟩

theorem closes_nil (least : Nat) : Closes least [] := by
  refine ⟨by simp, by simp, fun op negated count hop => ?_⟩
  simp [operator?] at hop

theorem closes_parenthesis (least : Nat) (gap : String) (us : List Token) :
    Closes least (ofMark gap ')' :: us) := by
  refine ⟨by simp [isSymbol_ofMark], by simp, fun op negated count hop => ?_⟩
  have hnone : operator? (ofMark gap ')' :: us) = none := rfl
  simp [hnone] at hop

/-! ### Operators -/

/-- The operator of the tokens of an operator, if `NOT` does not continue it. -/
theorem operator?_tokens {op : Operator} (hop : op ≠ .bitXor) {us : List Token}
    (his : op = .is → ∀ t ∈ us.head?, t.isWord "NOT" = false) :
    operator? (op.tokens ++ us) = some (op, false, op.tokens.length) := by
  cases op with
  | bitXor => exact absurd rfl hop
  | is =>
    cases us with
    | nil => rfl
    | cons t us =>
      have hnot : t.isWord "NOT" = false := his rfl t rfl
      simp [Operator.tokens, operator?, symbolOperators, isWord_ofWord, hnot]
  | _ => rfl

/-- No operator looks like anything else that may stand behind an operand. -/
theorem head?_tokens (op : Operator) (us : List Token) : ∀ t ∈ (op.tokens ++ us).head?,
    t.isSymbol "." = false ∧ t.isWord "ISNULL" = false ∧ t.isWord "NOTNULL" = false := by
  intro t ht
  have hfirst : op.tokens.head? = some t := by cases op <;> simpa [Operator.tokens] using ht
  cases op <;> obtain rfl := Option.some.inj hfirst <;> exact ⟨rfl, rfl, rfl⟩

theorem closes_operator {least : Nat} {op : Operator} (hop : op ≠ .bitXor)
    (hleast : binding op < least) {us : List Token}
    (his : op = .is → ∀ t ∈ us.head?, t.isWord "NOT" = false) : Closes least (op.tokens ++ us) := by
  refine ⟨fun t ht => (head?_tokens op us t ht).1, fun t ht => (head?_tokens op us t ht).2,
    fun op' negated count hfound => ?_⟩
  rw [operator?_tokens hop his] at hfound
  obtain ⟨rfl, -⟩ := Prod.mk.inj (Option.some.inj hfound)
  exact hleast

theorem run_accept_none {keyword : String} {us : List Token}
    (h : ∀ t ∈ us.head?, t.isWord keyword = false) (k : Nat) :
    (accept keyword).run ⟨us, k⟩ = .ok (false, ⟨us, k⟩) := by
  cases us with
  | nil => rfl
  | cons t us => rw [run_accept, h t rfl]; rfl

theorem run_acceptSymbol_none {symbol : String} {us : List Token}
    (h : ∀ t ∈ us.head?, t.isSymbol symbol = false) (k : Nat) :
    (acceptSymbol symbol).run ⟨us, k⟩ = .ok (false, ⟨us, k⟩) := by
  cases us with
  | nil => rfl
  | cons t us => rw [run_acceptSymbol, h t rfl]; rfl

/-- Behind an operand, the reader stops in front of what ends the expression. -/
theorem run_climb_of_closes {least : Nat} {us : List Token} (h : Closes least us) (fuel : Nat)
    (p : Phrase) (k : Nat) : (climb (fuel + 1) least p).run ⟨us, k⟩ = .ok (p, ⟨us, k⟩) := by
  have hisnull := run_accept_none (fun t ht => (h.absence t ht).1) k
  have hnotnull := run_accept_none (fun t ht => (h.absence t ht).2) k
  rw [climb]
  cases hop : operator? us with
  | none =>
    by_cases hasks : least ≤ binding .is
    · simp [hasks, hisnull, hnotnull, hop]
    · simp [hasks, hop]
  | some found =>
    obtain ⟨op, negated, count⟩ := found
    have hloose := h.operator op negated count hop
    by_cases hasks : least ≤ binding .is
    · simp [hasks, hisnull, hnotnull, hop, hloose]
    · simp [hasks, hop, hloose]

/-- Otherwise it takes the operator, and an operand that binds tighter. -/
theorem run_climb_operator {least : Nat} {op : Operator} (hop : op ≠ .bitXor) (hin : op ≠ .isIn)
    (hleast : least ≤ binding op) {us : List Token}
    (his : op = .is → ∀ t ∈ us.head?, t.isWord "NOT" = false) (fuel : Nat) (p : Phrase) (k : Nat) :
    (climb (fuel + 1) least p).run ⟨op.tokens ++ us, k⟩ =
      (do climb fuel least (p.join op (← expression fuel (binding op + 1)))).run ⟨us, k⟩ := by
  have hfound := operator?_tokens hop his
  have hisnull := run_accept_none (fun t ht => (head?_tokens op us t ht).2.1) k
  have hnotnull := run_accept_none (fun t ht => (head?_tokens op us t ht).2.2) k
  rw [climb]
  by_cases hasks : least ≤ binding .is
  · simp [hasks, hisnull, hnotnull, hfound, Nat.not_lt.mpr hleast, hin]
  · simp [hasks, hfound, Nat.not_lt.mpr hleast, hin]

/-! ### Single operands -/

section

variable {gap : String} {us : List Token} {k : Nat}

theorem run_operand_null (fuel : Nat) :
    (operand (fuel + 2)).run ⟨ofWord gap "NULL" :: us, k⟩ = .ok (.datum .null, ⟨us, k⟩) := by
  simp +decide [operand, wordOperand, isWord_ofWord]

theorem run_operand_marker (fuel : Nat) :
    (operand (fuel + 1)).run ⟨ofMarker gap :: us, k⟩ = .ok (.parameter k, ⟨us, k + 1⟩) := by
  simp [operand, ofMarker]

theorem run_operand_name {name : String} (hus : ∀ t ∈ us.head?, t.isSymbol "." = false)
    (fuel : Nat) :
    (operand (fuel + 1)).run ⟨ofName gap name :: us, k⟩ = .ok (.quoted name, ⟨us, k⟩) := by
  have hpoint := run_acceptSymbol_none hus k
  simp [operand, hpoint]

theorem run_operand_column {a name : String} (fuel : Nat) :
    (operand (fuel + 1)).run ⟨ofName gap a :: ofMark "" '.' :: ofName "" name :: us, k⟩ =
      .ok (.column (some a) name, ⟨us, k⟩) := by
  simp [operand, isSymbol_ofMark]

/-- An expression in parentheses. -/
theorem run_operand_enclosed (gap : String) {fuel k' : Nat} {ts : List Token} {p : Phrase}
    (h : (expression fuel 0).run ⟨ts, k⟩ = .ok (p, ⟨ofMark "" ')' :: us, k'⟩)) :
    (operand (fuel + 3)).run ⟨ofMark gap '(' :: ts, k⟩ = .ok (p, ⟨us, k'⟩) := by
  simp [operand, symbolOperand, expressions, isSymbol_ofMark, h]

/-- A sign in front of what is no number. -/
theorem run_operand_negate (gap : String) {fuel k' : Nat} {t : Token} {ts : List Token} {p : Phrase}
    (ht : t.lexeme ≠ .number) (hp : p.negation = .unary .negate p)
    (h : (expression fuel signBinding).run ⟨t :: ts, k⟩ = .ok (p, ⟨us, k'⟩)) :
    (operand (fuel + 2)).run ⟨ofMark gap '-' :: t :: ts, k⟩ = .ok (.unary .negate p, ⟨us, k'⟩) := by
  simp [operand, symbolOperand, isSymbol_ofMark, ht, h, hp]

theorem run_operand_not {fuel k' : Nat} {ts : List Token} {p : Phrase}
    (h : (expression fuel notBinding).run ⟨ts, k⟩ = .ok (p, ⟨us, k'⟩)) :
    (operand (fuel + 2)).run ⟨ofWord gap "NOT" :: ts, k⟩ = .ok (.unary .not p, ⟨us, k'⟩) := by
  simp +decide [operand, wordOperand, isWord_ofWord, h]

end

end Reading

/-! ### Whole expressions -/

namespace Written

variable {w : Written}

theorem isFalse_phrase (n : Nat) (w : Written) : (w.phrase n).isFalse = false := by
  induction w generalizing n with
  | column qualifier name => cases qualifier <;> rfl
  | enclosed x ih => exact ih n
  | _ => rfl

/-- No tree is a number, so a sign in front of it stays a sign. -/
theorem negation_phrase (n : Nat) (w : Written) :
    (w.phrase n).negation = .unary .negate (w.phrase n) := by
  induction w generalizing n with
  | column qualifier name => cases qualifier <;> rfl
  | enclosed x ih => exact ih n
  | _ => rfl

theorem join_phrase (n m : Nat) (l r : Written) (op : Operator) :
    (l.phrase n).join op (r.phrase m) = .binary (l.phrase n) op (r.phrase m) := by
  simp [Phrase.join, isFalse_phrase]

/-- The first token of an expression. -/
theorem exists_tokens (gap : String) (w : Written) : ∃ t ts, w.tokens gap = t :: ts ∧
    t.lexeme ≠ .number ∧ (w.startsNot = false → t.isWord "NOT" = false) := by
  induction w generalizing gap with
  | null => exact ⟨_, _, rfl, by simp, fun _ => by simp +decide [isWord_ofWord]⟩
  | marker => exact ⟨_, _, rfl, by simp [ofMarker], fun _ => rfl⟩
  | column qualifier name => cases qualifier <;> exact ⟨_, _, rfl, by simp, fun _ => by simp⟩
  | enclosed x ih => exact ⟨_, _, rfl, by simp, fun _ => by simp⟩
  | unary op x ih =>
    cases op with
    | negate => exact ⟨_, _, rfl, by simp, fun _ => by simp⟩
    | not => exact ⟨_, _, rfl, by simp, fun h => by simp [startsNot] at h⟩
  | binary l op r ihl ihr =>
    obtain ⟨t, ts, htokens, hnumber, hnot⟩ := ihl gap
    exact ⟨t, ts ++ (op.tokens ++ r.tokens " "), by simp [tokens, htokens], hnumber, hnot⟩

theorem head?_tokens_of_startsNot (gap : String) (h : w.startsNot = false) (us : List Token) :
    ∀ t ∈ (w.tokens gap ++ us).head?, t.isWord "NOT" = false := by
  obtain ⟨t, ts, htokens, -, hnot⟩ := w.exists_tokens gap
  intro t' ht'
  rw [htokens] at ht'
  obtain rfl : t = t' := by simpa using ht'
  exact hnot h

theorem length_tokens_pos (gap : String) (w : Written) : 0 < (w.tokens gap).length := by
  obtain ⟨t, ts, htokens, -⟩ := w.exists_tokens gap
  simp [htokens]

theorem limit_le_level (w : Written) : w.limit ≤ w.level + 1 := by
  cases w with
  | unary op x =>
    have hbinding : binding op ≤ 10 := by cases op <;> decide
    exact Nat.le_trans (Nat.min_le_left _ _) (Nat.le_succ_of_le hbinding)
  | binary l op r => exact Nat.min_le_left _ _
  | _ => simp [limit, level]

/-- When the first operand of the expression has been read, the reader goes on until it has the
whole tree, and then with what follows. Each token takes at most four steps. -/
def IsRead (w : Written) : Prop :=
  ∀ (gap : String) (least k : Nat) (us : List Token) (fuel : Nat), least ≤ w.level →
    Reading.Closes w.limit us → 4 * (w.tokens gap).length + 1 ≤ fuel →
      ∃ left, fuel ≤ left + 4 * (w.tokens gap).length ∧
        (Reading.expression fuel least).run ⟨w.tokens gap ++ us, k⟩ =
          (Reading.climb left least (w.phrase k)).run ⟨us, k + w.markers⟩

/-- It stops behind the expression if nothing follows that binds tightly enough. -/
theorem IsRead.run (h : w.IsRead) (gap : String) (k fuel : Nat) {least : Nat} {us : List Token}
    (hleast : least ≤ w.level) (hlimit : Reading.Closes w.limit us) (hus : Reading.Closes least us)
    (hfuel : 4 * (w.tokens gap).length + 1 ≤ fuel) :
    (Reading.expression fuel least).run ⟨w.tokens gap ++ us, k⟩ =
      .ok (w.phrase k, ⟨us, k + w.markers⟩) := by
  obtain ⟨left, hleft, hrun⟩ := h gap least k us fuel hleast hlimit hfuel
  obtain ⟨n, rfl⟩ : ∃ n, left = n + 1 := ⟨left - 1, by omega⟩
  rw [hrun, Reading.run_climb_of_closes hus]

/-- A single operand is read in one step. -/
theorem isRead_of_operand (h : ∀ (gap : String) (k : Nat) (us : List Token) (fuel : Nat),
    Reading.Closes w.limit us → 4 * (w.tokens gap).length ≤ fuel →
      (Reading.operand fuel).run ⟨w.tokens gap ++ us, k⟩ =
        .ok (w.phrase k, ⟨us, k + w.markers⟩)) : w.IsRead := by
  intro gap least k us fuel hleast hus hfuel
  obtain ⟨n, rfl⟩ : ∃ n, fuel = n + 1 := ⟨fuel - 1, by omega⟩
  have hpos := w.length_tokens_pos gap
  refine ⟨n, by omega, ?_⟩
  simp [Reading.expression, h gap k us n hus (by omega)]

/-- **An expression that fits is read as its tree.** -/
theorem isRead (hlegal : w.Legal) (hfits : w.fits = true) : w.IsRead := by
  induction w with
  | null =>
    refine isRead_of_operand fun gap k us fuel hus hfuel => ?_
    obtain ⟨n, rfl⟩ : ∃ n, fuel = n + 2 := ⟨fuel - 2, by simp [tokens] at hfuel; omega⟩
    exact Reading.run_operand_null n
  | marker =>
    refine isRead_of_operand fun gap k us fuel hus hfuel => ?_
    obtain ⟨n, rfl⟩ : ∃ n, fuel = n + 1 := ⟨fuel - 1, by simp [tokens] at hfuel; omega⟩
    exact Reading.run_operand_marker n
  | column qualifier name =>
    refine isRead_of_operand fun gap k us fuel hus hfuel => ?_
    have hpos := (column qualifier name).length_tokens_pos gap
    obtain ⟨n, rfl⟩ : ∃ n, fuel = n + 1 := ⟨fuel - 1, by omega⟩
    cases qualifier with
    | none => exact Reading.run_operand_name hus.point n
    | some a => exact Reading.run_operand_column n
  | enclosed x ih =>
    have hread := ih hlegal hfits
    refine isRead_of_operand fun gap k us fuel hus hfuel => ?_
    simp only [tokens, List.length_cons, List.length_append, List.length_nil] at hfuel
    obtain ⟨n, rfl⟩ : ∃ n, fuel = n + 3 := ⟨fuel - 3, by omega⟩
    have hinner := hread.run "" k n (Nat.zero_le _)
      (Reading.closes_parenthesis x.limit "" us) (Reading.closes_parenthesis 0 "" us) (by omega)
    have hall := Reading.run_operand_enclosed gap hinner
    simpa [tokens, phrase, markers] using hall
  | unary op x ih =>
    rw [fits_unary] at hfits
    have hread := ih hlegal hfits.1
    refine isRead_of_operand fun gap k us fuel hus hfuel => ?_
    have hlimit : Reading.Closes x.limit us := hus.mono (Nat.min_le_right _ _)
    have hbinding : Reading.Closes (binding op) us := hus.mono (Nat.min_le_left _ _)
    cases op with
    | negate =>
      simp only [tokens, List.length_cons] at hfuel
      obtain ⟨n, rfl⟩ : ∃ n, fuel = n + 2 := ⟨fuel - 2, by omega⟩
      obtain ⟨t, ts, htokens, hnumber, -⟩ := x.exists_tokens ""
      have hinner := hread.run "" k n hfits.2 hlimit hbinding (by omega)
      rw [htokens] at hinner
      have hall := Reading.run_operand_negate gap hnumber (x.negation_phrase k) hinner
      simpa [tokens, htokens, phrase, markers] using hall
    | not =>
      simp only [tokens, List.length_cons] at hfuel
      obtain ⟨n, rfl⟩ : ∃ n, fuel = n + 2 := ⟨fuel - 2, by omega⟩
      have hinner := hread.run " " k n hfits.2 hlimit hbinding (by omega)
      exact Reading.run_operand_not hinner
  | binary l op r ihl ihr =>
    obtain ⟨⟨hl, hr⟩, hleft, hright⟩ := fits_binary.mp hfits
    obtain ⟨⟨hlegall, hlegalr⟩, hin, hop, his⟩ := hlegal
    intro gap least k us fuel hleast hus hfuel
    simp only [tokens, List.length_append] at hfuel ⊢
    have hnot : op = .is → ∀ t ∈ (r.tokens " " ++ us).head?, t.isWord "NOT" = false :=
      fun h => head?_tokens_of_startsNot " " (his h) us
    have hsome : 0 < op.tokens.length := by cases op <;> simp [Operator.tokens]
    -- the left operand, up to the operator, which it does not let in
    have hlevel : least ≤ l.level := by
      have hlimit := l.limit_le_level
      simp only [level] at hleast
      omega
    obtain ⟨n, hn, hrunl⟩ := ihl hlegall hl gap least k (op.tokens ++ (r.tokens " " ++ us)) fuel
      hlevel (Reading.closes_operator hop hleft hnot) (by omega)
    obtain ⟨n, rfl⟩ : ∃ m, n = m + 1 := ⟨n - 1, by omega⟩
    -- the right operand, up to what follows
    have hrunr := (ihr hlegalr hr).run " " (k + l.markers) n hright
      (hus.mono (Nat.min_le_right _ _)) (hus.mono (Nat.min_le_left _ _)) (by omega)
    refine ⟨n, by omega, ?_⟩
    rw [List.append_assoc, List.append_assoc, hrunl,
      Reading.run_climb_operator hop hin hleast hnot]
    simp [hrunr, join_phrase, phrase, markers, Nat.add_assoc]

/-- **The whole text of an expression that fits is read as its tree.** -/
theorem run_phrase (hlegal : w.Legal) (hfits : w.fits = true) (gap : String) :
    Reading.phrase.run ⟨w.tokens gap, 0⟩ = .ok (w.phrase 0, ⟨[], w.markers⟩) := by
  have hrun := (isRead hlegal hfits).run gap 0
    (4 * (w.tokens gap).length + 4) (Nat.zero_le _) (Reading.closes_nil _)
    (Reading.closes_nil _) (by omega)
  rw [List.append_nil] at hrun
  simpa [Reading.phrase] using hrun

end Written

end EntitySql
