import EntitySql.Database.Catalog
import EntitySql.Proofs.Database.Grouped
import EntitySql.Proofs.Database.Statement

/-!
# Selecting from a table

The simplest queries list expressions behind `SELECT` and name one table behind `FROM`. They are
read back item by item if the tokens of each item are read as its expression whatever ends it, and
no expression is mistaken for a word or a star that begins a list.

Such a query is answered row by row, as long as no expression asks for more than the row that it is
computed for. A query for columns then gives the cells of every row, in the order of the rows.

## Main definitions

* `Reading.EndsPhrase`: what ends every expression
* `Reading.Expresses`: tokens that are read as an expression in front of whatever ends it
* `Query.listing`: a query for expressions over one table
* `Formula.OfOneRow`, `Phrase.OfOneRow`: what asks for nothing but its row

## Main results

* `Reading.run_query`: such a query is read
* `Query.run_listing`: it is answered row by row
* `Database.exists_of_answer_listing`: the answer has a row for each row of the table
* `Database.answer_names`: a query for columns gives their cells
-/

namespace EntitySql

open Token Reading

namespace Reading

/-! ### Expressions in a list -/

/-- The tokens end every expression: nothing that continues one comes next, and no parenthesis that
makes a call of a name. -/
structure EndsPhrase (us : List Token) : Prop extends Closes 0 us where
  /-- No parenthesis opens. -/
  call : ∀ t ∈ us.head?, t.isSymbol "(" = false

theorem endsPhrase_nil : EndsPhrase [] := ⟨closes_nil 0, by simp⟩

/-- A comma and a closing parenthesis end every expression. -/
theorem endsPhrase_of_ends {t : Token} (ht : t.Ends) (us : List Token) : EndsPhrase (t :: us) := by
  have hlexeme := ht.lexeme
  have htext : t.text = [','] ∨ t.text = [')'] := by
    simpa [Token.Ends, isSymbol, hlexeme] using ht
  have hnone : operator? (t :: us) = none := by
    rcases htext with h | h <;>
      simp [operator?, symbolOperators, wordOperators, isSymbol, isWord, hlexeme, h]
  refine ⟨⟨?_, by simp [ht.isWord], fun op negated count hop => by simp [hnone] at hop⟩, ?_⟩ <;>
    rcases htext with h | h <;> simp [isSymbol, h]

theorem endsPhrase_from (gap : String) (us : List Token) :
    EndsPhrase (ofWord gap "FROM" :: us) := by
  refine ⟨⟨?_, ?_, fun op negated count hop => ?_⟩, by simp⟩
  · simp
  · simp +decide [isWord_ofWord]
  · have hnone : operator? (ofWord gap "FROM" :: us) = none := rfl
    simp [hnone] at hop

/-- The tokens are read as the expression, in front of whatever ends it. Each of them takes at most
four steps. -/
def Expresses (ts : List Token) (p : Phrase) : Prop :=
  ∀ fuel us k, 4 * ts.length + 1 ≤ fuel → EndsPhrase us →
    (expression fuel 0).run ⟨ts ++ us, k⟩ = .ok (p, ⟨us, k⟩)

/-- No expression begins with a symbol that is neither a parenthesis nor a sign. -/
theorem run_expression_symbol {t : Token} (ht : t.lexeme = .symbol)
    (hsymbol : ∀ s ∈ ["(", "-", "+"], t.isSymbol s = false) (fuel least : Nat) (us : List Token)
    (k : Nat) : ∃ fault, (expression fuel least).run ⟨t :: us, k⟩ = .error fault := by
  have hopen := hsymbol "(" (by simp)
  have hminus := hsymbol "-" (by simp)
  have hplus := hsymbol "+" (by simp)
  obtain ⟨fault, hfault⟩ := run_refuse (α := Phrase) ⟨t :: us, k⟩
  refine ⟨fault, ?_⟩
  rcases fuel with _ | _ | _ | fuel
  · simpa [expression] using hfault
  · simp [expression, operand, hfault]
  · simp [expression, operand, symbolOperand, ht, hfault]
  · simp [expression, operand, symbolOperand, ht, hopen, hminus, hplus, hfault]

theorem isWord_of_isWord {t : Token} {w keyword : String} (h : t.isWord w = true) (hne : w ≠ keyword) :
    t.isWord keyword = false := by
  simp only [isWord, Bool.and_eq_true, beq_iff_eq] at h
  rw [Bool.eq_false_iff]
  intro hkeyword
  simp only [isWord, Bool.and_eq_true, beq_iff_eq] at hkeyword
  exact hne (String.toList_inj.mp (h.2.symm.trans hkeyword.2))

/-- Nor does one begin with a word that is never a name and begins no operand. -/
theorem run_expression_reserved {t : Token} {w : String} (ht : t.isWord w = true)
    (hw : w ∈ reserved)
    (hnot : ∀ keyword ∈ ["NULL", "NOT", "CURRENT_TIMESTAMP", "CURRENT_DATE", "CURRENT_TIME", "CASE",
      "CAST"], w ≠ keyword) (fuel least : Nat) (us : List Token) (k : Nat) :
    ∃ fault, (expression fuel least).run ⟨t :: us, k⟩ = .error fault := by
  have hother : ∀ keyword ∈ ["NULL", "NOT", "CURRENT_TIMESTAMP", "CURRENT_DATE", "CURRENT_TIME",
      "CASE", "CAST"], t.isWord keyword = false :=
    fun keyword hkeyword => isWord_of_isWord ht (hnot keyword hkeyword)
  simp only [List.mem_cons, List.not_mem_nil, or_false, forall_eq_or_imp, forall_eq] at hother
  obtain ⟨hnull, hnot, hboth, hdate, htime, hcase, hcast⟩ := hother
  simp only [isWord, Bool.and_eq_true, beq_iff_eq] at ht
  have hname : nameOf? t = none := by
    have hupper : String.ofList (t.text.map Char.toUpper) = w := by rw [ht.2, String.ofList_toList]
    rw [nameOf?, ht.1]
    simp [hupper, hw]
  obtain ⟨fault, hfault⟩ := run_refuse (α := Phrase) ⟨t :: us, k⟩
  obtain ⟨fault', hfault'⟩ := run_refuse (α := String) ⟨t :: us, k⟩
  have hrefused : Reading.name.run ⟨t :: us, k⟩ = .error fault' := by
    simp [Reading.name, hname, hfault']
  rcases fuel with _ | _ | _ | fuel
  · exact ⟨fault, by simpa [expression] using hfault⟩
  · exact ⟨fault, by simp [expression, operand, hfault]⟩
  · exact ⟨fault, by simp [expression, operand, wordOperand, ht.1, hfault]⟩
  · refine ⟨fault', ?_⟩
    simp [expression, operand, wordOperand, ht.1, hnull, hnot, hboth, hdate, htime, hcase, hcast,
      hrefused]

namespace Expresses

variable {ts : List Token} {p : Phrase}

theorem run_phrase (h : Expresses ts p) {us : List Token} (hus : EndsPhrase us) (k : Nat) :
    phrase.run ⟨ts ++ us, k⟩ = .ok (p, ⟨us, k⟩) := by
  have hrun := h (4 * (ts ++ us).length + 4) us k
    (by simp only [List.length_append]; omega) hus
  simpa [phrase] using hrun

/-- The tokens by themselves are read to their end. -/
theorem run_nil (h : Expresses ts p) (k : Nat) :
    (expression (4 * ts.length + 1) 0).run ⟨ts, k⟩ = .ok (p, ⟨[], k⟩) := by
  simpa using h (4 * ts.length + 1) [] k (Nat.le_refl _) endsPhrase_nil

theorem ne_nil (h : Expresses ts p) : ts ≠ [] := by
  rintro rfl
  have hrun := h.run_nil 0
  obtain ⟨fault, hfault⟩ := run_refuse (α := Phrase) ⟨[], 0⟩
  simp [expression, operand, hfault] at hrun

/-- An expression does not begin with a token with which every expression is refused. -/
theorem head?_of_refused (h : Expresses ts p) {t : Token} (ht : t ∈ ts.head?)
    (hrefused : ∀ fuel us, ∃ fault, (expression fuel 0).run ⟨t :: us, 0⟩ = .error fault) :
    False := by
  obtain ⟨us, rfl⟩ : ∃ us, ts = t :: us := by
    cases ts with
    | nil => simp at ht
    | cons u us => exact ⟨us, by rw [Option.some.inj ht]⟩
  obtain ⟨fault, hfault⟩ := hrefused (4 * (t :: us).length + 1) us
  rw [h.run_nil 0] at hfault
  simp at hfault

/-- No expression begins with a star. -/
theorem head?_not (h : Expresses ts p) : ∀ t ∈ ts.head?, t.isSymbol "*" = false := by
  intro t ht
  rw [Bool.eq_false_iff]
  intro hstar
  simp only [isSymbol, Bool.and_eq_true, beq_iff_eq] at hstar
  exact h.head?_of_refused ht fun fuel us =>
    run_expression_symbol hstar.1 (by simp [isSymbol, hstar]) fuel 0 us 0

/-- Nor with a word that says which rows are listed. -/
theorem head?_isWord (h : Expresses ts p) :
    ∀ t ∈ ts.head?, t.isWord "DISTINCT" = false ∧ t.isWord "ALL" = false := by
  intro t ht
  have hnot : ∀ w ∈ reserved, (∀ keyword ∈ ["NULL", "NOT", "CURRENT_TIMESTAMP",
      "CURRENT_DATE", "CURRENT_TIME", "CASE", "CAST"], w ≠ keyword) → t.isWord w = false := by
    intro w hreserved hw
    rw [Bool.eq_false_iff]
    intro hword
    exact h.head?_of_refused ht fun fuel us =>
      run_expression_reserved hword hreserved hw fuel 0 us 0
  exact ⟨hnot "DISTINCT" (by decide) (by decide), hnot "ALL" (by decide) (by decide)⟩

end Expresses

/-- A single operand is an expression. -/
theorem expresses_of_operand {ts : List Token} {p : Phrase} (hne : ts ≠ [])
    (h : ∀ fuel us k, 4 * ts.length ≤ fuel → EndsPhrase us →
      (operand fuel).run ⟨ts ++ us, k⟩ = .ok (p, ⟨us, k⟩)) : Expresses ts p := by
  intro fuel us k hfuel hus
  have hpos : 0 < ts.length := List.length_pos_iff.mpr hne
  obtain ⟨n, rfl⟩ : ∃ n, fuel = n + 2 := ⟨fuel - 2, by omega⟩
  have hrun := h (n + 1) us k (by omega) hus
  rw [expression, StateT.run_bind, hrun, ok_bind, run_climb_of_closes hus.toCloses]

theorem expresses_name (gap n : String) : Expresses [ofName gap n] (.quoted n) := by
  refine expresses_of_operand (List.cons_ne_nil _ _) fun fuel us k hfuel hus => ?_
  obtain ⟨m, rfl⟩ : ∃ m, fuel = m + 1 := ⟨fuel - 1, by simp at hfuel; omega⟩
  exact run_operand_name hus.point m

/-- The tokens begin with a name, a point and a star. -/
def Starred (ts : List Token) : Prop :=
  ∃ t point star us, ts = t :: point :: star :: us ∧ (nameOf? t).isSome = true ∧
    point.isSymbol "." = true ∧ star.isSymbol "*" = true

/-- An operand refuses all columns of a table, or stops behind the name. -/
theorem run_operand_starred {t point star : Token} (hname : (nameOf? t).isSome = true)
    (hpoint : point.isSymbol "." = true) (hstar : star.isSymbol "*" = true) (us : List Token)
    (fuel k : Nat) :
    (∃ fault, (operand fuel).run ⟨t :: point :: star :: us, k⟩ = .error fault) ∨
      ∃ p, (operand fuel).run ⟨t :: point :: star :: us, k⟩ = .ok (p, ⟨point :: star :: us, k⟩) := by
  have hmark : point.lexeme = .symbol ∧ point.text = ['.'] := by
    simpa [isSymbol] using hpoint
  have hsymbol : star.lexeme = .symbol := by
    simp only [isSymbol, Bool.and_eq_true, beq_iff_eq] at hstar
    exact hstar.1
  have hword : ∀ keyword, point.isWord keyword = false := by simp [isWord, hmark]
  have hopen : point.isSymbol "(" = false := by simp [isSymbol, hmark]
  obtain ⟨fault, hfault⟩ := run_refuse (α := Phrase) ⟨t :: point :: star :: us, k⟩
  obtain ⟨fault', hfault'⟩ := run_refuse (α := String) ⟨star :: us, k⟩
  have hrefused : name.run ⟨star :: us, k⟩ = .error fault' := by
    simp [name, nameOf?, hsymbol, hfault']
  cases fuel with
  | zero => exact .inl ⟨fault, by simpa [operand] using hfault⟩
  | succ fuel =>
    cases hlexeme : t.lexeme with
    | quoted n | bracketed n =>
      exact .inl ⟨fault', by simp [operand, hlexeme, hpoint, hrefused]⟩
    | text s => exact .inr ⟨.datum (.text s), by simp [operand, hlexeme]⟩
    | word =>
      rcases fuel with _ | fuel
      · exact .inl ⟨fault, by simpa [operand, wordOperand, hlexeme] using hfault⟩
      have hsymbols : ∀ s ∈ ["(", "-", "+"], point.isSymbol s = false := by simp [isSymbol, hmark]
      by_cases hnull : t.isWord "NULL" = true
      · exact .inr ⟨.datum .null, by simp [operand, wordOperand, hlexeme, hnull]⟩
      by_cases hnot : t.isWord "NOT" = true
      · obtain ⟨fault, hfault⟩ :=
          run_expression_symbol hmark.1 hsymbols fuel notBinding (star :: us) k
        exact .inl ⟨fault, by simp [operand, wordOperand, hlexeme, hnull, hnot, hfault]⟩
      by_cases hboth : t.isWord "CURRENT_TIMESTAMP" = true
      · exact .inr ⟨.now .both, by simp [operand, wordOperand, hlexeme, hnull, hnot, hboth]⟩
      by_cases hdate : t.isWord "CURRENT_DATE" = true
      · exact .inr ⟨.now .date, by simp [operand, wordOperand, hlexeme, hnull, hnot, hboth, hdate]⟩
      by_cases htime : t.isWord "CURRENT_TIME" = true
      · exact .inr ⟨.now .time,
          by simp [operand, wordOperand, hlexeme, hnull, hnot, hboth, hdate, htime]⟩
      by_cases hcase : t.isWord "CASE" = true
      · obtain ⟨fault, hfault⟩ := run_expression_symbol hmark.1 hsymbols fuel 0 (star :: us) k
        exact .inl ⟨fault, by simp [operand, wordOperand, hlexeme, hnull, hnot, hboth, hdate, htime,
          hcase, hword, hfault]⟩
      · obtain ⟨n, hn⟩ := Option.isSome_iff_exists.mp hname
        have htaken : name.run ⟨t :: point :: star :: us, k⟩ = .ok (n, ⟨point :: star :: us, k⟩) := by
          simp [name, hn]
        exact .inl ⟨fault', by simp [operand, wordOperand, hlexeme, hnull, hnot, hboth, hdate, htime,
          hcase, hopen, htaken, hpoint, hrefused]⟩
    | _ => simp [nameOf?, hlexeme] at hname

/-- No expression is all columns of a table. -/
theorem Expresses.not_starred {ts : List Token} {p : Phrase} (h : Expresses ts p) :
    ¬ Starred ts := by
  rintro ⟨t, point, star, us, rfl, hname, hpoint, hstar⟩
  have hrun := h.run_nil 0
  have hmark : point.lexeme = .symbol ∧ point.text = ['.'] := by
    simpa [isSymbol] using hpoint
  have hnone : operator? (point :: star :: us) = none := by
    simp [operator?, symbolOperators, wordOperators, isSymbol, isWord, hmark]
  generalize hfuel : 4 * (t :: point :: star :: us).length = fuel at hrun
  obtain ⟨n, rfl⟩ : ∃ n, fuel = n + 1 := ⟨fuel - 1, by simp at hfuel; omega⟩
  rw [expression, StateT.run_bind] at hrun
  rcases run_operand_starred hname hpoint hstar us (n + 1) 0 with
    ⟨fault, hfault⟩ | ⟨p', hoperand⟩
  · rw [hfault] at hrun
    simp at hrun
  · have hclimb : (climb (n + 1) 0 p').run ⟨point :: star :: us, 0⟩ =
        .ok (p', ⟨point :: star :: us, 0⟩) := by
      simp [climb, isWord, hmark, hnone]
    rw [hoperand, ok_bind, hclimb] at hrun
    simp at hrun

/-- In front of a comma or `FROM`, an expression does not become all columns of a table. -/
theorem Expresses.not_starred_append {ts : List Token} {p : Phrase} (h : Expresses ts p) {t : Token}
    (hpoint : t.isSymbol "." = false) (hstar : t.isSymbol "*" = false) (us : List Token) :
    ¬ Starred (ts ++ t :: us) := by
  rintro ⟨t₁, t₂, t₃, vs, htokens, hstarred⟩
  match ts with
  | [] => exact h.ne_nil rfl
  | [a] =>
    obtain ⟨rfl, rfl, -⟩ : a = t₁ ∧ t = t₂ ∧ us = t₃ :: vs := by simpa using htokens
    simp [hpoint] at hstarred
  | [a, b] =>
    obtain ⟨rfl, rfl, rfl, -⟩ : a = t₁ ∧ b = t₂ ∧ t = t₃ ∧ us = vs := by simpa using htokens
    simp [hstar] at hstarred
  | a :: b :: c :: ws =>
    obtain ⟨rfl, rfl, rfl, -⟩ : a = t₁ ∧ b = t₂ ∧ c = t₃ ∧ ws ++ t :: us = vs := by
      simpa using htokens
    exact h.not_starred ⟨a, b, c, ws, rfl, hstarred⟩

/-- **An expression in the list of a query is selected**, without an alias. -/
theorem Expresses.run_selected {ts : List Token} {p : Phrase} (h : Expresses ts p) {t : Token}
    (ht : t = ofMark "" ',' ∨ t = ofWord " " "FROM") (us : List Token) (k : Nat) :
    selected.run ⟨ts ++ t :: us, k⟩ = .ok (.phrase p none (written ts), ⟨t :: us, k⟩) := by
  have hends : EndsPhrase (t :: us) := by
    rcases ht with rfl | rfl
    · exact endsPhrase_of_ends (.inl rfl) us
    · exact endsPhrase_from " " us
  have hstarred : ¬ Starred (ts ++ t :: us) := by
    rcases ht with rfl | rfl <;> exact h.not_starred_append rfl rfl us
  have hgiven : givenName?.run ⟨t :: us, k⟩ = .ok (none, ⟨t :: us, k⟩) := by
    rcases ht with rfl | rfl
    · simp +decide [givenName?, nameOf?]
    · simp +decide [givenName?, nameOf?, isWord_ofWord]
  have hphrase : (taken phrase).run ⟨ts ++ t :: us, k⟩ = .ok ((p, ts), ⟨t :: us, k⟩) := by
    simp [taken, h.run_phrase hends k]
  have hstar : (acceptSymbol "*").run ⟨ts ++ t :: us, k⟩ = .ok (false, ⟨ts ++ t :: us, k⟩) := by
    refine run_acceptSymbol_none (fun a ha => ?_) k
    obtain ⟨b, bs, rfl⟩ := List.exists_cons_of_ne_nil h.ne_nil
    exact h.head?_not a (by simpa using ha)
  simp only [selected, StateT.run_bind, hstar, ok_bind, Bool.false_eq_true, if_false, run_left]
  split
  · next a b c rest htokens =>
    rw [if_neg fun hall => hstarred ⟨a, b, c, rest, htokens, by simpa [and_assoc] using hall⟩]
    simp [hphrase, hgiven]
  · simp [hphrase, hgiven]

end Reading

/-! ### Queries -/

/-- A query for expressions, each with the characters that it is written with, over one table. -/
def Query.listing (items : List (Phrase × String)) (table : String) : Query where
  selected := items.map fun x => .phrase x.1 none x.2
  source := some (table, none)

namespace Reading

/-- A list of items begins with the first one. -/
theorem head?_separate {p : List Token} (hp : p ≠ []) (ps : List (List Token)) (us : List Token) :
    (separate (p :: ps) ++ us).head? = p.head? := by
  obtain ⟨t, ts, rfl⟩ := List.exists_cons_of_ne_nil hp
  cases ps <;> rfl

/-- **Such a query is read**, up to the end of its statement. -/
theorem run_query {items : List (List Token × Phrase)} (hne : items ≠ [])
    (hitems : ∀ x ∈ items, Expresses x.1 x.2) (table : String) (k : Nat) :
    query.run ⟨separate (items.map (·.1)) ++ [ofWord " " "FROM", ofName " " table], k⟩ =
      .ok (.listing (items.map fun x => (x.2, written x.1)) table, ⟨[], k⟩) := by
  obtain ⟨x, xs, rfl⟩ := List.exists_cons_of_ne_nil hne
  have hfirst := hitems x List.mem_cons_self
  generalize hts : separate ((x :: xs).map (·.1)) ++ [ofWord " " "FROM", ofName " " table] = ts
  have hhead : ts.head? = x.1.head? := by rw [← hts, List.map_cons, head?_separate hfirst.ne_nil]
  have hdistinct : (accept "DISTINCT").run ⟨ts, k⟩ = .ok (false, ⟨ts, k⟩) :=
    run_accept_none (fun t ht => (hfirst.head?_isWord t (hhead ▸ ht)).1) k
  have hall : (accept "ALL").run ⟨ts, k⟩ = .ok (false, ⟨ts, k⟩) :=
    run_accept_none (fun t ht => (hfirst.head?_isWord t (hhead ▸ ht)).2) k
  have hselected : (separated selected ts.length).run ⟨ts, k⟩ =
      .ok ((x :: xs).map fun y => .phrase y.2 none (written y.1),
        ⟨[ofWord " " "FROM", ofName " " table], k⟩) := by
    have hitem : ∀ z ∈ (x :: xs).map fun y => (y.1, Selected.phrase y.2 none (written y.1)),
        ∀ (t : Token) us k, t = ofMark "" ',' ∨ t = ofWord " " "FROM" →
          selected.run ⟨z.1 ++ t :: us, k⟩ = .ok (z.2, ⟨t :: us, k⟩) := by
      intro z hz t us k ht
      obtain ⟨y, hy, rfl⟩ := List.mem_map.mp hz
      exact (hitems y hy).run_selected ht us k
    have hlength : ((x :: xs).map (·.1)).length ≤ (separate ((x :: xs).map (·.1))).length := by
      refine length_le_separate fun p hp => ?_
      obtain ⟨y, hy, rfl⟩ := List.mem_map.mp hp
      exact (hitems y hy).ne_nil
    have hcount : ((x :: xs).map fun y => (y.1, Selected.phrase y.2 none (written y.1))).length ≤
        ts.length + 1 := by
      rw [← hts]
      simp only [List.length_map, List.length_append] at hlength ⊢
      omega
    have hrun := run_separated_until (by simp) rfl hitem hcount [ofName " " table] k
    simp only [List.map_map, Function.comp_def, hts] at hrun
    exact hrun
  have hnone : ∀ keyword, (accept keyword).run ⟨[], k⟩ = .ok (false, ⟨[], k⟩) :=
    fun keyword => rfl
  have hend : (acceptSymbol ".").run ⟨[], k⟩ = .ok (false, ⟨[], k⟩) := rfl
  have hfrom : (ofWord " " "FROM").isWord "FROM" = true := rfl
  simp [query, hdistinct, hall, hselected, behind, objectName, givenName?, hnone, hend, hfrom,
    Query.listing]

theorem run_select (gap : String) (ts : List Token) (k : Nat) :
    command.run ⟨ofWord gap "SELECT" :: ts, k⟩ =
      (fun r => (.query r.1, r.2)) <$> query.run ⟨ts, k⟩ := by
  simp [command, isWord_ofWord]

/-- The tokens of such a query behind its `SELECT`. -/
def listingTokens (pieces : List (List Token)) (table : String) : List Token :=
  separate pieces ++ [ofWord " " "FROM", ofName " " table]

theorem spells_listingTokens {pieces : List (List Token)} {texts : List (List Char)}
    (h : List.Forall₂ Spells pieces (texts.map (' ' :: ·))) (table : String) :
    Spells (listingTokens pieces table)
      ([','].intercalate (texts.map (' ' :: ·)) ++ (" FROM " ++ Dialect.sqlite.quote table).toList) := by
  have hfrom := (spells_word isGap_blank (w := "FROM") (by decide)).append
    (spells_name isGap_blank table) (breaks_cons rfl)
  have hall := (spells_separate h).append hfrom (breaks_cons rfl)
  simpa [listingTokens, quote_sqlite] using hall

end Reading

/-! ### Answers -/

namespace Formula

/-- The formula asks for nothing but the row that it is computed for: it neither aggregates nor
numbers rows, and it is no list. -/
def OfOneRow (f : Formula) : Prop := f.gatherings = []

theorem gatheringsList_eq_nil {fs : List Formula} (h : ∀ f ∈ fs, f.OfOneRow) :
    gatheringsList fs = [] := by
  induction fs with
  | nil => rfl
  | cons f fs ih =>
    rw [gatheringsList, h f List.mem_cons_self, ih fun g hg => h g (List.mem_cons_of_mem f hg)]
    rfl

end Formula

namespace Query

/-- What the names of selected expressions stand for. -/
def naming (b : Bindings) (headings : List Heading) : Naming :=
  { bindings := b, headings := headings, combined := true, numbered := true }

/-- The headings of selected formulas. -/
def listedHeadings (n : Naming) (items : List (Phrase × String)) (fs : List Formula) :
    List Heading :=
  List.zipWith (fun x f => ⟨"", columnName n none x.2 f, f.affinity?⟩) items fs

theorem mapM_resolveItem {n : Naming} {items : List (Phrase × String)} {fs : List Formula}
    (h : List.Forall₂ (fun x f => x.1.resolve n = .ok f) items fs) :
    (items.map fun x => Selected.phrase x.1 none x.2).mapM (resolveItem n) =
      .ok (((listedHeadings n items fs).zip fs).map fun y => [(y.1, y.2, none)]) := by
  rw [mapM_eq_ok_iff, List.forall₂_map_left_iff]
  induction h with
  | nil => exact .nil
  | cons hx _ ih => exact .cons (by simp [resolveItem, hx]) ih

/-- **Expressions of one row are computed for each row of the table.** -/
theorem run_listing {b : Bindings} {items : List (Phrase × String)} {source : Relation}
    {fs : List Formula}
    (h : List.Forall₂ (fun x f => x.1.resolve (naming b source.headings) = .ok f) items fs)
    (hfs : ∀ f ∈ fs, f.OfOneRow) (table : String) :
    (listing items table).run b source =
      (fun rows => ⟨listedHeadings (naming b source.headings) items fs, rows⟩) <$>
        source.rows.mapM fun row => fs.mapM fun f => f.eval { row := row } := by
  have hitems : (listing items table).selected.mapM (resolveItem (naming b source.headings)) =
      .ok (((listedHeadings (naming b source.headings) items fs).zip fs).map
        fun y => [(y.1, y.2, none)]) := mapM_resolveItem h
  have hnone := Formula.gatheringsList_eq_nil hfs
  have hlength : (listedHeadings (naming b source.headings) items fs).length = fs.length := by
    simp [listedHeadings, h.length_eq]
  have hresolve : (listing items table).resolve b source.headings =
      .ok ⟨listedHeadings (naming b source.headings) items fs, fs, none, [], none, [], false, none,
        0⟩ := by
    generalize listedHeadings (naming b source.headings) items fs = hs at hlength hitems
    have hflatten : ((hs.zip fs).map fun y => [(y.1, y.2, (none : Option String))]).flatten =
        (hs.zip fs).map fun y => (y.1, y.2, none) := List.map_eq_flatMap.symm
    have hfst : (hs.zip fs).map (fun y => y.1) = hs := List.map_fst_zip hlength.le
    have hsnd : (hs.zip fs).map (fun y => y.2) = fs := List.map_snd_zip hlength.ge
    have haggregates : Aggregate.ofFormulas fs = [] := by rw [Aggregate.ofFormulas, hnone]; rfl
    have hrow : Formula.hasRow fs = false := by rw [Formula.hasRow, hnone]; rfl
    rw [naming] at hitems
    simp only [resolve, hitems, ok_bind, hflatten, List.map_map, Function.comp_def, hfst, hsnd,
      haggregates]
    simp [listing, Phrase.resolveOption, hrow, Aggregate.ofFormulas, Formula.gatheringsList,
      refuseStrays, window]
    rfl
  -- without an order the rows have no keys
  have hkeyed : ∀ rows : List Record, (rows.mapM fun row => do
      let r ← fs.mapM fun f => f.eval { row := row }
      Except.ok (([] : List (Datum × Bool)), r)) =
        List.map (fun r => ([], r)) <$> rows.mapM fun row => fs.mapM fun f => f.eval { row := row } := by
    intro rows
    induction rows with
    | nil => rfl
    | cons row rows ih => simp [List.mapM_cons, ih]
  rw [run, hresolve, ok_bind]
  simp [Selection.run, Selection.filter, Selection.grouped, Selection.combines,
    Selection.aggregates, Selection.isSingle, Selection.window, Numbering.ofFormulas,
    Aggregate.allOf, hnone, Formula.different, Aggregate.ofFormulas, Formula.gatheringsList,
    Function.comp_def, hkeyed]
  exact (map_eq_pure_bind _ _).symm

/-- A query that is answered has formulas for its expressions. -/
theorem exists_of_run_listing {b : Bindings} {items : List (Phrase × String)} {source r : Relation}
    {table : String} (h : (listing items table).run b source = .ok r) :
    ∃ fs, List.Forall₂ (fun x f => x.1.resolve (naming b source.headings) = .ok f) items fs := by
  have hfound : ∃ found, (listing items table).selected.mapM
      (resolveItem (naming b source.headings)) = .ok found := by
    obtain ⟨s, hs, -⟩ := exists_of_bind_eq_ok h
    obtain ⟨limit, -, hs⟩ := exists_of_bind_eq_ok hs
    obtain ⟨offset, -, hs⟩ := exists_of_bind_eq_ok hs
    obtain ⟨found, hfound, -⟩ := exists_of_bind_eq_ok hs
    exact ⟨found, hfound⟩
  obtain ⟨found, hfound⟩ := hfound
  rw [listing, mapM_eq_ok_iff, List.forall₂_map_left_iff] at hfound
  clear h
  induction hfound with
  | nil => exact ⟨[], .nil⟩
  | cons hx _ ih =>
    obtain ⟨f, hf, -⟩ := exists_of_bind_eq_ok hx
    obtain ⟨fs, hfs⟩ := ih
    exact ⟨f :: fs, .cons hf hfs⟩

end Query

/-- Whatever the names of the expression stand for, it is computed from one row. -/
def Phrase.OfOneRow (p : Phrase) : Prop :=
  ∀ b headings f, p.resolve (Query.naming b headings) = .ok f → f.OfOneRow

/-! ### Columns -/

namespace StoredTable

/-- A column of the table is found among its headings. -/
theorem position?_headings (t : StoredTable) (as : String) (b : Bindings) (name : String) :
    (Query.naming b (t.headings as)).position? none name = t.position? name := by
  simp [Naming.position?, Query.naming, headings, position?, List.findIdx?_map, Function.comp_def]

/-- A quoted name of a column is the cell of that column. -/
theorem resolve_quoted {t : StoredTable} {name : String} {p : Nat} {c : StoredColumn}
    (hp : t.position? name = some p) (hc : t.columns[p]? = some c) (as : String) (b : Bindings) :
    (Phrase.quoted name).resolve (Query.naming b (t.headings as)) =
      .ok (.cell p (some c.affinity)) := by
  have hposition := (t.position?_headings as b name).trans hp
  have hcell : (Query.naming b (t.headings as)).cellAt p = .cell p (some c.affinity) := by
    simp [Naming.cellAt, Query.naming, headings, hc]
  simp [Phrase.resolve, Phrase.lookUp, Naming.find?, hposition, hcell, Lookup.finish]

/-- The cells at given positions, absent where there is none. -/
def cellsAt (ps : List Nat) (r : StoredRow) : Record := ps.map fun p => r.cells[p]?.getD .null

end StoredTable

namespace Database

/-- A query over a table is answered from it. -/
theorem answer_listing {db : Database} {t : StoredTable} {table : String}
    (ht : db.table? table = some t) (hcatalog : isCatalogName table = false) (b : Bindings)
    (items : List (Phrase × String)) :
    db.answer b (.listing items table) = (Query.listing items table).run b (t.relation table) := by
  simp [answer, Query.listing, relation, hcatalog, ht]

/-- The answer to a query for expressions of one row has a row for each row of the table, in which
each expression has its value. -/
theorem exists_of_answer_listing {db : Database} {t : StoredTable} {table : String}
    (ht : db.table? table = some t) (hcatalog : isCatalogName table = false) {b : Bindings}
    {items : List (Phrase × String)} (hone : ∀ x ∈ items, x.1.OfOneRow) {r : Relation}
    (h : db.answer b (.listing items table) = .ok r) :
    ∃ fs, List.Forall₂ (fun x f => x.1.resolve (Query.naming b (t.headings table)) = .ok f) items fs ∧
      List.Forall₂ (fun row values => List.Forall₂ (fun f v => f.eval { row := row.cells } = .ok v)
        fs values) t.rows r.rows := by
  rw [answer_listing ht hcatalog] at h
  obtain ⟨fs, hfs⟩ := Query.exists_of_run_listing h
  have hone' : ∀ f ∈ fs, f.OfOneRow := by
    intro f hf
    obtain ⟨x, hx, hresolve⟩ := Text.exists_mem_of_forall₂ hfs hf
    exact hone x hx b _ f hresolve
  rw [Query.run_listing hfs hone'] at h
  obtain ⟨rows, hrows, rfl⟩ := exists_of_map_eq_ok h
  refine ⟨fs, hfs, ?_⟩
  rw [mapM_eq_ok_iff, StoredTable.relation, List.forall₂_map_left_iff] at hrows
  exact hrows.imp fun row values hvalues => mapM_eq_ok_iff.mp hvalues

/-- **A query for columns gives their cells in every row**, under their names. -/
theorem answer_names {db : Database} {t : StoredTable} {table : String}
    (ht : db.table? table = some t) (hcatalog : isCatalogName table = false) {names : List String}
    {ps : List Nat} (hps : List.Forall₂ (fun n p => t.position? n = some p ∧
      ∃ c, t.columns[p]? = some c ∧ c.name = n) names ps) (b : Bindings) (text : String → String) :
    ∃ hs, db.answer b (.listing (names.map fun n => (.quoted n, text n)) table) =
      .ok ⟨hs, t.rows.map (StoredTable.cellsAt ps)⟩ ∧ hs.map Heading.name = names := by
  let fs := ps.map fun p => Formula.cell p (t.columns[p]?.map StoredColumn.affinity)
  have hresolve : List.Forall₂ (fun x f => x.1.resolve (Query.naming b (t.relation table).headings) =
      .ok f) (names.map fun n => (Phrase.quoted n, text n)) fs := by
    rw [List.forall₂_map_left_iff, List.forall₂_map_right_iff]
    refine hps.imp fun n p hp => ?_
    obtain ⟨hp, c, hc, -⟩ := hp
    rw [hc]
    exact StoredTable.resolve_quoted hp hc table b
  have hone : ∀ f ∈ fs, f.OfOneRow := by
    intro f hf
    obtain ⟨p, -, rfl⟩ := List.mem_map.mp hf
    rfl
  have hrows : ((t.relation table).rows.mapM fun row => fs.mapM fun f => f.eval { row := row }) =
      .ok (t.rows.map (StoredTable.cellsAt ps)) := by
    simp only [mapM_eq_ok_iff, StoredTable.relation, StoredTable.cellsAt, fs,
      List.forall₂_map_left_iff, List.forall₂_map_right_iff, List.forall₂_same]
    exact fun r _ p _ => rfl
  refine ⟨_, by rw [answer_listing ht hcatalog, Query.run_listing hresolve hone, hrows]; rfl, ?_⟩
  clear hresolve hone hrows
  induction hps with
  | nil => rfl
  | cons hp _ ih =>
    obtain ⟨-, c, hc, rfl⟩ := hp
    refine List.cons_eq_cons.mpr ⟨?_, ih⟩
    simp [Query.columnName, Query.naming, StoredTable.relation, StoredTable.headings, hc]

end Database

end EntitySql
