import EntitySql.Proofs.Database.Windows
import EntitySql.Proofs.Database.Written

/-!
# Texts that are continued

What follows a text changes nothing in the tokens that the text is read as, if it begins with a
break and the text leaves no quote and no comment open. A text of which this is known, and in which
nothing ends a statement or begins a limit, is legible. Legible texts are put together from words,
names, markers and punctuation, each of them with what may follow it directly.

## Main definitions

* `Token.Quiet`: a token that ends no statement and begins no limit
* `Token.Legible`: the text of quiet tokens
* `Token.Trails`: what may follow such a text

## Main results

* `Token.Legible.append`, `Token.Legible.cons`: legible texts that are put together
* `Token.Legible.negative`: a sign is legible in front of anything but another one
* `Token.ofText_paged`: the tokens of a text with a limit behind it
-/

namespace EntitySql

namespace Token

/-- The token neither ends a statement nor begins a limit. -/
def Quiet (t : Token) : Prop := t.isWord "LIMIT" = false ∧ t.isSymbol ";" = false

theorem quiet_of_lexeme {t : Token} (hword : t.lexeme ≠ .word) (hsymbol : t.lexeme ≠ .symbol) :
    t.Quiet := by
  simp [Quiet, isWord, isSymbol, hword, hsymbol]

theorem quiet_ofMark (gap : String) {c : Char} (hc : c ≠ ';') : (ofMark gap c).Quiet := by
  refine ⟨by simp, ?_⟩
  rw [isSymbol_ofMark]
  simpa using hc

/-- The characters are the text of quiet tokens, wherever a break follows them. -/
def Legible (cs : List Char) : Prop := ∃ t ts, Spells (t :: ts) cs ∧ ∀ u ∈ t :: ts, u.Quiet

/-- Nothing, or a legible text behind a break. -/
def Trails (cs : List Char) : Prop := cs = [] ∨ (Breaks cs ∧ Legible cs)

variable {xs ys cs : List Char}

/-! ### Texts that are put together -/

theorem Legible.append (hx : Legible xs) (hy : Legible ys) (hb : Breaks ys) :
    Legible (xs ++ ys) := by
  obtain ⟨t, ts, hts, hquiet⟩ := hx
  obtain ⟨u, us, hus, hquiet'⟩ := hy
  exact ⟨t, ts ++ u :: us, hts.append hus hb, List.forall_mem_append.mpr ⟨hquiet, hquiet'⟩⟩

/-- A token in front of a legible text, which it stands in front of. -/
theorem Legible.cons {t : Token} (ht : ∀ rest, Breaks rest → t.Stands (cs ++ rest))
    (hquiet : t.Quiet) (h : Legible cs) : Legible (t.gap ++ t.text ++ cs) := by
  obtain ⟨u, us, hspells, hquiet'⟩ := h
  refine ⟨t, u :: us, ⟨?_, fun rest hrest => ⟨?_, hspells.stand rest hrest⟩⟩,
    List.forall_mem_cons.mpr ⟨hquiet, hquiet'⟩⟩
  · rw [spelled_cons, hspells.spelled]
  · rw [hspells.spelled]
    exact ht rest hrest

/-- A text of one token. -/
theorem legible_of_stands {t : Token} (ht : ∀ rest, Breaks rest → t.Stands rest)
    (hquiet : t.Quiet) : Legible (t.gap ++ t.text) :=
  ⟨t, [], spells_of_stands ht, by simpa using hquiet⟩

theorem Legible.behind_blank (h : Legible cs) : Legible (' ' :: cs) := by
  obtain ⟨t, ts, hspells, hquiet⟩ := h
  obtain ⟨hfirst, hothers⟩ := List.forall_mem_cons.mp hquiet
  refine ⟨{ t with gap := ' ' :: t.gap }, ts, ⟨?_, fun rest hrest => ?_⟩,
    List.forall_mem_cons.mpr ⟨hfirst, hothers⟩⟩
  · rw [← hspells.spelled]
    rfl
  · obtain ⟨hstands, hrest⟩ := hspells.stand rest hrest
    exact ⟨⟨List.forall_mem_cons.mpr ⟨rfl, hstands.gap⟩, hstands.text⟩, hrest⟩

theorem Trails.nil : Trails [] := .inl rfl

theorem Legible.trails (h : Legible cs) (hb : Breaks cs) : Trails cs := .inr ⟨hb, h⟩

theorem Legible.append_trails (hx : Legible xs) (hy : Trails ys) : Legible (xs ++ ys) := by
  rcases hy with rfl | ⟨hb, hy⟩
  · rwa [List.append_nil]
  · exact hx.append hy hb

theorem Trails.append (hx : Trails xs) (hy : Trails ys) : Trails (xs ++ ys) := by
  rcases hx with rfl | ⟨hb, hx⟩
  · exact hy
  · refine .inr ⟨hb.append ?_, hx.append_trails hy⟩
    rcases hy with rfl | ⟨hb', -⟩
    · simp [Breaks]
    · exact hb'

/-! ### Words -/

/-- Whether the text is a word, and not the one that begins a limit. -/
def isQuietWord (w : String) : Bool :=
  isWordText w.toList && w.toList.map Char.toUpper != "LIMIT".toList

theorem quiet_ofWord (gap : String) {w : String} (hw : isQuietWord w = true) :
    (ofWord gap w).Quiet := by
  simp only [isQuietWord, Bool.and_eq_true, bne_iff_ne] at hw
  exact ⟨by rw [isWord_ofWord]; exact beq_eq_false_iff_ne.mpr hw.2, by simp⟩

theorem legible_word {w : String} (hw : isQuietWord w = true) : Legible w.toList :=
  legible_of_stands (t := ofWord "" w)
    (fun _ hrest => stands_word isGap_empty (Bool.and_eq_true_iff.mp hw).1 hrest)
    (quiet_ofWord "" hw)

theorem Legible.behind_word {w : String} (hw : isQuietWord w = true) (h : Legible cs) :
    Legible (w.toList ++ ' ' :: cs) :=
  (legible_word hw).append h.behind_blank (breaks_cons rfl)

/-- The terms of a clause that begins with two words. -/
theorem Legible.behind_by {w : String} (hw : isQuietWord w = true) (h : Legible cs) :
    Legible (w.toList ++ (" BY ".toList ++ cs)) :=
  (h.behind_word (w := "BY") (by decide)).behind_word hw

/-- A word directly in front of a parenthesis. -/
theorem Legible.called {w : String} (hw : isQuietWord w = true) (h : Legible ('(' :: cs)) :
    Legible (w.toList ++ '(' :: cs) := by
  refine Legible.cons (t := ofWord "" w) (fun rest _ => ?_) (quiet_ofWord "" hw) h
  exact stands_word_of_head isGap_empty (Bool.and_eq_true_iff.mp hw).1
    (by simp [continuesName, beginsName])

/-! ### Names and markers -/

theorem quiet_ofName (gap name : String) : (ofName gap name).Quiet := ⟨by simp, by simp⟩

theorem legible_name (name : String) : Legible (Text.Quoted.enclose '"' '"' name).toList := by
  have hspells := spells_name isGap_empty name
  rw [String.toList_empty, List.nil_append] at hspells
  exact ⟨_, [], hspells, by simpa using quiet_ofName "" name⟩

/-- All columns. -/
theorem legible_star : Legible ['*'] := by
  refine legible_of_stands (t := ofMark "" '*') (fun rest hrest => ?_) (quiet_ofMark "" (by decide))
  have hsign := stands_sign (c := '*') (by decide) hrest
  exact ⟨isGap_empty, hsign.text⟩

/-- A column behind the name of its table, or all of them. -/
theorem Legible.qualified (name : String) {c : Char} (hc : c.isDigit = false)
    (h : Legible (c :: cs)) :
    Legible ((Text.Quoted.enclose '"' '"' name).toList ++ '.' :: c :: cs) := by
  have hpoint : Legible ('.' :: c :: cs) := by
    refine Legible.cons (t := ofMark "" '.') (fun rest _ => stands_point ?_)
      (quiet_ofMark "" (by decide)) h
    simpa using hc
  have hall := Legible.cons (t := ofName "" name)
    (fun rest _ => stands_name_of_head isGap_empty name (by simp)) (quiet_ofName "" name) hpoint
  simpa only [ofName, String.toList_empty, List.nil_append] using hall

theorem legible_marker : Legible ['?'] :=
  legible_of_stands (t := ofMarker "") (fun _ hrest => stands_marker isGap_empty hrest)
    (quiet_of_lexeme (by decide) (by decide))

theorem legible_null : Legible "NULL".toList := legible_word (by decide)

/-! ### Punctuation -/

/-- A parenthesis or a comma. -/
theorem Legible.marked {c : Char} (hc : c = '(' ∨ c = ')' ∨ c = ',') (h : Legible cs) :
    Legible (c :: cs) := by
  refine Legible.cons (t := ofMark "" c) (fun rest _ => stands_mark isGap_empty hc _)
    (quiet_ofMark "" ?_) h
  rcases hc with rfl | rfl | rfl <;> decide

theorem legible_close : Legible [')'] :=
  legible_of_stands (t := ofMark "" ')')
    (fun rest _ => stands_mark isGap_empty (.inr (.inl rfl)) rest) (quiet_ofMark "" (by decide))

/-- What may stand in parentheses, a text or nothing. -/
theorem Legible.enclosed (h : cs = [] ∨ Legible cs) : Legible ('(' :: (cs ++ [')'])) := by
  refine Legible.marked (.inl rfl) ?_
  rcases h with rfl | h
  · exact legible_close
  · exact h.append legible_close (breaks_cons rfl)

/-- An item of a list. -/
theorem Legible.item (h : Legible cs) : Legible (',' :: cs) := h.marked (.inr (.inr rfl))

/-- A sign in front of anything but another one. -/
theorem Legible.negative (h : Legible cs) (hhead : ∀ c ∈ cs.head?, c ≠ '-') :
    Legible ('-' :: cs) := by
  refine Legible.cons (t := ofMark "" '-') (fun rest hrest => stands_minus isGap_empty ?_)
    (quiet_ofMark "" (by decide)) h
  cases cs with
  | nil => simpa using hrest.head?_not (p := (· == '-')) (by decide)
  | cons c cs => simpa using hhead

/-- The reader knows no `^`, and takes it for a token of its own. -/
theorem stands_caret (rest : List Char) : (⟨[' '], ['^'], .illegal⟩ : Token).Stands rest := by
  have hgap := afterGap_of_not_gap (c := '^') rfl (by decide) (by decide)
  refine ⟨isGap_blank, '^', [], rfl, fun n => hgap n _, ?_⟩
  cases rest with
  | nil => rfl
  | cons d rest => simp [readLexeme, readSymbol, pairs, singles, beginsName]

/-- An operator between its operands. -/
theorem legible_operator (op : Operator) : Legible (' ' :: op.sql.toList) := by
  by_cases hop : op = .bitXor
  · subst hop
    exact legible_of_stands (t := ⟨[' '], ['^'], .illegal⟩) (fun rest _ => stands_caret rest)
      (quiet_of_lexeme (by decide) (by decide))
  · have hspells := Operator.spells_tokens hop
    have hquiet : ∀ t ∈ op.tokens, t.isWord "LIMIT" = false ∧ t.isSymbol ";" = false := by
      cases op <;> decide
    cases htokens : op.tokens with
    | nil => cases op <;> cases htokens
    | cons t ts =>
      rw [htokens] at hspells hquiet
      exact ⟨t, ts, hspells, hquiet⟩

end Token

/-! ### Texts with a limit -/

namespace Page

open Token

theorem spells_ofNat (n : Nat) : Spells [Token.ofNat n] (' ' :: Nat.toDigits 10 n) :=
  spells_numeral isGap_blank (isNumeral_digits Nat.toDigits_ne_nil (isDigit_toDigits n))

/-- The text of a limit; `-1` is none. -/
def limitText (p : Page) : List Char :=
  match p.limit with
  | none => "-1".toList
  | some l => Nat.toDigits 10 l.toNat

theorem spells_limitTokens (p : Page) : Spells p.limitTokens (' ' :: p.limitText) := by
  unfold limitTokens limitText
  cases p.limit with
  | none =>
    have hone : IsNumeral ['1'] := isNumeral_digits (by simp) (by simp)
    exact spells_negative isGap_blank hone
  | some l => exact spells_ofNat l.toNat

/-- The text of a page: its limit, and its offset behind it if there is one. -/
theorem toList_paging (p : Page) (h : (p.limit.isSome || p.offset.isSome) = true)
    (ordered : Bool) :
    (Sqlite.paging p.limit p.offset ordered).toList =
      "LIMIT ".toList ++ p.limitText ++ match p.offset with
        | none => []
        | some o => " OFFSET ".toList ++ Nat.toDigits 10 o.toNat := by
  obtain ⟨limit, offset⟩ := p
  cases limit with
  | none =>
    cases offset with
    | none => cases h
    | some o =>
      have htext : Sqlite.paging none (some o) ordered = "LIMIT -1 OFFSET " ++ o.toNat.repr := rfl
      rw [htext, String.toList_append, Nat.toList_repr]
      rfl
  | some l =>
    cases offset with
    | none =>
      have htext : Sqlite.paging (some l) none ordered = "LIMIT " ++ l.toNat.repr := rfl
      rw [htext, String.toList_append, Nat.toList_repr, List.append_nil]
      rfl
    | some o =>
      have htext : Sqlite.paging (some l) (some o) ordered =
          "LIMIT " ++ l.toNat.repr ++ " OFFSET " ++ o.toNat.repr := rfl
      simp only [htext, String.toList_append, Nat.toList_repr, List.append_assoc]
      rfl

/-- **The tokens of a page are those of its text.** -/
theorem spells_tokens (p : Page) (h : (p.limit.isSome || p.offset.isSome) = true)
    (ordered : Bool) :
    Spells (Token.limit :: p.tokens) (' ' :: (Sqlite.paging p.limit p.offset ordered).toList) := by
  have hword : Spells [Token.limit] (" ".toList ++ "LIMIT".toList) :=
    spells_word isGap_blank (by decide)
  have hlimit := hword.append p.spells_limitTokens (breaks_cons rfl)
  rw [p.toList_paging h, tokens]
  cases p.offset with
  | none =>
    rw [List.append_nil]
    exact hlimit
  | some o =>
    have hword : Spells [ofWord " " "OFFSET"] (" ".toList ++ "OFFSET".toList) :=
      spells_word isGap_blank (by decide)
    have hoffset := hword.append (spells_ofNat o.toNat) (breaks_cons rfl)
    exact hlimit.append hoffset (breaks_cons rfl)

end Page

namespace Token

/-- **The tokens of a legible text with a limit behind it.** -/
theorem ofText_paged {t : Token} {ts : List Token} {cs : List Char} (h : Spells (t :: ts) cs)
    (p : Page) (hp : (p.limit.isSome || p.offset.isSome) = true) (ordered : Bool) {sql : String}
    (hsql : sql.toList = cs ++ ' ' :: (Sqlite.paging p.limit p.offset ordered).toList) :
    ofText sql = t :: (ts ++ Token.limit :: p.tokens) :=
  (h.append (p.spells_tokens hp ordered) (breaks_cons rfl)).ofText hsql

end Token

end EntitySql
