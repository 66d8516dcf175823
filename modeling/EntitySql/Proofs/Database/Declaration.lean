import EntitySql.Proofs.Database.DefaultText
import EntitySql.Sql.Change
import EntitySql.Sql.Shipped

/-!
# The declaration of a column

The definition of a column is read back as one that declares the column, with its name, its type and
its rules. Only its default is not known, because an expression is written as it stands; of that it
is known that there is nothing else in its place. A definition stands in a list of others or at the
end of a statement, so what may follow it is left open, as far as it ends the definition.

## Main definitions

* `ColumnClause.Declares`: a definition that was read declares a column
* `Reading.Behind`, `Reading.EndsType`: tokens that end the rules of a column, and its type

## Main results

* `Reading.exists_columnTokens`: the definition of a column is read as one that declares the column
-/

namespace EntitySql

open Reading Token

/-! ### Words -/

namespace Token

/-- Words with a blank in front of each. -/
def ofWords (ws : List String) : List Token := ws.map (ofWord " ")

/-- The characters of words with a blank in front of each. -/
def spacedWords (ws : List String) : List Char := ws.flatMap fun w => ' ' :: w.toList

theorem breaks_spacedWords (ws : List String) : Breaks (spacedWords ws) := by
  cases ws with
  | nil => simp [spacedWords, Breaks]
  | cons w ws => exact breaks_cons rfl

/-- Every word is among the characters. -/
theorem infix_spacedWords {ws : List String} {w : String} (h : w ∈ ws) :
    w.toList <:+: spacedWords ws := by
  induction ws with
  | nil => exact absurd h List.not_mem_nil
  | cons v ws ih =>
    rw [spacedWords, List.flatMap_cons, ← spacedWords]
    rcases List.mem_cons.mp h with rfl | h
    · exact (List.suffix_cons ' ' _).isInfix.trans (List.prefix_append _ _).isInfix
    · exact (ih h).trans (List.suffix_append _ _).isInfix

theorem spells_words {ws : List String} (h : ∀ w ∈ ws, isWordText w.toList = true) :
    Spells (ofWords ws) (spacedWords ws) := by
  induction ws with
  | nil => exact Spells.nil
  | cons w ws ih =>
    have hfirst : Spells [ofWord " " w] (' ' :: w.toList) :=
      spells_word isGap_blank (h w List.mem_cons_self)
    exact hfirst.append (ih fun v hv => h v (List.mem_cons_of_mem w hv)) (breaks_spacedWords ws)

end Token

/-! ### Columns -/

namespace Column

/-- The keywords of the rules of a column. -/
def ruleWords (c : Column) : List String :=
  if c.primaryKey then "PRIMARY" :: "KEY" :: if c.autoincrement then ["AUTOINCREMENT"] else []
  else (if c.notNull then ["NOT", "NULL"] else []) ++ if c.unique then ["UNIQUE"] else []

/-- The rules of a column, without its default. -/
def rules (c : Column) : List ColumnRule :=
  if c.primaryKey then [.key c.autoincrement]
  else (if c.notNull then [.required] else []) ++ if c.unique then [.unique] else []

theorem isWordText_ruleWords (c : Column) : ∀ w ∈ c.ruleWords, isWordText w.toList = true := by
  rw [ruleWords]
  cases c.primaryKey <;> cases c.autoincrement <;> cases c.notNull <;> cases c.unique <;> decide

theorem length_rules (c : Column) : c.rules.length ≤ c.ruleWords.length := by
  rw [rules, ruleWords]
  cases c.primaryKey <;> cases c.autoincrement <;> cases c.notNull <;> cases c.unique <;> decide

end Column

/-- There is one native type for each storage class. -/
theorem nativeType_cases (type : ColumnType) :
    Sqlite.nativeType type = "INTEGER" ∨ Sqlite.nativeType type = "REAL" ∨
      Sqlite.nativeType type = "BLOB" ∨ Sqlite.nativeType type = "TEXT" := by
  cases type <;> simp [Sqlite.nativeType]

theorem isWordText_nativeType (type : ColumnType) :
    isWordText (Sqlite.nativeType type).toList = true := by
  rcases nativeType_cases type with h | h | h | h <;> rw [h] <;> decide

/-- The definition that was read declares the column. -/
structure ColumnClause.Declares (clause : ColumnClause) (c : Column) : Prop where
  /-- It has the name. -/
  name : clause.name = c.name
  /-- It has the native type. -/
  type : clause.type = Sqlite.nativeType c.type
  /-- It has the rules, and behind them at most defaults. -/
  rules : ∃ defaults, clause.rules = c.rules ++ defaults ∧
    ∀ r ∈ defaults, ∃ p written, r = .default p written

namespace Reading

section

variable {ts us : List Token} {n : Nat}

/-- A rule that is run is followed by the others. -/
theorem yields_columnRules_cons {rule : ColumnRule} {P : List ColumnRule → List Token → Prop}
    (h : ∀ k, columnRule?.run ⟨ts, k⟩ = .ok (some rule, ⟨us, k⟩))
    (hrest : Yields (columnRules n) us fun rs vs => P (rule :: rs) vs) :
    Yields (columnRules (n + 1)) ts P := by
  rw [columnRules]
  exact .bind_run h (.bind hrest fun rs vs hrs => yields_pure hrs)

/-- What comes behind the rules of a column is no direction and does not number a key. -/
def Behind (us : List Token) : Prop :=
  ∀ w ∈ ["ASC", "DESC", "AUTOINCREMENT"], ∀ t ∈ us.head?, t.isWord w = false

theorem behind_of_ends (h : ∀ t ∈ us.head?, t.Ends) : Behind us :=
  fun w _ t ht => (h t ht).isWord w

/-- Then none of these words is taken. -/
theorem run_accept_of_behind (h : Behind us) {w : String}
    (hw : w ∈ ["ASC", "DESC", "AUTOINCREMENT"]) (k : Nat) :
    (accept w).run ⟨us, k⟩ = .ok (false, ⟨us, k⟩) := by
  cases us with
  | nil => rfl
  | cons t us =>
    have ht : t.isWord w = false := h w hw t rfl
    simp [ht]

theorem run_numberedKey (k : Nat) :
    columnRule?.run ⟨ofWords ["PRIMARY", "KEY", "AUTOINCREMENT"] ++ us, k⟩ =
      .ok (some (.key true), ⟨us, k⟩) := by
  simp +decide [columnRule?, ofWords, isWord_ofWord]

theorem run_key (hus : Behind us) (k : Nat) :
    columnRule?.run ⟨ofWords ["PRIMARY", "KEY"] ++ us, k⟩ = .ok (some (.key false), ⟨us, k⟩) := by
  have hnot : ∀ w ∈ ["ASC", "DESC", "AUTOINCREMENT"],
      (accept w).run ⟨us, k⟩ = .ok (false, ⟨us, k⟩) := fun w hw => run_accept_of_behind hus hw k
  simp only [List.forall_mem_cons, List.not_mem_nil, IsEmpty.forall_iff, implies_true,
    and_true] at hnot
  simp +decide [columnRule?, ofWords, isWord_ofWord, hnot]

theorem run_required (k : Nat) :
    columnRule?.run ⟨ofWords ["NOT", "NULL"] ++ us, k⟩ = .ok (some .required, ⟨us, k⟩) := by
  simp +decide [columnRule?, ofWords, isWord_ofWord]

theorem run_unique (k : Nat) :
    columnRule?.run ⟨ofWords ["UNIQUE"] ++ us, k⟩ = .ok (some .unique, ⟨us, k⟩) := by
  simp +decide [columnRule?, ofWords, isWord_ofWord]

theorem run_default (k : Nat) :
    columnRule?.run ⟨ofWord " " "DEFAULT" :: us, k⟩ =
      (fun r => (some r.1, r.2)) <$> defaultValue.run ⟨us, k⟩ := by
  simp +decide [columnRule?, isWord_ofWord]

/-- The rules of a column are read in front of what yields the defaults. -/
theorem yields_rules (c : Column) (hts : Behind ts) {P : List ColumnRule → List Token → Prop}
    {m : Nat} (hrest : Yields (columnRules m) ts P) :
    Yields (columnRules (m + c.rules.length)) (ofWords c.ruleWords ++ ts) fun rs vs =>
      ∃ ds, rs = c.rules ++ ds ∧ P ds vs := by
  have hnone : Yields (columnRules m) ts fun rs vs => ∃ ds, rs = ds ∧ P ds vs :=
    hrest.mono fun rs vs h => ⟨rs, rfl, h⟩
  have hone : ∀ {rule : ColumnRule} {ws : List String},
      (∀ k, columnRule?.run ⟨ofWords ws ++ ts, k⟩ = .ok (some rule, ⟨ts, k⟩)) →
      Yields (columnRules (m + 1)) (ofWords ws ++ ts) fun rs vs =>
        ∃ ds, rs = rule :: ds ∧ P ds vs := fun hrun =>
    yields_columnRules_cons hrun (hrest.mono fun rs vs h => ⟨rs, rfl, h⟩)
  simp only [Column.rules, Column.ruleWords]
  cases c.primaryKey with
  | true =>
    cases c.autoincrement with
    | true => exact hone run_numberedKey
    | false => exact hone (run_key hts)
  | false =>
    cases c.notNull with
    | true =>
      cases c.unique with
      | true =>
        refine yields_columnRules_cons run_required ?_
        refine (hone run_unique).mono fun rs vs h => ?_
        obtain ⟨ds, rfl, hds⟩ := h
        exact ⟨ds, rfl, hds⟩
      | false => exact hone run_required
    | false =>
      cases c.unique with
      | true => exact hone run_unique
      | false => exact hnone

/-- What comes behind a declared type is neither a name nor a size. -/
def EndsType (us : List Token) : Prop :=
  ∀ t ∈ us.head?, nameOf? t = none ∧ t.isSymbol "(" = false

theorem endsType_of_ends (h : ∀ t ∈ us.head?, t.Ends) : EndsType us := by
  intro t ht
  have hends := h t ht
  refine ⟨by simp [nameOf?, hends.lexeme], ?_⟩
  rcases hends with h | h <;> simp only [isSymbol, Bool.and_eq_true, beq_iff_eq] at h ⊢ <;>
    simp [h.2]

theorem endsType_of_reserved {gap w : String}
    (h : reserved.contains (String.ofList (w.toList.map Char.toUpper)) = true) :
    EndsType (ofWord gap w :: us) := by
  rintro _ ⟨⟩
  refine ⟨?_, isSymbol_ofWord gap w "("⟩
  simp only [nameOf?, lexeme_ofWord]
  exact if_pos h

theorem run_typeName (type : ColumnType) (hus : EndsType us) (k : Nat) :
    typeName.run ⟨ofWord " " (Sqlite.nativeType type) :: us, k⟩ =
      .ok (Sqlite.nativeType type, ⟨us, k⟩) := by
  have hname : nameOf? (ofWord " " (Sqlite.nativeType type)) = some (Sqlite.nativeType type) := by
    rcases nativeType_cases type with h | h | h | h <;> rw [h] <;> rfl
  have hstandard : standardType (Sqlite.nativeType type) = Sqlite.nativeType type := by
    rcases nativeType_cases type with h | h | h | h <;> rw [h] <;> rfl
  cases us with
  | nil => simp [typeName, taken, typeWords, hname, hstandard]
  | cons t us =>
    obtain ⟨ht, hopen⟩ := hus t rfl
    simp [typeName, taken, typeWords, hname, ht, hopen, hstandard]

/-- Behind the rules of a column stands its default, if it has one. -/
theorem exists_defaultTokens {c : Column} {P : List Token → Prop}
    (hends : ∀ us, P us → ∀ t ∈ us.head?, t.Ends)
    (h : ∀ declared, c.default = some declared → Default.StandsBefore P declared.literal) :
    ∃ ds, Spells ds (Dialect.sqlite.defaultClause c).toList ∧
      Breaks (Dialect.sqlite.defaultClause c).toList ∧
      ∀ us, P us → Behind (ds ++ us) ∧ EndsType (ds ++ us) ∧
        ∀ n, ds.length ≤ n → Yields (columnRules n) (ds ++ us) fun rs vs =>
          vs = us ∧ ∀ r ∈ rs, ∃ p written, r = .default p written := by
  have hnone : ∀ us, P us → ∀ n, Yields (columnRules n) us fun rs vs => vs = us ∧ rs = [] := by
    intro us hus n
    cases n with
    | zero => exact yields_pure ⟨rfl, rfl⟩
    | succ n =>
      refine yields_of_run (fun k => ?_) ⟨rfl, rfl⟩
      cases us with
      | nil => rfl
      | cons t us =>
        have ht : t.Ends := hends _ hus t rfl
        simp [columnRules, columnRule?, ht.isWord]
  cases hdefault : c.default with
  | none =>
    refine ⟨[], ?_, ?_, fun us hus => ⟨behind_of_ends (hends us hus),
      endsType_of_ends (hends us hus), fun n _ => (hnone us hus n).mono fun rs vs hrs => ?_⟩⟩
    · simpa [Dialect.defaultClause, hdefault] using Spells.nil
    · simp [Dialect.defaultClause, hdefault, Breaks]
    · exact ⟨hrs.1, by simp [hrs.2]⟩
  | some declared =>
    obtain ⟨ds, hspells, hyields⟩ := h declared hdefault
    have hclause : (Dialect.sqlite.defaultClause c).toList =
        " DEFAULT".toList ++ ' ' :: declared.literal.toList := by
      simp [Dialect.defaultClause, hdefault, Dialect.sqlite]
    have hword : Spells [ofWord " " "DEFAULT"] " DEFAULT".toList :=
      spells_word isGap_blank (w := "DEFAULT") (by decide)
    refine ⟨ofWord " " "DEFAULT" :: ds, ?_, ?_, fun us hus =>
      ⟨?_, endsType_of_reserved rfl, fun n hn => ?_⟩⟩
    · rw [hclause]
      exact hword.append hspells (breaks_cons rfl)
    · rw [hclause]
      exact breaks_cons rfl
    · simp +decide [Behind]
    · obtain ⟨n, rfl⟩ := Nat.exists_eq_add_of_lt (Nat.lt_of_lt_of_le (Nat.succ_pos _) hn)
      have hrule := yields_of_map run_default (hyields us hus)
      rw [Nat.zero_add, columnRules]
      refine .bind hrule fun rule vs hvs => ?_
      obtain ⟨r, rfl, rfl, p, written, rfl⟩ := hvs
      exact .bind (hnone _ hus n) fun rs vs hrs => yields_pure ⟨hrs.1, by simp [hrs.2]⟩

/-- The definition of a column is its name, its type, the words of its rules and its default. -/
theorem toList_columnDefinition (c : Column) : (Dialect.sqlite.columnDefinition c).toList =
    (Text.Quoted.enclose '"' '"' c.name).toList ++
      (spacedWords (Sqlite.nativeType c.type :: c.ruleWords) ++
        (Dialect.sqlite.defaultClause c).toList) := by
  have hquote : Dialect.sqlite.quote c.name = Text.Quoted.enclose '"' '"' c.name := rfl
  have hstyle : Dialect.sqlite.keyStyle = .keyword := rfl
  have hkeyword : Dialect.sqlite.autoincrementKeyword = " AUTOINCREMENT" := rfl
  have htype : Dialect.sqlite.nativeType c.type c.size = Sqlite.nativeType c.type := rfl
  simp only [Dialect.columnDefinition, hstyle, hquote, htype, hkeyword, Column.ruleWords,
    Dialect.clauseIf, spacedWords, String.toList_append, List.append_assoc]
  cases c.primaryKey <;> cases c.autoincrement <;> cases c.notNull <;> cases c.unique <;>
    simp

/-- The words of the rules of a column end its type, and so does what comes behind them. -/
theorem endsType_ruleWords (c : Column) (hus : EndsType us) :
    EndsType (ofWords c.ruleWords ++ us) := by
  simp only [Column.ruleWords]
  cases c.primaryKey with
  | true => exact endsType_of_reserved rfl
  | false =>
    cases c.notNull with
    | true => exact endsType_of_reserved rfl
    | false =>
      cases c.unique with
      | true => exact endsType_of_reserved rfl
      | false => exact hus

/-- The name, the type and the rules of a column are read in front of what yields the defaults. -/
theorem yields_definition (c : Column) (gap : String) (hbehind : Behind ts) (hends : EndsType ts)
    {P : List ColumnRule → List Token → Prop}
    (hrest : ∀ n, ts.length ≤ n → Yields (columnRules n) ts P) :
    Yields (do return (← name, ← typeName, ← columnRules (← left).length))
      (ofName gap c.name :: (ofWords (Sqlite.nativeType c.type :: c.ruleWords) ++ ts))
      fun r vs => r.1 = c.name ∧ r.2.1 = Sqlite.nativeType c.type ∧
        ∃ ds, r.2.2 = c.rules ++ ds ∧ P ds vs := by
  obtain ⟨m, hm, hcount⟩ : ∃ m, ts.length ≤ m ∧
      (ofWords c.ruleWords ++ ts).length = m + c.rules.length := by
    have hwords := c.length_rules
    refine ⟨(ofWords c.ruleWords ++ ts).length - c.rules.length, ?_, ?_⟩ <;>
    · simp only [List.length_append, ofWords, List.length_map]
      omega
  have hrules := yields_rules c hbehind (hrest m hm)
  have htype := endsType_ruleWords c hends
  have hwords : ofWords (Sqlite.nativeType c.type :: c.ruleWords) ++ ts =
      ofWord " " (Sqlite.nativeType c.type) :: (ofWords c.ruleWords ++ ts) := rfl
  rw [hwords]
  generalize ofWords c.ruleWords ++ ts = us at hcount hrules htype ⊢
  refine .bind_run (fun k => run_name _ k gap c.name) (.bind_run (run_typeName c.type htype) ?_)
  refine .bind_run (fun k => run_left _) ?_
  rw [hcount]
  exact .bind hrules fun rs vs hrs => yields_pure ⟨rfl, rfl, hrs⟩

/-- **The definition of a column is read as one that declares the column**, in front of anything
that ends it. -/
theorem exists_columnTokens {c : Column} {P : List Token → Prop}
    (hends : ∀ us, P us → ∀ t ∈ us.head?, t.Ends)
    (h : ∀ declared, c.default = some declared → Default.StandsBefore P declared.literal)
    {gap : String} (hgap : ∀ b ∈ gap.toList, isGap b = true) :
    ∃ ts, Spells (ofName gap c.name :: ts)
        (gap.toList ++ (Dialect.sqlite.columnDefinition c).toList) ∧
      ∀ us, P us → Yields columnClause (ofName gap c.name :: ts ++ us)
        fun clause vs => vs = us ∧ clause.Declares c ∧
          clause.lead ++ clause.written = gap ++ Dialect.sqlite.columnDefinition c := by
  obtain ⟨ds, hspells, hbreaks, hyields⟩ := exists_defaultTokens hends h
  have hwords : Spells (ofWords (Sqlite.nativeType c.type :: c.ruleWords) ++ ds)
      (spacedWords (Sqlite.nativeType c.type :: c.ruleWords) ++
        (Dialect.sqlite.defaultClause c).toList) := by
    refine (spells_words fun w hw => ?_).append hspells hbreaks
    rcases List.mem_cons.mp hw with rfl | hw
    · exact isWordText_nativeType c.type
    · exact c.isWordText_ruleWords w hw
  have hall : Spells (ofName gap c.name :: (ofWords (Sqlite.nativeType c.type :: c.ruleWords) ++ ds))
      (gap.toList ++ (Dialect.sqlite.columnDefinition c).toList) := by
    rw [toList_columnDefinition, ← List.append_assoc]
    exact (spells_name hgap c.name).append hwords ((breaks_spacedWords _).append hbreaks)
  refine ⟨_, hall, fun us hus => ?_⟩
  obtain ⟨hbehind, hends, hdefaults⟩ := hyields us hus
  have hclause := yields_definition c gap hbehind hends fun n hn => hdefaults n
    (Nat.le_trans (by simp) hn)
  rw [← List.append_assoc, ← List.cons_append] at hclause
  have htaken := Yields.taken (Q := fun r => r.1 = c.name ∧ r.2.1 = Sqlite.nativeType c.type ∧
      ∃ ds, r.2.2 = c.rules ++ ds ∧ ∀ rule ∈ ds, ∃ p written, rule = .default p written)
    (hclause.mono fun r vs ⟨hn, ht, ds, hr, hvs, hds⟩ => ⟨hvs, hn, ht, ds, hr, hds⟩)
  unfold columnClause
  refine .bind_run (fun k => run_peek? _) (.bind htaken fun r vs hr => ?_)
  obtain ⟨rfl, ⟨hn, ht, hr⟩, htokens⟩ := hr
  refine yields_pure ⟨rfl, ⟨hn, ht, hr⟩, ?_⟩
  rw [← String.toList_inj, htokens, String.toList_append, String.toList_append, ← hall.spelled]
  simp [written, spelled, ofName]

end

end Reading

end EntitySql
