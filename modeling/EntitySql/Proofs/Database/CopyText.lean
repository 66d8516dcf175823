import EntitySql.Proofs.Database.ChangeText
import EntitySql.Proofs.Database.Inserting
import EntitySql.Proofs.Database.Storage

/-!
# Copying rows

A table that is rebuilt gets its rows by one insertion from a query over the old table. The query
has one expression for each column that is named: the old column, the literal that fills the new
one, or the first of the two that is not missing. Each of them is computed from one row, so the
query answers as many rows as the old table has, and the insertion adds one for each.

The literal is known unless it is the expression of a default, which is written as it stands. What
is asked of such an expression is that it is one, and aggregates nothing (`Column.FillsRow`).

## Main definitions

* `Phrase.Fills`: tokens that are read as an expression of one row
* `CopySource.Copies`: what the source of a column is read as, and takes over
* `StoredTable.Computes`: what a text is, as an expression over one row of a table
* `StoredRow.Receives`: a new row has what the sources are in the old one
* `StoredRow.TakesOver`: a new row has the values of an old one

## Main results

* `IsLiteral.exists_fills`: literals are expressions of one row
* `Phrase.Fills.unique`: a text is read as one expression
* `read_copyRows`: what the statement that copies rows is read as
* `Database.exists_of_insert_listing`: an insertion from a query for expressions of one row
* `Database.exists_of_copy`: what is copied adds a row for each row of the old table
-/

namespace EntitySql

open Token Reading

/-! ### Expressions of one row -/

namespace Phrase

variable {n : Naming}

theorem resolve_column (table : Option String) (name : String) :
    (column table name).resolve n = n.column table name := by
  cases h : n.column table name <;> simp [resolve, lookUp, Lookup.finish, h]

theorem resolve_quoted (name : String) :
    (quoted name).resolve n = (n.find? none name).getD (.ok (.datum (.text name))) := by
  cases h : (n.find? none name).getD (.ok (.datum (.text name))) <;>
    simp [resolve, lookUp, Lookup.finish, h]

theorem resolve_unary (op : UnaryOperator) (p : Phrase) :
    (unary op p).resolve n = Formula.unary op <$> p.resolve n := by
  cases h : (p.lookUp n).run none with
  | error fault => simp [resolve, lookUp, Lookup.finish, Lookup.settle, h]
  | ok found =>
    obtain ⟨f, pending⟩ := found
    cases pending <;> simp [resolve, lookUp, Lookup.finish, Lookup.settle, h]

/-- What a call gives the first present value of: a name, and another expression. -/
theorem resolve_coalesce {name : String} {p : Phrase} {f : Formula}
    (h : (call "COALESCE" false [quoted name, p]).resolve n = .ok f) :
    ∃ g g', (quoted name).resolve n = .ok g ∧ p.resolve n = .ok g' ∧
      f = .call "COALESCE" .coalesce false [g, g'] := by
  have hfunction : Naming.function "COALESCE" 2 = .ok .coalesce := by rfl
  have hwithin : ∀ l : Lookup (List Formula), (Lookup.within [] l).run none =
      match l.run none with
      | .ok found => .ok found
      | .error fault => .ok ([], some fault) := by
    intro l
    rw [StateT.run, Lookup.within]
    cases l.run none <;> rfl
  rw [resolve_quoted]
  cases hname : (n.find? none name).getD (.ok (.datum (.text name))) with
  | error fault => simp [resolve, lookUp, lookUpList, Lookup.finish, hwithin, hfunction, hname] at h
  | ok g =>
    cases hp : (p.lookUp n).run none with
    | error fault =>
      simp [resolve, lookUp, lookUpList, Lookup.finish, hwithin, hfunction, hname, hp] at h
    | ok found =>
      obtain ⟨g', pending⟩ := found
      cases pending with
      | some fault =>
        simp [resolve, lookUp, lookUpList, Lookup.finish, hwithin, hfunction, hname, hp] at h
      | none =>
        obtain rfl : Formula.call "COALESCE" .coalesce false [g, g'] = f := by
          simpa [resolve, lookUp, lookUpList, Lookup.finish, hwithin, hfunction, hname, hp] using h
        exact ⟨g, g', rfl, by simp [resolve, Lookup.finish, hp], rfl⟩

theorem find?_naming (b : Bindings) (headings : List Heading) (name : String) :
    (Query.naming b headings).find? none name =
      ((Query.naming b headings).position? none name).map fun i =>
        .ok ((Query.naming b headings).cellAt i) := by
  have haliased : (Query.naming b headings).aliased? name = none := rfl
  cases h : (Query.naming b headings).position? none name <;> simp [Naming.find?, h, haliased]

theorem ofOneRow_datum (d : Datum) : (datum d).OfOneRow := by
  intro b headings f h
  obtain rfl : .datum d = f := Except.ok.inj h
  rfl

/-- A name that stands for something stands for a cell, a truth value or a text. -/
theorem ofOneRow_column (name : String) : (column none name).OfOneRow := by
  intro b headings f h
  rw [resolve_column] at h
  unfold Naming.column at h
  rw [find?_naming] at h
  cases hposition : (Query.naming b headings).position? none name with
  | some i =>
    rw [hposition] at h
    rw [← Except.ok.inj h]
    rfl
  | none =>
    cases htruth : (Query.naming b headings).truthOfName? name with
    | some truth =>
      simp only [hposition, Option.map_none, htruth] at h
      rw [← Except.ok.inj h]
      rfl
    | none => simp [hposition, htruth] at h

theorem ofOneRow_quoted (name : String) : (quoted name).OfOneRow := by
  intro b headings f h
  rw [resolve_quoted, find?_naming] at h
  cases hposition : (Query.naming b headings).position? none name with
  | some i =>
    rw [hposition] at h
    rw [← Except.ok.inj h]
    rfl
  | none =>
    rw [hposition] at h
    rw [← Except.ok.inj h]
    rfl

theorem OfOneRow.unary {p : Phrase} (h : p.OfOneRow) (op : UnaryOperator) :
    (unary op p).OfOneRow := by
  intro b headings f hf
  rw [resolve_unary] at hf
  obtain ⟨g, hg, rfl⟩ := exists_of_map_eq_ok hf
  exact h b headings g hg

theorem OfOneRow.coalesce {p : Phrase} (h : p.OfOneRow) (name : String) :
    (call "COALESCE" false [quoted name, p]).OfOneRow := by
  intro b headings f hf
  obtain ⟨g, g', hg, hg', rfl⟩ := resolve_coalesce hf
  have hnone : Formula.gatheringsList [g, g'] = [] := Formula.gatheringsList_eq_nil (by
    simp only [List.mem_cons, List.not_mem_nil, or_false, forall_eq_or_imp, forall_eq]
    exact ⟨ofOneRow_quoted name b headings g hg, h b headings g' hg'⟩)
  exact hnone

end Phrase

/-- The characters are those of tokens that are read as the expression, which is computed from one
row. No semicolon is among the tokens. -/
structure Phrase.Fills (p : Phrase) (ts : List Token) (cs : List Char) : Prop where
  spells : Spells ts cs
  isSymbol_semicolon : ∀ t ∈ ts, t.isSymbol ";" = false
  expresses : Expresses ts p
  ofOneRow : p.OfOneRow

/-- A text is read as one expression. -/
theorem Phrase.Fills.unique {p p' : Phrase} {ts ts' : List Token} {cs : List Char}
    (h : p.Fills ts cs) (h' : p'.Fills ts' cs) : p = p' := by
  have htokens : ts = ts' :=
    (h.spells.ofText (String.toList_ofList (l := cs))).symm.trans
      (h'.spells.ofText String.toList_ofList)
  subst htokens
  have hread := h.expresses (4 * ts.length + 1) [] 0 le_rfl endsPhrase_nil
  rw [h'.expresses (4 * ts.length + 1) [] 0 le_rfl endsPhrase_nil] at hread
  exact (Prod.mk.inj (Except.ok.inj hread)).1.symm

namespace Reading

/-- A single token that stands for a datum. -/
theorem expresses_datum {ts : List Token} {d : Datum} (hne : ts ≠ [])
    (h : ∀ n us k, (operand (n + 2)).run ⟨ts ++ us, k⟩ = .ok (.datum d, ⟨us, k⟩)) :
    Expresses ts (.datum d) := by
  refine expresses_of_operand hne fun fuel us k hfuel hus => ?_
  have hpos := List.length_pos_iff.mpr hne
  obtain ⟨n, rfl⟩ : ∃ n, fuel = n + 2 := ⟨fuel - 2, by omega⟩
  exact h n us k

section

variable {gap w : String} (hname : nameOf? (ofWord gap w) = some w)
  (hplain : ∀ keyword ∈ ["NULL", "NOT", "CURRENT_TIMESTAMP", "CURRENT_DATE", "CURRENT_TIME", "CASE",
    "CAST"], (ofWord gap w).isWord keyword = false)

include hname hplain

/-- A word that means nothing else is a column. -/
theorem run_operand_word {us : List Token} (hus : EndsPhrase us) (n k : Nat) :
    (operand (n + 2)).run ⟨ofWord gap w :: us, k⟩ = .ok (.column none w, ⟨us, k⟩) := by
  simp only [List.mem_cons, List.not_mem_nil, or_false, forall_eq_or_imp, forall_eq] at hplain
  obtain ⟨hnull, hnot, hboth, hdate, htime, hcase, hcast⟩ := hplain
  have hopen := run_acceptSymbol_none hus.call k
  have hpoint := run_acceptSymbol_none hus.point k
  simp [operand, wordOperand, name, hnull, hnot, hboth, hdate, htime, hcase, hcast, hname, hopen,
    hpoint]

theorem expresses_word : Expresses [ofWord gap w] (.column none w) := by
  refine expresses_of_operand (List.cons_ne_nil _ _) fun fuel us k hfuel hus => ?_
  obtain ⟨n, rfl⟩ : ∃ n, fuel = n + 2 := ⟨fuel - 2, by simp at hfuel; omega⟩
  exact run_operand_word hname hplain hus n k

/-- A sign in front of such a word. -/
theorem expresses_negativeWord (before : String) :
    Expresses [ofMark before '-', ofWord gap w] (.unary .negate (.column none w)) := by
  refine expresses_of_operand (List.cons_ne_nil _ _) fun fuel us k hfuel hus => ?_
  obtain ⟨n, rfl⟩ : ∃ n, fuel = n + 5 := ⟨fuel - 5, by simp at hfuel; omega⟩
  have hword : (expression (n + 3) signBinding).run ⟨ofWord gap w :: us, k⟩ =
      .ok (.column none w, ⟨us, k⟩) := by
    rw [expression, StateT.run_bind, run_operand_word hname hplain hus, ok_bind,
      run_climb_of_closes (hus.toCloses.mono (Nat.zero_le _))]
  exact run_operand_negate before (by simp) rfl hword

end

/-- The first present value of a name and another expression. -/
theorem expresses_coalesce (name : String) {ts : List Token} {p : Phrase} (h : Expresses ts p) :
    Expresses (ofWord " " "COALESCE" :: ofMark "" '(' :: ofName "" name :: ofMark "" ',' ::
      (ts ++ [ofMark "" ')'])) (.call "COALESCE" false [.quoted name, p]) := by
  refine expresses_of_operand (List.cons_ne_nil _ _) fun fuel us k hfuel hus => ?_
  simp only [List.length_cons, List.length_append, List.length_nil] at hfuel
  obtain ⟨n, rfl⟩ : ∃ n, fuel = n + 4 := ⟨fuel - 4, by omega⟩
  have hfirst := expresses_name "" name (n + 1) (ofMark "" ',' :: (ts ++ ofMark "" ')' :: us)) k
    (by simp only [List.length_cons, List.length_nil]; omega) (endsPhrase_of_ends (.inl rfl) _)
  have hsecond := h n (ofMark "" ')' :: us) k (by omega) (endsPhrase_of_ends (.inr rfl) us)
  simp only [List.cons_append, List.nil_append] at hfirst
  have hargs : (expressions (n + 2)).run
      ⟨ofName "" name :: ofMark "" ',' :: (ts ++ ofMark "" ')' :: us), k⟩ =
        .ok ([.quoted name, p], ⟨ofMark "" ')' :: us, k⟩) := by
    simp [expressions, hfirst, hsecond, isSymbol_ofMark]
  simp +decide [operand, wordOperand, Reading.name, nameOf?, isWord_ofWord, isSymbol_ofMark, hargs]

end Reading

namespace IsLiteral

variable {ts : List Token} {cs : List Char}

/-- A literal that stands for a datum is an expression of one row. -/
theorem fills_datum (h : IsLiteral ts cs) {d : Datum}
    (hrun : ∀ n us k, (operand (n + 2)).run ⟨ts ++ us, k⟩ = .ok (.datum d, ⟨us, k⟩)) :
    (Phrase.datum d).Fills ts (' ' :: cs) := by
  have hne : ts ≠ [] := by cases h <;> simp
  exact ⟨h.spells, h.isSymbol_semicolon, expresses_datum hne hrun, Phrase.ofOneRow_datum d⟩

theorem fills_null : (Phrase.datum .null).Fills [ofWord " " "NULL"] (' ' :: "NULL".toList) :=
  null.fills_datum fun n _ _ => run_operand_null n

theorem fills_numeral (h : IsNumeral cs) :
    (Phrase.datum (numberDatum false cs)).Fills [ofNumeral " " cs] (' ' :: cs) :=
  (numeral h).fills_datum fun n us k => by simp [operand, ofNumeral]

theorem fills_text (s : String) :
    (Phrase.datum (.text s)).Fills [ofLiteral " " s] (' ' :: (textLiteral s).toList) :=
  (text s).fills_datum fun n us k => by simp [operand, ofLiteral]

theorem fills_emptyBlob : (Phrase.datum (.blob [])).Fills [⟨[' '], ['X', '\'', '\''], .blob []⟩]
    (' ' :: (blobLiteral []).toList) :=
  emptyBlob.fills_datum fun n us k => by simp [operand]

/-- **Every literal is an expression of one row.** -/
theorem exists_fills (h : IsLiteral ts cs) : ∃ p : Phrase, p.Fills ts (' ' :: cs) := by
  have hfills : ∀ p, Expresses ts p → p.OfOneRow → ∃ p : Phrase, p.Fills ts (' ' :: cs) :=
    fun p hp hone => ⟨p, h.spells, h.isSymbol_semicolon, hp, hone⟩
  cases h with
  | null => exact ⟨_, fills_null⟩
  | numeral h => exact ⟨_, fills_numeral h⟩
  | @negative cs h =>
    exact ⟨_, (negative h).fills_datum (d := numberDatum true cs) fun n us k => by
      simp [operand, symbolOperand, isSymbol_ofMark, ofNumeral]⟩
  | infinite => exact hfills _ (expresses_word rfl (by decide)) (Phrase.ofOneRow_column _)
  | negativeInfinite =>
    exact hfills _ (expresses_negativeWord rfl (by decide) " ")
      ((Phrase.ofOneRow_column _).unary _)
  | notNumber => exact hfills _ (expresses_word rfl (by decide)) (Phrase.ofOneRow_column _)
  | text s => exact ⟨_, fills_text s⟩
  | emptyBlob => exact ⟨_, fills_emptyBlob⟩

end IsLiteral

/-- The first present value of a name and an expression of one row is one too. -/
theorem Phrase.Fills.coalesce {p : Phrase} {ts : List Token} {fill : String}
    (h : p.Fills ts (' ' :: fill.toList)) (old : String) :
    (Phrase.call "COALESCE" false [.quoted old, p]).Fills
      (ofWord " " "COALESCE" :: ofMark "" '(' :: ofName "" old :: ofMark "" ',' ::
        (ts ++ [ofMark "" ')']))
      (' ' :: (s!"COALESCE({Dialect.sqlite.quote old}, {fill})").toList) := by
  refine ⟨?_, ?_, expresses_coalesce old h.expresses, h.ofOneRow.coalesce old⟩
  · have hclose := spells_mark isGap_empty (c := ')') (.inr (.inl rfl)) Spells.nil
    have hcomma := spells_mark isGap_empty (c := ',') (.inr (.inr rfl))
      (h.spells.append hclose (breaks_cons rfl))
    have hcall := spells_call (w := "COALESCE") (by decide)
      ((spells_name isGap_empty old).append hcomma (breaks_cons rfl))
    simpa [toString, quote_sqlite] using hcall
  · intro t ht
    simp only [List.mem_cons, List.mem_append, List.not_mem_nil, or_false] at ht
    rcases ht with rfl | rfl | rfl | rfl | ht | rfl
    · exact isSymbol_ofWord " " "COALESCE" ";"
    · rfl
    · rfl
    · rfl
    · exact h.isSymbol_semicolon t ht
    · rfl

/-- A name is an expression of one row. -/
theorem Phrase.fills_quoted (name : String) : (Phrase.quoted name).Fills [ofName " " name]
    (' ' :: (Dialect.sqlite.quote name).toList) :=
  ⟨spells_name isGap_blank name, by simp, expresses_name " " name, Phrase.ofOneRow_quoted name⟩

/-! ### Sources -/

/-- The text is one expression that is computed from one row. -/
def Default.FillsRow (sql : String) : Prop :=
  ∃ (p : Phrase) (ts : List Token), p.Fills ts (' ' :: sql.toList)

namespace Column

/-- The expression that is the default of a column, if it has one, is computed from one row. -/
def FillsRow (c : Column) : Prop :=
  ∀ sql, c.default = some (.expression sql) → Default.FillsRow sql

variable {c : Column} (h : c.FillsRow)

include h

theorem FillsRow.unbroken : c.Unbroken := by
  intro sql hsql
  obtain ⟨p, ts, hp⟩ := h sql hsql
  exact ⟨ts, hp.spells, hp.isSymbol_semicolon⟩

/-- So is the literal that fills the column. -/
theorem FillsRow.fillLiteral : Default.FillsRow (Dialect.sqlite.fillLiteral c) := by
  have hliteral : ∀ {ts} {sql : String}, IsLiteral ts sql.toList → Default.FillsRow sql := by
    intro ts sql hsql
    obtain ⟨p, hp⟩ := hsql.exists_fills
    exact ⟨p, ts, hp⟩
  rw [Dialect.fillLiteral]
  split
  · next declared hdefault =>
    rcases declared.isLiteral_or with ⟨ts, hts⟩ | ⟨sql, rfl⟩
    · exact hliteral hts
    · exact h sql hdefault
  · obtain ⟨ts, hts⟩ := exists_isLiteral_zero c.type
    exact hliteral hts

end Column

namespace CopySource

/-- The old column that the new one takes its values over from. -/
def old? : CopySource → Option String
  | column old | columnOrFill old _ => some old
  | fill _ => none

/-- The tokens and the expression of a source. A value of the old column is taken over. -/
structure Copies (source : CopySource) (x : List Token × Phrase) : Prop where
  fills : x.2.Fills x.1 (' ' :: (Dialect.sqlite.copyExpression source).toList)
  value : ∀ {old : String} {t : StoredTable} {p : Nat} {as : String} {b : Bindings} {f : Formula}
    {row : Record} {d v : Datum}, source.old? = some old → t.position? old = some p →
    x.2.resolve (Query.naming b (t.headings as)) = .ok f → row[p]? = some d → d ≠ .null →
    f.eval { row := row } = .ok v → v = d

/-- The name of a column of the table is the cell of that column. -/
theorem eval_quoted {t : StoredTable} {old : String} {p : Nat} (hp : t.position? old = some p)
    {as : String} {b : Bindings} {f : Formula}
    (h : (Phrase.quoted old).resolve (Query.naming b (t.headings as)) = .ok f) {row : Record}
    {d : Datum} (hd : row[p]? = some d) : f.eval { row := row } = .ok d := by
  have hlt := (List.findIdx?_eq_some_iff_getElem.mp hp).1
  rw [StoredTable.resolve_quoted hp (List.getElem?_eq_getElem hlt)] at h
  rw [← Except.ok.inj h]
  simp [Formula.eval, hd]

/-- **The expression of a source is computed from one row.** -/
theorem exists_copies {m : Model} (hm : ∀ c ∈ m.columns, c.FillsRow) {source : CopySource}
    (hsource : source.IsOf m) : ∃ x, source.Copies x := by
  cases source with
  | column old =>
    refine ⟨([ofName " " old], .quoted old), Phrase.fills_quoted old, ?_⟩
    intro old' t p as b f row d v hold hp hf hd hne hv
    obtain rfl : old = old' := Option.some.inj hold
    rw [eval_quoted hp hf hd] at hv
    exact (Except.ok.inj hv).symm
  | fill c =>
    obtain ⟨p, ts, hp⟩ := (hm c hsource).fillLiteral
    exact ⟨(ts, p), hp, fun hold => nomatch hold⟩
  | columnOrFill old c =>
    obtain ⟨p, ts, hp⟩ := (hm c hsource).fillLiteral
    refine ⟨(_, _), hp.coalesce old, ?_⟩
    intro old' t q as b f row d v hold hq hf hd hne hv
    obtain rfl : old = old' := Option.some.inj hold
    obtain ⟨g, g', hg, -, rfl⟩ := Phrase.resolve_coalesce hf
    have hfirst := eval_quoted hq hg hd
    have hpresent : d.isNull = false := by cases d <;> simp_all [Datum.isNull]
    have haggregate : Formula.isAggregate .coalesce [g, g'] = false := rfl
    cases hsecond : g'.eval { row := row } with
    | error fault => simp [Formula.eval, Formula.evalList, haggregate, hfirst, hsecond] at hv
    | ok e =>
      obtain rfl : d = v := by
        simpa [Formula.eval, Formula.evalList, haggregate, hfirst, hsecond, Function.onValues,
          Datum.firstPresent, hpresent] using hv
      rfl

end CopySource

/-! ### The statement -/

/-- **The statement that copies rows is read** as an insertion from a query for the expressions. -/
theorem read_copyRows {cells : List (String × CopySource)} (hne : cells ≠ [])
    {items : List (List Token × Phrase)}
    (h : List.Forall₂ (fun cell x => cell.2.Copies x) cells items) (scratch table : String) :
    command?.run ⟨Token.ofText (Dialect.sqlite.copyRows scratch table cells), 0⟩ =
      .ok (some (.insert table (some (cells.map (·.1))) (.query (.listing
        (items.map fun x => (x.2, Token.written x.1)) scratch))), ⟨[], 0⟩) := by
  have hpieces : List.Forall₂ Spells (items.map (·.1))
      ((cells.map fun cell => (Dialect.sqlite.copyExpression cell.2).toList).map (' ' :: ·)) := by
    rw [List.map_map, List.forall₂_map_left_iff, List.forall₂_map_right_iff]
    exact h.flip.imp fun x cell hx => hx.fills.spells
  obtain ⟨cell, rest, rfl⟩ := List.exists_cons_of_ne_nil hne
  have hselect := (spells_word isGap_blank (w := "SELECT") (by decide)).append
    (spells_listingTokens hpieces scratch) (by cases rest <;> exact breaks_cons rfl)
  have hall := spells_insertHead table ((cell :: rest).map (·.1)) hselect (breaks_cons rfl)
  have hlist := intercalate_append [','] [' '] (Dialect.sqlite.copyExpression cell.2).toList
    (rest.map fun cell => (Dialect.sqlite.copyExpression cell.2).toList)
  have htokens : Token.ofText (Dialect.sqlite.copyRows scratch table (cell :: rest)) =
      insertHead table ((cell :: rest).map (·.1)) ++
        ofWord " " "SELECT" :: listingTokens (items.map (·.1)) scratch := by
    refine hall.ofText ?_
    unfold Dialect.copyRows
    simpa [toString, Function.comp_def] using hlist
  have hitem : ∀ x ∈ items, Expresses x.1 x.2 := by
    intro x hx
    obtain ⟨cell, -, hcell⟩ := Text.exists_mem_of_forall₂ h hx
    exact hcell.fills.expresses
  have hitems : items ≠ [] := by
    rintro rfl
    cases h
  have hnames : (cell :: rest).map (·.1) ≠ [] := by simp
  have hread := run_insertSelect hnames table (listingTokens (items.map (·.1)) scratch) 0
  rw [listingTokens, run_query hitems hitem scratch 0] at hread
  rw [htokens]
  exact run_command? rfl hread

/-! ### The rows -/

/-- In a query over the table, the text is an expression that has the value in the row. -/
def StoredTable.Computes (t : StoredTable) (as : String) (b : Bindings) (row : Record)
    (sql : String) (v : Datum) : Prop :=
  ∃ p ts f, Phrase.Fills p ts (' ' :: sql.toList) ∧
    p.resolve (Query.naming b (t.headings as)) = .ok f ∧ f.eval { row := row } = .ok v

/-- A new row of a table has what the sources are in an old row of another one, in the columns that
they are for and as those store it. A missing value is left out of account, because a column that
numbers the rows replaces it. -/
def StoredRow.Receives (cells : List (String × CopySource)) (t t' : StoredTable) (as : String)
    (b : Bindings) (old new : StoredRow) : Prop :=
  ∀ cell ∈ cells, ∃ v, t.Computes as b old.cells (Dialect.sqlite.copyExpression cell.2) v ∧
    (v ≠ .null → ∀ q c, t'.position? cell.1 = some q → t'.columns[q]? = some c →
      new.cells[q]? = some (c.affinity.store v))

/-- A new row of a table has what an old row of another one has in the columns that it takes over,
as its own columns store it. -/
def StoredRow.TakesOver (cells : List (String × CopySource)) (t t' : StoredTable)
    (old new : StoredRow) : Prop :=
  ∀ cell ∈ cells, ∀ name, cell.2.old? = some name →
    ∀ p d, t.position? name = some p → old.cells[p]? = some d → d ≠ .null →
      ∀ q c, t'.position? cell.1 = some q → t'.columns[q]? = some c →
        new.cells[q]? = some (c.affinity.store d)

/-- **An insertion from a query for expressions of one row** adds a row for each row of the other
table. What its columns store are the values that the expressions have in that row. -/
theorem Database.exists_of_insert_listing {db db' : Database} {b : Bindings}
    {scratch table : String} {t : StoredTable} (ht : db.table? scratch = some t)
    (hscratch : isCatalogName scratch = false)
    (htable : Text.sameName sequenceName table = false) {names : List String}
    {items : List (Phrase × String)} (hone : ∀ x ∈ items, x.1.OfOneRow) {count : Nat}
    (h : db.insert b table (some names) (.query (.listing items scratch)) = .ok (db', count)) :
    ∃ fresh t' news fs, db.table? table = some fresh ∧ db'.table? table = some t' ∧
      t'.rows.Perm (fresh.rows ++ news) ∧
      List.Forall₂ (fun x f => x.1.resolve (Query.naming b (t.headings scratch)) = .ok f) items fs ∧
      List.Forall₂ (fun (old new : StoredRow) => ∃ values : Record,
        List.Forall₂ (fun f v => f.eval { row := old.cells } = .ok v) fs values ∧
        ∀ (i : Nat) (v : Datum) (q : Nat) (c : StoredColumn), values[i]? = some v → v ≠ .null →
          t'.columns[q]? = some c → names.findIdx? (Text.sameName c.name) = some i →
          new.cells[q]? = some (c.affinity.store v)) t.rows news := by
  obtain ⟨fresh, rows, width, positions, defaults, t', hfresh, hrows, hpositions, hdefaults, ht',
    hadds⟩ := exists_of_insert htable h
  obtain ⟨r, hanswer, hrows⟩ := exists_of_bind_eq_ok hrows
  obtain ⟨rfl, rfl⟩ := Prod.mk.inj (Except.ok.inj hrows)
  obtain ⟨fs, hfs, hvalues⟩ := exists_of_answer_listing ht hscratch hone hanswer
  obtain ⟨news, hperm, hnews⟩ := hadds.rows
  rw [List.forall₂_map_left_iff] at hnews
  refine ⟨fresh, t', news, fs, hfresh, ht', hperm, hfs, Text.forall₂_trans ?_ hvalues hnews⟩
  intro old values new heval hnew
  refine ⟨values, heval, fun i v q c hv hne hc hposition => ?_⟩
  have hcolumn : fresh.columns[q]? = some c := by
    rw [hadds.same] at hc
    exact hc
  exact hnew q _ (getElem?_convert_newCells hpositions hdefaults hcolumn hposition hv)
    (c.affinity.store_ne_null hne)

/-- The column of a cell is where the cell is named. -/
theorem findIdx?_cell {cells : List (String × CopySource)}
    (hcells : cells.Pairwise fun x y => Text.sameName x.1 y.1 = false) {i : Nat}
    {cell : String × CopySource} (hi : cells[i]? = some cell) {t : StoredTable} {q : Nat}
    {c : StoredColumn} (hq : t.position? cell.1 = some q) (hc : t.columns[q]? = some c) :
    (cells.map (·.1)).findIdx? (Text.sameName c.name) = some i := by
  have hsame : Text.sameName cell.1 c.name = true := by
    obtain ⟨hlt, hq, -⟩ := List.findIdx?_eq_some_iff_getElem.mp hq
    rw [List.getElem?_eq_getElem hlt] at hc
    rw [← Option.some.inj hc, Text.sameName_comm]
    exact hq
  rw [List.findIdx?_map]
  simpa [Function.comp_def, Text.sameName_comm] using Text.findIdx?_of_pairwise hcells hi hsame

/-- **What is copied adds a row for each row of the other table**, which has what the sources are
in that row. -/
theorem Database.exists_of_copy {db db' : Database} {b : Bindings} {scratch table : String}
    {t : StoredTable} (ht : db.table? scratch = some t) (hscratch : isCatalogName scratch = false)
    (htable : Text.sameName sequenceName table = false) {cells : List (String × CopySource)}
    (hcells : cells.Pairwise fun x y => Text.sameName x.1 y.1 = false)
    {items : List (List Token × Phrase)}
    (hitems : List.Forall₂ (fun cell x => cell.2.Copies x) cells items) {count : Nat}
    (h : db.insert b table (some (cells.map (·.1))) (.query (.listing
      (items.map fun x => (x.2, Token.written x.1)) scratch)) = .ok (db', count)) :
    ∃ fresh t' news, db.table? table = some fresh ∧ db'.table? table = some t' ∧
      t'.rows.Perm (fresh.rows ++ news) ∧
      List.Forall₂ (StoredRow.Receives cells t t' scratch b) t.rows news := by
  have hone : ∀ x ∈ items.map fun x => (x.2, Token.written x.1), x.1.OfOneRow := by
    intro x hx
    obtain ⟨y, hy, rfl⟩ := List.mem_map.mp hx
    obtain ⟨cell, -, hcell⟩ := Text.exists_mem_of_forall₂ hitems hy
    exact hcell.fills.ofOneRow
  obtain ⟨fresh, t', news, fs, hfresh, ht', hperm, hfs, hnews⟩ :=
    exists_of_insert_listing ht hscratch htable hone h
  rw [List.forall₂_map_left_iff] at hfs
  refine ⟨fresh, t', news, hfresh, ht', hperm, hnews.imp fun old new hvalues => ?_⟩
  obtain ⟨values, heval, hstored⟩ := hvalues
  intro cell hcell
  -- the value stands where the column is named
  obtain ⟨i, hi⟩ := List.mem_iff_getElem?.mp hcell
  obtain ⟨x, hx, hcopies⟩ := Text.exists_getElem?_of_forall₂ hitems hi
  obtain ⟨f, hf, hresolve⟩ := Text.exists_getElem?_of_forall₂ hfs hx
  obtain ⟨v, hv, hfv⟩ := Text.exists_getElem?_of_forall₂ heval hf
  refine ⟨v, ⟨x.2, x.1, f, hcopies.fills, hresolve, hfv⟩, fun hne q c hq hc => ?_⟩
  exact hstored i v q c hv hne hc (findIdx?_cell hcells hi hq hc)

/-- A row that has what the sources are takes over the values of their columns. -/
theorem StoredRow.Receives.takesOver {cells : List (String × CopySource)}
    (hcells : ∀ cell ∈ cells, ∃ x, cell.2.Copies x) {t t' : StoredTable} {as : String}
    {b : Bindings} {old new : StoredRow} (h : StoredRow.Receives cells t t' as b old new) :
    StoredRow.TakesOver cells t t' old new := by
  intro cell hcell name hname p d hp hd hne q c hq hc
  obtain ⟨x, hx⟩ := hcells cell hcell
  obtain ⟨v, ⟨p', ts, f, hfills, hresolve, hv⟩, hstored⟩ := h cell hcell
  obtain rfl := hfills.unique hx.fills
  obtain rfl := hx.value hname hp hresolve hd hne hv
  exact hstored hne q c hq hc

/-- Where columns stand decides what a row receives. -/
theorem StoredRow.receives_congr {cells : List (String × CopySource)} {t t' u u' : StoredTable}
    (hold : t.columns = u.columns) (hnew : t'.columns = u'.columns) :
    StoredRow.Receives cells t t' = StoredRow.Receives cells u u' := by
  unfold StoredRow.Receives StoredTable.Computes StoredTable.headings StoredTable.position?
  rw [hold, hnew]

end EntitySql
