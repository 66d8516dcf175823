import EntitySql.Proofs.Database.Declaration
import EntitySql.Proofs.Model
import Mathlib.Data.List.Forall2

/-!
# The statements that create a table and its indexes

The statement that creates the table of a model is read back as a definition that declares the
model: its columns in order and behind them its constraints. The statement that creates an index is
read back as that index.

## Main definitions

* `TableClause.Declares`: a definition that was read declares a model

## Main results

* `yields_tableItems`: the columns and the constraints of a table are read one after the other
* `yields_createTable`: what is read from the statement that creates a table declares the model
* `yields_createIndex`: the statement that creates an index is read as the index
-/

namespace EntitySql

open Reading Token

/-! ### Lists -/

/-- The end of a separator may as well stand in front of the items behind it. -/
theorem intercalate_append {α : Type} (sep gap x : List α) (xs : List (List α)) :
    (sep ++ gap).intercalate (x :: xs) = sep.intercalate (x :: xs.map (gap ++ ·)) := by
  induction xs generalizing x with
  | nil => simp
  | cons y ys ih =>
    have hcons : sep.intercalate ((gap ++ y) :: ys.map (gap ++ ·)) =
        gap ++ sep.intercalate (y :: ys.map (gap ++ ·)) := by
      cases ys <;> simp
    rw [List.intercalate_cons_cons, ih, List.map_cons, List.intercalate_cons_cons, hcons]
    simp

/-- Items with commas between them consist of the tokens of the items with commas between them. -/
theorem spells_separate {pieces : List (List Token)} {texts : List (List Char)}
    (h : List.Forall₂ Spells pieces texts) :
    Spells (separate pieces) ([','].intercalate texts) := by
  induction h with
  | nil => exact Spells.nil
  | cons hp hps ih =>
    cases hps with
    | nil => simpa [separate] using hp
    | cons hq hqs =>
      have hcomma := spells_mark isGap_empty (c := ',') (.inr (.inr rfl)) ih
      have hall := hp.append hcomma (breaks_cons rfl)
      simpa [separate] using hall

/-! ### Names in parentheses -/

theorem quote_sqlite (n : String) : Dialect.sqlite.quote n = Text.Quoted.enclose '"' '"' n := rfl

/-- The tokens of names in a list, each with its name. -/
def nameItems : List String → List (List Token × String)
  | [] => []
  | n :: ns => ([ofName "" n], n) :: ns.map fun n => ([ofName " " n], n)

/-- The tokens of names in parentheses. -/
def namesTokens (ns : List String) : List Token :=
  ofMark " " '(' :: (separate ((nameItems ns).map (·.1)) ++ [ofMark "" ')'])

theorem map_snd_nameItems (ns : List String) : (nameItems ns).map (·.2) = ns := by
  cases ns with
  | nil => rfl
  | cons n ns => simp only [nameItems, List.map_cons, List.map_map, Function.comp_def, List.map_id']

theorem eq_of_mem_nameItems {ns : List String} {x : List Token × String} (hx : x ∈ nameItems ns) :
    ∃ gap n, x = ([ofName gap n], n) := by
  cases ns with
  | nil => simp [nameItems] at hx
  | cons n ns =>
    rcases List.mem_cons.mp hx with rfl | hx
    · exact ⟨"", n, rfl⟩
    · obtain ⟨m, -, rfl⟩ := List.mem_map.mp hx
      exact ⟨" ", m, rfl⟩

theorem spells_nameItems (ns : List String) :
    Spells (separate ((nameItems ns).map (·.1))) (Dialect.sqlite.quoteAll ns).toList := by
  cases ns with
  | nil => simpa [nameItems, separate, Dialect.quoteAll] using Spells.nil
  | cons n ns =>
    have hrest : List.Forall₂ Spells (ns.map fun n => [ofName " " n])
        (ns.map fun n => (" ").toList ++ (Text.Quoted.enclose '"' '"' n).toList) := by
      rw [List.forall₂_map_left_iff, List.forall₂_map_right_iff, List.forall₂_same]
      exact fun n _ => spells_name isGap_blank n
    have hpieces := spells_separate (.cons (spells_name isGap_empty n) hrest)
    have htext := intercalate_append [','] [' '] (Text.Quoted.enclose '"' '"' n).toList
      (ns.map fun n => (Text.Quoted.enclose '"' '"' n).toList)
    have hquoted : (Dialect.sqlite.quoteAll (n :: ns)).toList =
        [','].intercalate ((Text.Quoted.enclose '"' '"' n).toList ::
          ns.map fun n => (" ").toList ++ (Text.Quoted.enclose '"' '"' n).toList) := by
      simpa [Dialect.quoteAll, quote_sqlite, Function.comp_def] using htext
    rw [hquoted]
    simpa [nameItems, Function.comp_def] using hpieces

theorem spells_namesTokens (ns : List String) :
    Spells (namesTokens ns) ((" ").toList ++ '(' :: ((Dialect.sqlite.quoteAll ns).toList ++ [')'])) :=
  spells_mark isGap_blank (.inl rfl) ((spells_nameItems ns).append
    (spells_mark isGap_empty (.inr (.inl rfl)) Spells.nil) (breaks_cons rfl))

/-- Names in parentheses are read as the names, by every step that reads a name as itself. -/
theorem run_inParens_names {item : Reading String}
    (hitem : ∀ gap n (t : Token) ts k, t.Ends →
      item.run ⟨ofName gap n :: t :: ts, k⟩ = .ok (n, ⟨t :: ts, k⟩))
    {ns : List String} (hne : ns ≠ []) (us : List Token) (k : Nat) :
    (inParens item).run ⟨namesTokens ns ++ us, k⟩ = .ok (ns, ⟨us, k⟩) := by
  have hfull : nameItems ns ≠ [] := by
    intro hnil
    rw [← map_snd_nameItems ns, hnil] at hne
    exact hne rfl
  have hitems : ∀ x ∈ nameItems ns, x.1 ≠ [] ∧ ∀ (t : Token) ts k, t.Ends →
      item.run ⟨x.1 ++ t :: ts, k⟩ = .ok (x.2, ⟨t :: ts, k⟩) := by
    intro x hx
    obtain ⟨gap, n, rfl⟩ := eq_of_mem_nameItems hx
    exact ⟨List.cons_ne_nil _ _, hitem gap n⟩
  have hnames := run_inParens hfull hitems " " us k
  rw [map_snd_nameItems] at hnames
  simpa [namesTokens] using hnames

/-- The columns of an index or of a constraint are read as their names. -/
theorem run_columnNames {ns : List String} (hne : ns ≠ []) (us : List Token) (k : Nat) :
    columnNames.run ⟨namesTokens ns ++ us, k⟩ = .ok (ns, ⟨us, k⟩) :=
  run_inParens_names (fun gap n t ts k ht => by simp [ht.isWord]) hne us k

/-! ### Constraints -/

/-- What stands in front of a line of the definition of a table. -/
def lineGap : String := "\n    "

theorem isGap_lineGap : ∀ c ∈ lineGap.toList, isGap c = true :=
  List.all_eq_true.mp rfl

/-- The tokens of a constraint of a table, on a line of its own. -/
def uniqueTokens (table : String) (u : Unique) : List Token :=
  ofWord lineGap "CONSTRAINT" :: ofName " " (u.nameOn table) :: ofWord " " "UNIQUE" ::
    namesTokens u.columns

theorem spells_uniqueTokens (table : String) (u : Unique) :
    Spells (uniqueTokens table u)
      (lineGap ++ Dialect.sqlite.uniqueConstraint table u).toList := by
  have hword := spells_word isGap_lineGap (w := "CONSTRAINT") (by decide)
  have hname := spells_name isGap_blank (u.nameOn table)
  have hunique := spells_word isGap_blank (w := "UNIQUE") (by decide)
  have hall := hword.append (hname.append (hunique.append (spells_namesTokens u.columns)
    (breaks_cons rfl)) (breaks_cons rfl)) (breaks_cons rfl)
  unfold Dialect.uniqueConstraint
  simpa [uniqueTokens, quote_sqlite, toString] using hall

/-- A constraint of a table is read as the constraint. -/
theorem run_tableRule (table : String) {u : Unique} (hne : u.columns ≠ []) (us : List Token)
    (k : Nat) :
    tableRule.run ⟨uniqueTokens table u ++ us, k⟩ = .ok (.unique u.columns, ⟨us, k⟩) := by
  have hnames := run_columnNames hne us k
  simp +decide [tableRule, uniqueTokens, isWord_ofWord, hnames]

/-! ### The items of a table -/

/-- The tokens of the definition of a column, on a line of its own. -/
structure ColumnPiece (c : Column) (ts : List Token) : Prop where
  /-- The first is the name. -/
  head : ∃ us, ts = ofName lineGap c.name :: us
  /-- They are the definition. -/
  spells : Spells ts (lineGap ++ Dialect.sqlite.columnDefinition c).toList
  /-- They are read as a definition that declares the column. -/
  yields : ∀ (t : Token) us, t.Ends → Yields columnClause (ts ++ t :: us)
    fun clause vs => vs = t :: us ∧ clause.Declares c ∧
      clause.lead ++ clause.written = lineGap ++ Dialect.sqlite.columnDefinition c

theorem exists_columnPieces {cs : List Column}
    (h : ∀ c ∈ cs, ∀ declared, c.default = some declared →
      Default.StandsAlone declared.literal) : ∃ pieces, List.Forall₂ ColumnPiece cs pieces := by
  refine Text.exists_forall₂ fun c hc => ?_
  obtain ⟨ts, hspells, hyields⟩ := exists_columnTokens (P := EndsItem) (fun us hus => hus.ends)
    (fun declared hdefault => (h c hc declared hdefault).standsBefore) isGap_lineGap
  rw [← String.toList_append] at hspells
  exact ⟨_, ⟨ts, rfl⟩, hspells, fun t us ht => hyields _ ⟨t, us, rfl, ht⟩⟩

theorem ne_nil_of_mem_pieces {cs : List Column} {pieces : List (List Token)}
    (h : List.Forall₂ ColumnPiece cs pieces) {p : List Token} (hp : p ∈ pieces) : p ≠ [] := by
  induction h with
  | nil => exact absurd hp List.not_mem_nil
  | cons hfirst _ ih =>
    rcases List.mem_cons.mp hp with rfl | hp
    · obtain ⟨us, rfl⟩ := hfirst.head
      exact List.cons_ne_nil _ us
    · exact ih hp

/-- The tokens of a constraint, with the constraint that they are read as. -/
structure RulePiece (x : List Token × TableRule) : Prop where
  /-- The first is a keyword. -/
  head : ∃ us, x.1 = ofWord lineGap "CONSTRAINT" :: us
  /-- They are read as the constraint. -/
  run : ∀ us k, tableRule.run ⟨x.1 ++ us, k⟩ = .ok (x.2, ⟨us, k⟩)

/-- What is read behind a column: the other columns and the constraints, if there are any. -/
def behindColumn (clause : ColumnClause) (n : Nat) :
    Reading (List ColumnClause × List TableRule) := do
  let gap := ((← peek?).map Token.gap).getD []
  if ← acceptSymbol "," then
    if ← seesTableRule then return ([clause], ← separated tableRule n)
    let (columns, rules) ← tableItems (String.ofList gap ++ ",") n
    return (clause :: columns, rules)
  else return ([clause], [])

/-- The definition that was read declares the column, and is shown as the line of the column. -/
structure ColumnClause.Shows (clause : ColumnClause) (lead : String) (c : Column) : Prop where
  declares : clause.Declares c
  text : clause.lead ++ clause.written = lead ++ (lineGap ++ Dialect.sqlite.columnDefinition c)

section

variable {c : Column} {p : List Token} (hp : ColumnPiece c p) (lead : String) (n : Nat)

include hp

/-- What is done behind a column, with the column that was read. -/
theorem yields_tableItems_column {t : Token} (ht : t.Ends) {us : List Token}
    {P : List ColumnClause × List TableRule → List Token → Prop}
    (hrest : ∀ clause, clause.Shows lead c →
      Yields (behindColumn clause n) (t :: us) P) :
    Yields (tableItems lead (n + 1)) (p ++ t :: us) P := by
  rw [tableItems]
  refine .bind (hp.yields t us ht) fun clause vs hvs => ?_
  obtain ⟨rfl, hdeclares, hwritten⟩ := hvs
  refine hrest { clause with lead := lead ++ clause.lead }
    ⟨⟨hdeclares.name, hdeclares.type, hdeclares.rules⟩, ?_⟩
  rw [← hwritten, String.append_assoc]

/-- Behind the last column of a table without constraints stands the end of the table. -/
theorem yields_tableItems_last (gap : String) (us : List Token) :
    Yields (tableItems lead (n + 1)) (p ++ ofMark gap ')' :: us) fun r vs =>
      vs = ofMark gap ')' :: us ∧ ∃ clause, r = ([clause], []) ∧ clause.Shows lead c :=
  yields_tableItems_column hp lead n (.inr rfl) fun clause hclause =>
    yields_of_run (fun k => by simp +decide [behindColumn, isSymbol_ofMark])
      ⟨rfl, clause, rfl, hclause⟩

/-- Behind the last column of a table with constraints stand the constraints. -/
theorem yields_tableItems_rules {rules : List (List Token × TableRule)} (hne : rules ≠ [])
    (hrules : ∀ x ∈ rules, RulePiece x) (hn : rules.length ≤ n + 1) (gap : String)
    (us : List Token) :
    Yields (tableItems lead (n + 1))
      (p ++ ofMark "" ',' :: (separate (rules.map (·.1)) ++ ofMark gap ')' :: us)) fun r vs =>
      vs = ofMark gap ')' :: us ∧
        ∃ clause, r = ([clause], rules.map (·.2)) ∧ clause.Shows lead c := by
  refine yields_tableItems_column hp lead n (.inl rfl) fun clause hclause =>
    yields_of_run (fun k => ?_) ⟨rfl, clause, rfl, hclause⟩
  have hall := run_separated hne (fun x hx t ts k _ => (hrules x hx).run (t :: ts) k) hn gap us k
  have hsees : (seesTableRule.run ⟨separate (rules.map (·.1)) ++ ofMark gap ')' :: us, k⟩) =
      .ok (true, ⟨separate (rules.map (·.1)) ++ ofMark gap ')' :: us, k⟩) := by
    obtain ⟨x, xs, rfl⟩ := List.exists_cons_of_ne_nil hne
    obtain ⟨ws, hws⟩ := (hrules x List.mem_cons_self).head
    cases xs <;> simp +decide [separate, hws, seesTableRule, isWord_ofWord]
  simp +decide [behindColumn, isSymbol_ofMark, hsees, hall]

/-- Behind another column stands a comma, and the other items follow. -/
theorem yields_tableItems_next {name : String} {us vs : List Token}
    (hus : us = ofName lineGap name :: vs)
    {P : List ColumnClause × List TableRule → List Token → Prop}
    (hrest : Yields (tableItems "," n) us P) :
    Yields (tableItems lead (n + 1)) (p ++ ofMark "" ',' :: us) fun r ws =>
      ∃ clause rest, r = (clause :: rest.1, rest.2) ∧ clause.Shows lead c ∧ P rest ws := by
  refine yields_tableItems_column hp lead n (.inl rfl) fun clause hclause => ?_
  have hsees : ∀ k, seesTableRule.run ⟨us, k⟩ = .ok (false, ⟨us, k⟩) := by
    intro k
    simp [hus, seesTableRule]
  have hcomma : ∀ k, (acceptSymbol ",").run ⟨ofMark "" ',' :: us, k⟩ = .ok (true, ⟨us, k⟩) := by
    intro k
    simp +decide [isSymbol_ofMark]
  refine .bind_run (fun k => run_peek? _) (.bind_run hcomma ?_)
  refine .bind_run hsees (.bind hrest fun rest ws hrestP => ?_)
  exact yields_pure ⟨clause, rest, rfl, hclause, hrestP⟩

end

/-- The columns that were read declare the columns of a model, and are shown as their lines. -/
structure Shown (lead : String) (clauses : List ColumnClause) (cs : List Column) : Prop where
  declares : List.Forall₂ ColumnClause.Declares clauses cs
  text : String.join (clauses.map fun c => c.lead ++ c.written) =
    lead ++ ",".intercalate (cs.map (lineGap ++ Dialect.sqlite.columnDefinition ·))

theorem ColumnClause.Shows.shown {lead : String} {c : Column} {clause : ColumnClause}
    (h : clause.Shows lead c) : Shown lead [clause] [c] :=
  ⟨.cons h.declares .nil, by simpa using h.text⟩

/-- **The columns and the constraints of a table are read one after the other.** -/
theorem yields_tableItems {cs : List Column} {pieces : List (List Token)}
    (hpieces : List.Forall₂ ColumnPiece cs pieces) (hne : cs ≠ [])
    {rules : List (List Token × TableRule)} (hrules : ∀ x ∈ rules, RulePiece x) {n : Nat}
    (hn : cs.length + rules.length ≤ n) (lead gap : String) (us : List Token) :
    Yields (tableItems lead n) (separate (pieces ++ rules.map (·.1)) ++ ofMark gap ')' :: us)
      fun r vs => vs = ofMark gap ')' :: us ∧ Shown lead r.1 cs ∧ r.2 = rules.map (·.2) := by
  induction hpieces generalizing lead n with
  | nil => exact absurd rfl hne
  | @cons c p cs ps hp hps ih =>
    obtain ⟨n, rfl⟩ : ∃ k, n = k + 1 := by
      refine ⟨n - 1, ?_⟩
      simp only [List.length_cons] at hn
      omega
    cases hps with
    | nil =>
      cases rules with
      | nil =>
        refine (yields_tableItems_last hp lead n gap us).mono fun r vs hr => ?_
        obtain ⟨hvs, clause, rfl, hclause⟩ := hr
        exact ⟨hvs, hclause.shown, rfl⟩
      | cons x xs =>
        have hall := yields_tableItems_rules hp lead n (List.cons_ne_nil x xs) hrules
          (by simp only [List.length_cons, List.length_nil] at hn ⊢; omega) gap us
        simp only [List.map_cons, List.cons_append, List.nil_append, separate,
          List.append_assoc] at hall ⊢
        refine hall.mono fun r vs hr => ?_
        obtain ⟨hvs, clause, rfl, hclause⟩ := hr
        exact ⟨hvs, hclause.shown, rfl⟩
    | @cons d q ds qs hq hqs =>
      have hrest := ih (List.cons_ne_nil d ds) (n := n)
        (by simp only [List.length_cons] at hn ⊢; omega) ","
      obtain ⟨ws, hws⟩ := hq.head
      obtain ⟨vs, hvs⟩ : ∃ vs, separate ((q :: qs) ++ rules.map (·.1)) ++ ofMark gap ')' :: us =
          ofName lineGap d.name :: vs := by
        cases hmore : qs ++ rules.map (·.1) <;> simp [separate, hws, hmore]
      have hall := yields_tableItems_next hp lead n hvs hrest
      simp only [List.cons_append, separate, List.append_assoc] at hall ⊢
      refine hall.mono fun r vs hr => ?_
      obtain ⟨clause, rest, rfl, hclause, hends, hshown, hrules⟩ := hr
      refine ⟨hends, ⟨.cons hclause.declares hshown.declares, ?_⟩, hrules⟩
      rw [List.map_cons, String.join_cons, hclause.text, hshown.text]
      simp [String.append_assoc]

/-! ### The statement that creates a table -/

/-- The lines of the definition of a table. -/
def Model.lines (m : Model) : List String :=
  (m.columns.map Dialect.sqlite.columnDefinition ++
    m.uniques.map (Dialect.sqlite.uniqueConstraint m.name)).map (lineGap ++ ·)

/-- The tokens of the lines of a table in parentheses, with those of its columns. -/
def bodyTokens (m : Model) (pieces : List (List Token)) : List Token :=
  ofMark " " '(' ::
    (separate (pieces ++ m.uniques.map (uniqueTokens m.name)) ++ [ofMark "\n" ')'])

/-- The tokens of the statement that creates a table. -/
def createTokens (m : Model) (pieces : List (List Token)) : List Token :=
  ofWord "" "CREATE" :: ofWord " " "TABLE" :: ofName " " m.name :: bodyTokens m pieces

theorem createTable_eq_of_lines {m : Model} (hne : m.lines ≠ []) : Dialect.sqlite.createTable m =
    "CREATE TABLE " ++ Dialect.sqlite.quote m.name ++ " (" ++ ",".intercalate m.lines ++ "\n)" := by
  obtain ⟨d, ds, hds⟩ := List.exists_cons_of_ne_nil fun hnil => hne (List.map_eq_nil_iff.mpr hnil)
  have hlines := intercalate_append [','] ['\n'] ("    " ++ d).toList
    (ds.map fun d => ("    " ++ d).toList)
  rw [← String.toList_inj]
  unfold Dialect.createTable
  simpa [Model.lines, hds, lineGap, toString, Function.comp_def] using hlines

theorem createTable_eq {m : Model} (hne : m.columns ≠ []) : Dialect.sqlite.createTable m =
    "CREATE TABLE " ++ Dialect.sqlite.quote m.name ++ " (" ++ ",".intercalate m.lines ++ "\n)" :=
  createTable_eq_of_lines (by simp [Model.lines, hne])

theorem spells_bodyTokens {m : Model} {pieces : List (List Token)}
    (hpieces : List.Forall₂ ColumnPiece m.columns pieces) :
    Spells (bodyTokens m pieces) (" (" ++ ",".intercalate m.lines ++ "\n)").toList := by
  have hlines : List.Forall₂ Spells (pieces ++ m.uniques.map (uniqueTokens m.name))
      (m.lines.map String.toList) := by
    rw [Model.lines, List.map_append, List.map_append]
    simp only [List.map_map]
    refine List.rel_append ?_ ?_
    · rw [List.forall₂_map_right_iff]
      exact (hpieces.imp fun c p hp => hp.spells).flip
    · rw [List.forall₂_map_left_iff, List.forall₂_map_right_iff, List.forall₂_same]
      exact fun u _ => spells_uniqueTokens m.name u
  have hclose : Spells [ofMark "\n" ')'] (("\n").toList ++ [')']) :=
    spells_mark (List.all_eq_true.mp rfl) (.inr (.inl rfl)) Spells.nil
  have hall := spells_mark isGap_blank (c := '(') (.inl rfl)
    ((spells_separate hlines).append hclose (breaks_cons rfl))
  simpa [bodyTokens] using hall

/-- The statement begins with the name of the table. -/
theorem spells_createHead (name : String) {ts : List Token} {cs : List Char} (h : Spells ts cs)
    (hb : Breaks cs) :
    Spells (ofWord "" "CREATE" :: ofWord " " "TABLE" :: ofName " " name :: ts)
      (("CREATE TABLE " ++ Dialect.sqlite.quote name).toList ++ cs) := by
  have hcreate := spells_word isGap_empty (w := "CREATE") (by decide)
  have htable := spells_word isGap_blank (w := "TABLE") (by decide)
  have hname := (spells_name isGap_blank name).append h hb
  have hall := hcreate.append (htable.append hname (breaks_cons rfl)) (breaks_cons rfl)
  simpa [quote_sqlite] using hall

theorem spells_createTokens {m : Model} (hne : m.columns ≠ []) {pieces : List (List Token)}
    (hpieces : List.Forall₂ ColumnPiece m.columns pieces) :
    Spells (createTokens m pieces) (Dialect.sqlite.createTable m).toList := by
  have hbody : Spells (bodyTokens m pieces)
      (' ' :: '(' :: (",".intercalate m.lines ++ "\n)").toList) := by
    simpa using spells_bodyTokens hpieces
  have hall := spells_createHead m.name hbody (breaks_cons rfl)
  rw [createTable_eq hne]
  simpa [createTokens] using hall

/-- The definition that was read declares the model, and is shown as the statement that was
written. -/
structure TableClause.Declares (clause : TableClause) (m : Model) : Prop where
  /-- It has the name. -/
  name : clause.name = m.name
  /-- It is refused when the name is taken. -/
  ifMissing : clause.ifMissing = false
  /-- It has the columns in order. -/
  columns : List.Forall₂ ColumnClause.Declares clause.columns m.columns
  /-- It has the constraints in order. -/
  rules : clause.rules = m.uniques.map fun u => .unique u.columns
  /-- Its pieces make up the statement. -/
  text : "CREATE TABLE " ++ clause.writtenName ++
    String.join (clause.columns.map fun c => c.lead ++ c.written) ++ clause.tail =
      Dialect.sqlite.createTable m

/-- The lines of a table begin with those of its columns. -/
theorem exists_lines_eq {m : Model} (hne : m.columns ≠ []) : ∃ rest,
    ",".intercalate m.lines =
      ",".intercalate (m.columns.map (lineGap ++ Dialect.sqlite.columnDefinition ·)) ++ rest := by
  rw [Model.lines, List.map_append, List.map_map]
  by_cases hnil : m.uniques = []
  · exact ⟨"", by simp [hnil, Function.comp_def]⟩
  · rw [String.intercalate_append_of_ne_nil (by simpa using hne) (by simpa using hnil)]
    exact ⟨_, String.append_assoc ..⟩

/-- What is read in the parentheses of a table. -/
def bodyItems : Reading (List ColumnClause × List TableRule) := do
  let gap := ((← peek?).map Token.gap).getD []
  expectSymbol "("
  let items ← tableItems (String.ofList gap ++ "(") ((← left).length + 1)
  expectSymbol ")"
  return items

/-- The definition of a table is its name and what is read in its parentheses. -/
theorem yields_tableClause {name : String} {ts : List Token}
    {Q : List ColumnClause × List TableRule → Prop}
    (h : Yields bodyItems (ofMark " " '(' :: ts) fun r vs => vs = [] ∧ Q r) :
    Yields tableClause (ofName " " name :: ofMark " " '(' :: ts) fun clause vs => vs = [] ∧
      ∃ r, Q r ∧ clause = {
        name := name
        writtenName := Dialect.sqlite.quote name
        ifMissing := false
        columns := r.1
        rules := r.2
        tail := String.ofList ((spelled (ofMark " " '(' :: ts)).drop
          (r.1.flatMap fun c => (c.lead ++ c.written).toList).length) } := by
  have hdot : (ofMark " " '(').isSymbol "." = false := rfl
  have hifNot : ∀ k, tableClause.ifNot.run ⟨ofName " " name :: ofMark " " '(' :: ts, k⟩ =
      .ok (false, ⟨ofName " " name :: ofMark " " '(' :: ts, k⟩) := by
    intro k
    simp [tableClause.ifNot]
  have hobject : ∀ k, objectName.run ⟨ofName " " name :: ofMark " " '(' :: ts, k⟩ =
      .ok ((name, Dialect.sqlite.quote name), ⟨ofMark " " '(' :: ts ++ [], k⟩) := by
    intro k
    simp [objectName, hdot, quote_sqlite]
  rw [← List.append_nil (ofMark " " '(' :: ts)] at h
  unfold tableClause
  refine .bind_run hifNot (.bind_run hobject (.bind h.taken fun r vs hr => ?_))
  obtain ⟨rfl, hQ, htokens⟩ := hr
  exact yields_pure ⟨rfl, r.1, hQ, by rw [htokens]; rfl⟩

/-- The lines of a table in parentheses are read as its columns and its constraints. -/
theorem yields_bodyItems {m : Model} (hne : m.columns ≠ [])
    (huniques : ∀ u ∈ m.uniques, u.columns ≠ []) {pieces : List (List Token)}
    (hpieces : List.Forall₂ ColumnPiece m.columns pieces) :
    Yields bodyItems (bodyTokens m pieces) fun r vs => vs = [] ∧ Shown " (" r.1 m.columns ∧
      r.2 = m.uniques.map fun u => .unique u.columns := by
  let rules : List (List Token × TableRule) :=
    m.uniques.map fun u => (uniqueTokens m.name u, .unique u.columns)
  have hrules : ∀ x ∈ rules, RulePiece x := by
    intro x hx
    obtain ⟨u, hu, rfl⟩ := List.mem_map.mp hx
    exact ⟨⟨_, rfl⟩, fun us k => run_tableRule m.name (huniques u hu) us k⟩
  have hfst : rules.map (·.1) = m.uniques.map (uniqueTokens m.name) := by
    simp [rules, Function.comp_def]
  have hsnd : rules.map (·.2) = m.uniques.map fun u => .unique u.columns := by
    simp [rules, Function.comp_def]
  have hlength : m.columns.length + rules.length ≤
      (separate (pieces ++ m.uniques.map (uniqueTokens m.name)) ++ [ofMark "\n" ')']).length + 1 := by
    have hfull : ∀ p ∈ pieces ++ m.uniques.map (uniqueTokens m.name), p ≠ [] := by
      intro p hp
      rcases List.mem_append.mp hp with hp | hp
      · exact ne_nil_of_mem_pieces hpieces hp
      · obtain ⟨u, -, rfl⟩ := List.mem_map.mp hp
        exact List.cons_ne_nil _ _
    have hle := length_le_separate hfull
    have hcount : rules.length = m.uniques.length := List.length_map _
    simp only [List.length_append, List.length_map, List.length_cons, List.length_nil] at hle ⊢
    rw [hpieces.length_eq, hcount]
    omega
  have hitems := yields_tableItems hpieces hne hrules hlength " (" "\n" []
  rw [hfst, hsnd] at hitems
  refine .bind_run (fun k => run_peek? _) (.bind_run (fun k => run_expectSymbol _ k rfl) ?_)
  refine .bind_run (fun k => run_left _) (.bind hitems fun r vs hr => ?_)
  obtain ⟨rfl, hr⟩ := hr
  exact .bind_run (fun k => run_expectSymbol _ k rfl) (yields_pure ⟨rfl, hr⟩)

/-- The definition of a table is read as one that declares the model. -/
theorem yields_declaration {m : Model} (hne : m.columns ≠ [])
    (huniques : ∀ u ∈ m.uniques, u.columns ≠ []) {pieces : List (List Token)}
    (hpieces : List.Forall₂ ColumnPiece m.columns pieces) :
    Yields tableClause (ofName " " m.name :: bodyTokens m pieces) fun clause vs =>
      vs = [] ∧ clause.Declares m := by
  refine (yields_tableClause (yields_bodyItems hne huniques hpieces)).mono fun clause vs h => ?_
  obtain ⟨hvs, r, ⟨hshown, hrules⟩, rfl⟩ := h
  refine ⟨hvs, ⟨rfl, rfl, hshown.declares, hrules, ?_⟩⟩
  obtain ⟨rest, hrest⟩ := exists_lines_eq hne
  have hwhole : spelled (bodyTokens m pieces) =
      (String.join (r.1.map fun c => c.lead ++ c.written)).toList ++ (rest ++ "\n)").toList := by
    rw [(spells_bodyTokens hpieces).spelled, hrest, hshown.text, ← String.toList_append]
    simp only [String.append_assoc]
  have hcolumns : r.1.flatMap (fun c => (c.lead ++ c.written).toList) =
      (String.join (r.1.map fun c => c.lead ++ c.written)).toList := by
    rw [String.toList_join, List.flatMap_map]
  rw [bodyTokens] at hwhole
  simp only [hwhole, hcolumns]
  rw [List.drop_left, String.ofList_toList, hshown.text, createTable_eq hne, hrest]
  simp only [String.append_assoc]

/-! ### Whole statements -/

theorem run_createTable {ts : List Token} (k : Nat) :
    command.run ⟨ofWord "" "CREATE" :: ofWord " " "TABLE" :: ts, k⟩ =
      (fun r => (.createTable r.1, r.2)) <$> tableClause.run ⟨ts, k⟩ := by
  simp [command, create, isWord_ofWord]

/-- No column begins with the end of the table. -/
theorem yields_tableItems_nil (lead gap : String) (n : Nat) {us : List Token}
    {P : List ColumnClause × List TableRule → List Token → Prop} :
    Yields (tableItems lead n) (ofMark gap ')' :: us) P := by
  have hcolumn : ∀ {Q : ColumnClause → List Token → Prop},
      Yields columnClause (ofMark gap ')' :: us) Q := by
    intro Q
    unfold columnClause
    refine .bind_run (fun k => run_peek? _) (.bind (Q := fun _ _ => False) ?_ fun _ _ h => h.elim)
    refine .bind_run (fun k => run_left _) (.bind (Q := fun _ _ => False) ?_ fun _ _ h => h.elim)
    exact .bind (Q := fun _ _ => False) (.bind_run (fun k => run_peek? _) yields_refuse)
      fun _ _ h => h.elim
  cases n with
  | zero => exact yields_refuse
  | succ n => exact hcolumn.bind (Q := fun _ _ => False) fun _ _ h => h.elim

/-- A table without columns is refused. -/
theorem yields_createTable_nil {m : Model} (hcolumns : m.columns = []) (huniques : m.uniques = [])
    {P : Option Command → List Token → Prop} :
    Yields command? (Token.ofText (Dialect.sqlite.createTable m)) P := by
  have hclose : Spells [ofMark "\n\n" ')'] (("\n\n").toList ++ [')']) :=
    spells_mark (List.all_eq_true.mp rfl) (.inr (.inl rfl)) Spells.nil
  have hopen := spells_mark isGap_blank (c := '(') (.inl rfl) hclose
  have hall := spells_createHead m.name hopen (breaks_cons rfl)
  have htext : (Dialect.sqlite.createTable m).toList =
      ("CREATE TABLE " ++ Dialect.sqlite.quote m.name).toList ++ " (\n\n)".toList := by
    unfold Dialect.createTable
    simp [hcolumns, huniques, toString]
  rw [hall.ofText htext]
  have hbody : Yields bodyItems [ofMark " " '(', ofMark "\n\n" ')'] fun _ vs => vs = [] ∧ False := by
    refine .bind_run (fun k => run_peek? _) (.bind_run (fun k => run_expectSymbol _ k rfl) ?_)
    refine .bind_run (fun k => run_left _) ?_
    exact .bind (yields_tableItems_nil _ _ _ (P := fun _ _ => False)) fun _ _ h => h.elim
  refine (yields_command? rfl (P := fun _ => False) (yields_of_map run_createTable
    (yields_tableClause hbody) |>.mono fun _ _ h => ?_)).mono fun _ _ h => ?_
  · obtain ⟨-, -, -, -, hfalse, -⟩ := h
    exact hfalse.elim
  · obtain ⟨-, -, -, hfalse⟩ := h
    exact hfalse.elim

/-- **What is read from the statement that creates a table declares the model.** -/
theorem yields_createTable {m : Model} (hm : m.Valid)
    (hdefaults : ∀ c ∈ m.columns, ∀ declared, c.default = some declared →
      Default.StandsAlone declared.literal) :
    Yields command? (Token.ofText (Dialect.sqlite.createTable m)) fun r vs =>
      vs = [] ∧ ∃ command, r = some command ∧
        ∃ clause, command = .createTable clause ∧ clause.Declares m := by
  have hfull : ∀ u ∈ m.uniques, u.columns ≠ [] := by
    intro u hu hnil
    have hlength := hm.unique_several u hu
    simp [hnil] at hlength
  by_cases hne : m.columns = []
  · refine yields_createTable_nil hne (List.eq_nil_iff_forall_not_mem.mpr fun u hu => ?_)
    obtain ⟨x, xs, hx⟩ := List.exists_cons_of_ne_nil (hfull u hu)
    have hmem := hm.unique_columns u hu x (hx ▸ List.mem_cons_self)
    simp [Model.columnNames, hne] at hmem
  · obtain ⟨pieces, hpieces⟩ := exists_columnPieces hdefaults
    have hspells := spells_createTokens hne hpieces
    rw [hspells.ofText rfl]
    have hclause := yields_declaration hne hfull hpieces
    refine yields_command? rfl (yields_of_map run_createTable hclause |>.mono fun r vs hr => ?_)
    obtain ⟨clause, rfl, rfl, hdeclares⟩ := hr
    exact ⟨by simp, clause, rfl, hdeclares⟩

/-- The tokens of the statement that creates an index. -/
def indexTokens (table : String) (i : Index) : List Token :=
  ofWord "" "CREATE" :: ofWord " " "INDEX" :: ofName " " i.name :: ofWord " " "ON" ::
    ofName " " table :: namesTokens i.columns

theorem spells_indexTokens (table : String) (i : Index) :
    Spells (indexTokens table i) (Dialect.sqlite.createIndex table i).toList := by
  have hcreate := spells_word isGap_empty (w := "CREATE") (by decide)
  have hindex := spells_word isGap_blank (w := "INDEX") (by decide)
  have hname := spells_name isGap_blank i.name
  have hon := spells_word isGap_blank (w := "ON") (by decide)
  have htable := (spells_name isGap_blank table).append (spells_namesTokens i.columns)
    (breaks_cons rfl)
  have hall := hcreate.append (hindex.append (hname.append (hon.append htable (breaks_cons rfl))
    (breaks_cons rfl)) (breaks_cons rfl)) (breaks_cons rfl)
  unfold Dialect.createIndex
  simpa [indexTokens, quote_sqlite, toString] using hall

/-- **The statement that creates an index is read as the index.** -/
theorem yields_createIndex (table : String) {i : Index} (hne : i.columns ≠ []) :
    Yields command? (Token.ofText (Dialect.sqlite.createIndex table i)) fun r vs =>
      vs = [] ∧ ∃ command, r = some command ∧
        command = .createIndex false false i.name table i.columns := by
  have hspells := spells_indexTokens table i
  rw [hspells.ofText rfl]
  have hrun : ∀ k, command.run ⟨indexTokens table i, k⟩ =
      .ok (.createIndex false false i.name table i.columns, ⟨[], k⟩) := by
    intro k
    have hcolumns := run_columnNames hne [] k
    rw [List.append_nil] at hcolumns
    have hifNot : tableClause.ifNot.run ⟨ofName " " i.name :: ofWord " " "ON" ::
        ofName " " table :: namesTokens i.columns, k⟩ = .ok (false, ⟨ofName " " i.name ::
          ofWord " " "ON" :: ofName " " table :: namesTokens i.columns, k⟩) := by
      simp [tableClause.ifNot]
    simp [indexTokens, command, create, isWord_ofWord, objectName, hifNot, hcolumns]
  exact yields_command? rfl (yields_of_run hrun ⟨by simp, rfl⟩)

end EntitySql
