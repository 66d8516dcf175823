import EntitySql.Migration.Plan
import EntitySql.Proofs.Database.Consuming
import EntitySql.Proofs.Database.Statement

/-!
# The texts of changes

Apart from the two that move a table aside behind its views, every statement of a change begins with
a word that defines, alters or fills a table, and no semicolon stands in it outside of quotes. Names
are written in quotes and values as literals, so only what a model writes as it stands can break a
statement: the expressions among its defaults, and the body of a view.

## Main definitions

* `Token.Unbroken`: whole tokens without a semicolon
* `Token.Opens`: a text that begins with a word and has no semicolon
* `Model.Unbroken`: what a model writes as it stands has no semicolon
* `Change.IsOf`: a change writes only what belongs to a model

## Main results

* `Change.opens`: the texts of changes
-/

namespace EntitySql

open Token

namespace Token

/-- The characters are those of whole tokens, none of which is a semicolon, in front of every
break. -/
def Unbroken (cs : List Char) : Prop :=
  ∃ ts, Spells ts cs ∧ ∀ t ∈ ts, t.isSymbol ";" = false

theorem unbroken_nil : Unbroken [] := ⟨[], Spells.nil, by simp⟩

theorem Unbroken.append {xs ys : List Char} (hx : Unbroken xs) (hy : Unbroken ys)
    (hb : Breaks ys) : Unbroken (xs ++ ys) := by
  obtain ⟨ts, hts, hxs⟩ := hx
  obtain ⟨us, hus, hys⟩ := hy
  refine ⟨ts ++ us, hts.append hus hb, fun t ht => ?_⟩
  rcases List.mem_append.mp ht with ht | ht
  · exact hxs t ht
  · exact hys t ht

theorem unbroken_spacedWords {ws : List String} (h : ∀ w ∈ ws, isWordText w.toList = true) :
    Unbroken (spacedWords ws) := by
  refine ⟨ofWords ws, spells_words h, fun t ht => ?_⟩
  obtain ⟨w, -, rfl⟩ := List.mem_map.mp ht
  exact isSymbol_ofWord " " w ";"

section

variable {gap : String} (hgap : ∀ c ∈ gap.toList, isGap c = true)

include hgap

theorem unbroken_name (n : String) :
    Unbroken (gap.toList ++ (Dialect.sqlite.quote n).toList) :=
  ⟨[ofName gap n], spells_name hgap n, by simp⟩

theorem unbroken_word {w : String} (hw : isWordText w.toList = true) :
    Unbroken (gap.toList ++ w.toList) :=
  ⟨[ofWord gap w], spells_word hgap hw, by simp⟩

theorem unbroken_mark {c : Char} (hc : c = '(' ∨ c = ')' ∨ c = ',') {cs : List Char}
    (h : Unbroken cs) : Unbroken (gap.toList ++ c :: cs) := by
  obtain ⟨ts, hts, hsymbols⟩ := h
  refine ⟨ofMark gap c :: ts, spells_mark hgap hc hts, fun t ht => ?_⟩
  rcases List.mem_cons.mp ht with rfl | ht
  · rcases hc with rfl | rfl | rfl <;> rfl
  · exact hsymbols t ht

end

/-- Pieces with commas between them. -/
theorem unbroken_intercalate {xs : List (List Char)} (h : ∀ x ∈ xs, Unbroken x) :
    Unbroken ([','].intercalate xs) := by
  induction xs with
  | nil => exact unbroken_nil
  | cons x xs ih =>
    have hx := h x List.mem_cons_self
    cases xs with
    | nil => simpa using hx
    | cons y ys =>
      have hrest := ih fun z hz => h z (List.mem_cons_of_mem x hz)
      rw [List.intercalate_cons_cons, List.append_assoc]
      exact hx.append (unbroken_mark isGap_empty (c := ',') (.inr (.inr rfl)) hrest) (breaks_cons rfl)

/-- Pieces with commas between them, and a blank behind each comma. -/
theorem unbroken_listed {x : List Char} {xs : List (List Char)} (hx : Unbroken x)
    (hxs : ∀ y ∈ xs, Unbroken (' ' :: y)) : Unbroken ([',', ' '].intercalate (x :: xs)) := by
  have hblank := intercalate_append [','] [' '] x xs
  rw [List.singleton_append] at hblank
  rw [hblank]
  refine unbroken_intercalate fun y hy => ?_
  rcases List.mem_cons.mp hy with rfl | hy
  · exact hx
  · obtain ⟨z, hz, rfl⟩ := List.mem_map.mp hy
    exact hxs z hz

/-- Names in parentheses. -/
theorem unbroken_names (ns : List String) :
    Unbroken (' ' :: '(' :: ((Dialect.sqlite.quoteAll ns).toList ++ [')'])) := by
  have hnames : Unbroken (Dialect.sqlite.quoteAll ns).toList := by
    cases ns with
    | nil => simpa [Dialect.quoteAll] using unbroken_nil
    | cons n ns =>
      have hlisted := @unbroken_listed _ (ns.map fun n => (Dialect.sqlite.quote n).toList)
        (unbroken_name isGap_empty n) (by
          intro y hy
          obtain ⟨m, -, rfl⟩ := List.mem_map.mp hy
          exact unbroken_name isGap_blank m)
      simpa [Dialect.quoteAll, Function.comp_def] using hlisted
  have hclose := unbroken_mark isGap_empty (c := ')') (.inr (.inl rfl)) unbroken_nil
  exact unbroken_mark isGap_blank (.inl rfl) (hnames.append hclose (breaks_cons rfl))

/-- A function in front of its arguments. -/
theorem spells_call {w : String} (hw : isWordText w.toList = true) {ts : List Token}
    {cs : List Char} (h : Spells ts cs) :
    Spells (ofWord " " w :: ofMark "" '(' :: ts) (' ' :: (w.toList ++ '(' :: cs)) := by
  have hopen := spells_mark isGap_empty (c := '(') (.inl rfl) h
  refine ⟨?_, fun rest hrest => ⟨stands_word_of_head isGap_blank hw fun c hc => ?_,
    hopen.stand rest hrest⟩⟩
  · rw [spelled_cons, hopen.spelled]
    rfl
  · rw [hopen.spelled] at hc
    obtain rfl : '(' = c := by simpa using hc
    rfl

theorem unbroken_call {w : String} (hw : isWordText w.toList = true) {cs : List Char}
    (h : Unbroken cs) : Unbroken (' ' :: (w.toList ++ '(' :: cs)) := by
  obtain ⟨ts, hts, hsymbols⟩ := h
  refine ⟨_, spells_call hw hts, fun t ht => ?_⟩
  rcases List.mem_cons.mp ht with rfl | ht
  · exact isSymbol_ofWord " " w ";"
  rcases List.mem_cons.mp ht with rfl | ht
  · rfl
  · exact hsymbols t ht

/-- The characters may follow any token of a statement. -/
structure Follows (cs : List Char) : Prop where
  /-- No semicolon is among their tokens. -/
  unbroken : Unbroken cs
  /-- They do not continue the token in front of them. -/
  breaks : Breaks cs

theorem follows_nil : Follows [] := ⟨unbroken_nil, by simp [Breaks]⟩

theorem Follows.append {xs ys : List Char} (hx : Follows xs) (hy : Follows ys) :
    Follows (xs ++ ys) :=
  ⟨hx.unbroken.append hy.unbroken hy.breaks, hx.breaks.append hy.breaks⟩

/-- A text of words with a blank in front of each. -/
theorem follows_words {s : String} (ws : List String) (hs : s.toList = spacedWords ws)
    (hws : ∀ w ∈ ws, isWordText w.toList = true) : Follows s.toList := by
  rw [hs]
  exact ⟨unbroken_spacedWords hws, breaks_spacedWords ws⟩

theorem follows_name (n : String) : Follows (" ".toList ++ (Dialect.sqlite.quote n).toList) :=
  ⟨unbroken_name isGap_blank n, breaks_cons rfl⟩

theorem follows_names (ns : List String) :
    Follows (' ' :: '(' :: ((Dialect.sqlite.quoteAll ns).toList ++ [')'])) :=
  ⟨unbroken_names ns, breaks_cons rfl⟩

/-- A text begins with the word, and what follows continues the statement. -/
structure Opens (w sql : String) : Prop where
  word : isWordText w.toList = true
  text : ∃ cs, sql.toList = w.toList ++ cs ∧ Follows cs

/-- The tokens of such a text. -/
theorem Opens.ofText {w sql : String} (h : Opens w sql) :
    ∃ ts, ofText sql = ofWord "" w :: ts ∧ ∀ t ∈ ts, t.isSymbol ";" = false := by
  obtain ⟨cs, hsql, ⟨ts, hts, hsymbols⟩, hbreaks⟩ := h.text
  have hall := (spells_word isGap_empty h.word).append hts hbreaks
  exact ⟨ts, hall.ofText hsql, hsymbols⟩

end Token

/-! ### Literals -/

theorem IsLiteral.unbroken {ts : List Token} {cs : List Char} (h : IsLiteral ts cs) :
    Unbroken (' ' :: cs) :=
  ⟨ts, h.spells, h.isSymbol_semicolon⟩

/-- The zero of a type is written as a literal. -/
theorem exists_isLiteral_zero (type : ColumnType) :
    ∃ ts, IsLiteral ts (Dialect.sqlite.toBound type.zeroValue).literal.toList := by
  cases type with
  | bool | int8 | int16 | int32 | int64 | uint8 | uint16 | uint32 | uint64 =>
    exact exists_isLiteral_int _
  | float32 | float64 | decimal => exact exists_isLiteral_double _
  | bytes => exact ⟨_, .emptyBlob⟩
  | custom _ => exact ⟨_, .null⟩
  | text | char | dateTime | date | time | uuid => exact ⟨_, .text _⟩

/-- Literals have no semicolon outside of quotes, if expressions have none. -/
theorem Default.unbroken_literal {declared : Default}
    (h : ∀ sql, declared = .expression sql → Unbroken (' ' :: sql.toList)) :
    Unbroken (' ' :: declared.literal.toList) := by
  rcases declared.isLiteral_or with ⟨ts, hliteral⟩ | ⟨sql, rfl⟩
  · exact hliteral.unbroken
  · exact h sql rfl

/-! ### Columns -/

namespace Column

/-- The expression that is the default of a column, if it has one, has no semicolon. -/
def Unbroken (c : Column) : Prop :=
  ∀ sql, c.default = some (.expression sql) → Token.Unbroken (' ' :: sql.toList)

variable {c : Column}

theorem Unbroken.fillLiteral (h : c.Unbroken) :
    Token.Unbroken (' ' :: (Dialect.sqlite.fillLiteral c).toList) := by
  rw [Dialect.fillLiteral]
  split
  · next declared hdefault =>
    exact Default.unbroken_literal fun sql hsql => h sql (hsql ▸ hdefault)
  · obtain ⟨ts, hzero⟩ := exists_isLiteral_zero c.type
    exact hzero.unbroken

theorem Unbroken.withFill (h : c.Unbroken) : (Dialect.sqlite.withFill c).Unbroken := by
  rw [Dialect.withFill]
  split
  · intro sql hsql
    obtain rfl : Dialect.sqlite.fillLiteral c = sql := by simpa using hsql
    exact h.fillLiteral
  · exact h

theorem Unbroken.defaultClause (h : c.Unbroken) :
    Follows (Dialect.sqlite.defaultClause c).toList := by
  rw [Dialect.defaultClause]
  split
  · next declared hdefault =>
    have hliteral := Default.unbroken_literal fun sql hsql => h sql (hsql ▸ hdefault)
    have hword : Follows " DEFAULT".toList := follows_words ["DEFAULT"] (by decide) (by decide)
    have hclause := hword.append ⟨hliteral, breaks_cons rfl⟩
    simpa [Dialect.sqlite] using hclause
  · exact follows_nil

/-- The definition of a column. -/
theorem Unbroken.columnDefinition (h : c.Unbroken) {gap : String}
    (hgap : ∀ b ∈ gap.toList, isGap b = true) :
    Token.Unbroken (gap.toList ++ (Dialect.sqlite.columnDefinition c).toList) := by
  have hwords : Follows (spacedWords (Sqlite.nativeType c.type :: c.ruleWords)) := by
    refine ⟨unbroken_spacedWords fun w hw => ?_, breaks_spacedWords _⟩
    rcases List.mem_cons.mp hw with rfl | hw
    · exact isWordText_nativeType c.type
    · exact c.isWordText_ruleWords w hw
  have hrest := hwords.append h.defaultClause
  rw [Reading.toList_columnDefinition, ← List.append_assoc]
  exact (unbroken_name hgap c.name).append hrest.unbroken hrest.breaks

end Column

/-! ### Statements -/

namespace Dialect

theorem follows_table : Follows " TABLE".toList := follows_words ["TABLE"] (by decide) (by decide)

theorem opens_dropTable (n : String) : Opens "DROP" (sqlite.dropTable n) := by
  have hwords : Follows " TABLE IF EXISTS".toList :=
    follows_words ["TABLE", "IF", "EXISTS"] (by decide) (by decide)
  refine ⟨by decide, _, ?_, hwords.append (follows_name n)⟩
  unfold dropTable
  simp [toString]

theorem opens_dropView (n : String) : Opens "DROP" (sqlite.dropView n) := by
  have hwords : Follows " VIEW IF EXISTS".toList :=
    follows_words ["VIEW", "IF", "EXISTS"] (by decide) (by decide)
  refine ⟨by decide, _, ?_, hwords.append (follows_name n)⟩
  unfold dropView
  simp [toString]

theorem opens_dropIndex (table n : String) : Opens "DROP" (sqlite.dropIndex table n) := by
  have hwords : Follows " INDEX IF EXISTS".toList :=
    follows_words ["INDEX", "IF", "EXISTS"] (by decide) (by decide)
  refine ⟨by decide, _, ?_, hwords.append (follows_name n)⟩
  have hplain : sqlite.dropsIndexOnTable = false := rfl
  unfold dropIndex
  simp [clauseIf, hplain, toString]

theorem opens_dropColumn (table n : String) : Opens "ALTER" (sqlite.dropColumn table n) := by
  have hdrop : Follows " DROP COLUMN".toList :=
    follows_words ["DROP", "COLUMN"] (by decide) (by decide)
  refine ⟨by decide, _, ?_,
    follows_table.append ((follows_name table).append (hdrop.append (follows_name n)))⟩
  unfold dropColumn
  simp [toString]

theorem opens_addColumn (table : String) {c : Column} (h : c.Unbroken) :
    Opens "ALTER" (sqlite.addColumn table c) := by
  have hadd : Follows " ADD COLUMN".toList := follows_words ["ADD", "COLUMN"] (by decide) (by decide)
  have hcolumn : Follows (" ".toList ++ (sqlite.columnDefinition (sqlite.withFill c)).toList) :=
    ⟨h.withFill.columnDefinition isGap_blank, breaks_cons rfl⟩
  refine ⟨by decide, _, ?_,
    follows_table.append ((follows_name table).append (hadd.append hcolumn))⟩
  have hkeywords : sqlite.addColumnKeywords = "ADD COLUMN" := rfl
  unfold addColumn
  simp [hkeywords, toString]

/-- What stands behind the name of an index. -/
theorem follows_onTable (table : String) (columns : List String) :
    Follows (" ON".toList ++ ((" ".toList ++ (sqlite.quote table).toList) ++
      ' ' :: '(' :: ((sqlite.quoteAll columns).toList ++ [')']))) :=
  (follows_words ["ON"] (by decide) (by decide)).append
    ((follows_name table).append (follows_names columns))

theorem opens_createIndex (table : String) (i : Index) :
    Opens "CREATE" (sqlite.createIndex table i) := by
  have hindex : Follows " INDEX".toList := follows_words ["INDEX"] (by decide) (by decide)
  refine ⟨by decide, _, ?_,
    hindex.append ((follows_name i.name).append (follows_onTable table i.columns))⟩
  unfold createIndex
  simp [toString]

theorem opens_addUnique (table : String) (u : Unique) :
    Opens "CREATE" (sqlite.addUnique table u) := by
  have hindex : Follows " UNIQUE INDEX".toList :=
    follows_words ["UNIQUE", "INDEX"] (by decide) (by decide)
  refine ⟨by decide, _, ?_,
    hindex.append ((follows_name (u.nameOn table)).append (follows_onTable table u.columns))⟩
  have hstyle : sqlite.uniqueStyle = .index := rfl
  unfold addUnique
  simp [hstyle, toString]

theorem opens_createView (n : String) {definition : String}
    (h : Unbroken (' ' :: (Text.trim definition).toList)) :
    Opens "CREATE" (sqlite.createView n definition) := by
  have hview : Follows " VIEW".toList := follows_words ["VIEW"] (by decide) (by decide)
  have has : Follows " AS".toList := follows_words ["AS"] (by decide) (by decide)
  have hbody : Follows (' ' :: (Text.trim definition).toList) := ⟨h, breaks_cons rfl⟩
  refine ⟨by decide, _, ?_, hview.append ((follows_name n).append (has.append hbody))⟩
  unfold createView
  simp [toString]

/-! ### Statements that create or fill a table -/

theorem unbroken_uniqueConstraint (table : String) (u : Unique) :
    Unbroken (lineGap.toList ++ (sqlite.uniqueConstraint table u).toList) := by
  have hunique : Follows " UNIQUE".toList := follows_words ["UNIQUE"] (by decide) (by decide)
  have hrest := (follows_name (u.nameOn table)).append (hunique.append (follows_names u.columns))
  have hall := (unbroken_word isGap_lineGap (w := "CONSTRAINT") (by decide)).append
    hrest.unbroken hrest.breaks
  unfold uniqueConstraint
  simpa [toString] using hall

theorem unbroken_lines {m : Model} (h : ∀ c ∈ m.columns, c.Unbroken) :
    ∀ line ∈ m.lines, Unbroken line.toList := by
  intro line hline
  rw [Model.lines, List.map_append, List.mem_append, List.mem_map, List.mem_map] at hline
  rcases hline with ⟨_, hmem, rfl⟩ | ⟨_, hmem, rfl⟩
  · obtain ⟨c, hc, rfl⟩ := List.mem_map.mp hmem
    rw [String.toList_append]
    exact (h c hc).columnDefinition isGap_lineGap
  · obtain ⟨u, -, rfl⟩ := List.mem_map.mp hmem
    rw [String.toList_append]
    exact unbroken_uniqueConstraint m.name u

/-- The statement that creates a table names it, and has its lines in parentheses. -/
theorem exists_createTable_eq {m : Model} (h : ∀ c ∈ m.columns, c.Unbroken) :
    ∃ cs, (sqlite.createTable m).toList =
      ("CREATE TABLE " ++ sqlite.quote m.name).toList ++ ' ' :: '(' :: cs ∧ Unbroken cs := by
  have hend : ∀ gap : String, (∀ b ∈ gap.toList, isGap b = true) → Unbroken (gap.toList ++ [')']) :=
    fun gap hgap => unbroken_mark hgap (.inr (.inl rfl)) unbroken_nil
  by_cases hne : m.lines = []
  · refine ⟨_, ?_, hend "\n\n" (List.all_eq_true.mp rfl)⟩
    have hnone : m.columns.map sqlite.columnDefinition ++
        m.uniques.map (sqlite.uniqueConstraint m.name) = [] := List.map_eq_nil_iff.mp hne
    unfold createTable
    rw [hnone]
    simp [toString]
  · have hlines : Unbroken ([','].intercalate (m.lines.map String.toList)) := by
      refine unbroken_intercalate fun x hx => ?_
      obtain ⟨line, hline, rfl⟩ := List.mem_map.mp hx
      exact unbroken_lines h line hline
    refine ⟨_, ?_, hlines.append (hend "\n" (List.all_eq_true.mp rfl)) (breaks_cons rfl)⟩
    rw [createTable_eq_of_lines hne]
    simp

theorem opens_createTable {m : Model} (h : ∀ c ∈ m.columns, c.Unbroken) :
    Opens "CREATE" (sqlite.createTable m) := by
  obtain ⟨cs, htext, hcs⟩ := exists_createTable_eq h
  have hbody : Follows (' ' :: '(' :: cs) :=
    ⟨unbroken_mark isGap_blank (.inl rfl) hcs, breaks_cons rfl⟩
  refine ⟨by decide, _, ?_, follows_table.append ((follows_name m.name).append hbody)⟩
  rw [htext]
  simp

end Dialect

/-- The column that a source of values fills, if it does, is one of the model. -/
def CopySource.IsOf (m : Model) : CopySource → Prop
  | .column _ => True
  | .columnOrFill _ c | .fill c => c ∈ m.columns

namespace Dialect

theorem unbroken_copyExpression {m : Model} (h : ∀ c ∈ m.columns, c.Unbroken)
    {source : CopySource} (hsource : source.IsOf m) :
    Unbroken (' ' :: (sqlite.copyExpression source).toList) := by
  cases source with
  | column old => exact unbroken_name isGap_blank old
  | fill c => exact (h c hsource).fillLiteral
  | columnOrFill old c =>
    have hclose := unbroken_mark isGap_empty (c := ')') (.inr (.inl rfl)) unbroken_nil
    have hfill := (h c hsource).fillLiteral.append hclose (breaks_cons rfl)
    have hcomma := unbroken_mark isGap_empty (c := ',') (.inr (.inr rfl)) hfill
    have hargs := (unbroken_name isGap_empty old).append hcomma (breaks_cons rfl)
    have hcall := unbroken_call (w := "COALESCE") (by decide) hargs
    unfold copyExpression
    simpa [toString] using hcall

theorem opens_copyRows {m : Model} (h : ∀ c ∈ m.columns, c.Unbroken) (scratch table : String)
    {cells : List (String × CopySource)} (hne : cells ≠ []) (hcells : ∀ x ∈ cells, x.2.IsOf m) :
    Opens "INSERT" (sqlite.copyRows scratch table cells) := by
  obtain ⟨x, xs, rfl⟩ := List.exists_cons_of_ne_nil hne
  have hexpression : ∀ y ∈ x :: xs, Unbroken (' ' :: (sqlite.copyExpression y.2).toList) :=
    fun y hy => unbroken_copyExpression h (hcells y hy)
  have hsources := @unbroken_listed _ (xs.map fun y => (sqlite.copyExpression y.2).toList)
    (hexpression x List.mem_cons_self) (by
      intro cs hcs
      obtain ⟨y, hy, rfl⟩ := List.mem_map.mp hcs
      exact hexpression y (List.mem_cons_of_mem x hy))
  have hinto : Follows " INTO".toList := follows_words ["INTO"] (by decide) (by decide)
  have hselect : Follows " SELECT".toList := follows_words ["SELECT"] (by decide) (by decide)
  have hfrom : Follows " FROM".toList := follows_words ["FROM"] (by decide) (by decide)
  have hblank : [',', ' '].intercalate ((' ' :: (sqlite.copyExpression x.2).toList) ::
      xs.map fun y => (sqlite.copyExpression y.2).toList) =
      ' ' :: [',', ' '].intercalate ((sqlite.copyExpression x.2).toList ::
        xs.map fun y => (sqlite.copyExpression y.2).toList) := by
    cases xs <;> simp
  rw [hblank] at hsources
  refine ⟨by decide, _, ?_, hinto.append ((follows_name table).append
    ((follows_names ((x :: xs).map (·.1))).append (hselect.append
      ((Follows.mk hsources (breaks_cons rfl)).append (hfrom.append (follows_name scratch))))))⟩
  unfold copyRows
  simp [toString, Function.comp_def]

end Dialect

/-! ### Changes -/

/-- What a model writes as it stands has no semicolon outside of quotes. -/
structure Model.Unbroken (m : Model) : Prop where
  /-- Neither have the expressions among its defaults. -/
  columns : ∀ c ∈ m.columns, c.Unbroken
  /-- Nor has the body of its view. -/
  definition : ∀ sql, m.storage = .view sql → Token.Unbroken (' ' :: (Text.trim sql).toList)

/-- A change writes only what belongs to a model, and moves no table aside. -/
def Change.IsOf (m : Model) : Change → Prop
  | .createTable n => n = m
  | .addColumn _ c => c ∈ m.columns
  | .copyRows _ _ cells => cells ≠ [] ∧ ∀ x ∈ cells, x.2.IsOf m
  | .createView _ definition => m.storage = .view definition
  | .moveAside _ _ => False
  | _ => True

/-- **The texts of changes** are single statements. -/
theorem Change.opens {m : Model} (h : m.Unbroken) {change : Change} (hchange : change.IsOf m)
    {sql : String} (hsql : sql ∈ change.statements .sqlite) : ∃ w ∈ Reading.definers, Opens w sql := by
  cases change with
  | createTable n =>
    obtain rfl : n = m := hchange
    obtain rfl := List.mem_singleton.mp hsql
    exact ⟨"CREATE", by simp [Reading.definers], Dialect.opens_createTable h.columns⟩
  | createIndex table index =>
    obtain rfl := List.mem_singleton.mp hsql
    exact ⟨"CREATE", by simp [Reading.definers], Dialect.opens_createIndex table index⟩
  | dropIndex table name =>
    obtain rfl := List.mem_singleton.mp hsql
    exact ⟨"DROP", by simp [Reading.definers], Dialect.opens_dropIndex table name⟩
  | addUnique table unique =>
    obtain rfl := List.mem_singleton.mp hsql
    exact ⟨"CREATE", by simp [Reading.definers], Dialect.opens_addUnique table unique⟩
  | addColumn table c =>
    obtain rfl := List.mem_singleton.mp hsql
    exact ⟨"ALTER", by simp [Reading.definers], Dialect.opens_addColumn table (h.columns c hchange)⟩
  | dropColumn table name =>
    obtain rfl := List.mem_singleton.mp hsql
    exact ⟨"ALTER", by simp [Reading.definers], Dialect.opens_dropColumn table name⟩
  | alterColumn table c => exact absurd hsql List.not_mem_nil
  | moveAside table scratch => exact hchange.elim
  | copyRows scratch table cells =>
    obtain rfl := List.mem_singleton.mp hsql
    exact ⟨"INSERT", by simp [Reading.definers],
      Dialect.opens_copyRows h.columns scratch table hchange.1 hchange.2⟩
  | dropTable name =>
    obtain rfl := List.mem_singleton.mp hsql
    exact ⟨"DROP", by simp [Reading.definers], Dialect.opens_dropTable name⟩
  | createView name definition =>
    obtain rfl := List.mem_singleton.mp hsql
    exact ⟨"CREATE", by simp [Reading.definers],
      Dialect.opens_createView name (h.definition definition hchange)⟩
  | dropView name =>
    obtain rfl := List.mem_singleton.mp hsql
    exact ⟨"DROP", by simp [Reading.definers], Dialect.opens_dropView name⟩

end EntitySql
