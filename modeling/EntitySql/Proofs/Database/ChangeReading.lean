import EntitySql.Proofs.Database.ChangeText

/-!
# What the texts of changes are read as

The statements of a change are read as the change that they spell: the table, index or column that
is named between quotes, and no other. Where a statement writes more than names, only what it is
about is known, because the expression of a default is written as it stands: the statement that
creates a table is read as a definition of that table, and the one that adds a column as a column
for that table.

## Main results

* `Dialect.read_dropTable`, `Dialect.read_dropIndex`, `Dialect.read_renameTable`,
  `Dialect.read_dropColumn`: statements of names
* `Dialect.yields_addColumn`, `Dialect.yields_defineTable`: statements with definitions
* `Dialect.yields_addColumn_declares`: what is read of a column whose default is no expression
-/

namespace EntitySql

open Token Reading

/-- The name of an object, where it is not that of its schema. -/
theorem Reading.run_objectName (gap n : String) (us : List Token)
    (hus : ∀ t ∈ us.head?, t.isSymbol "." = false) (k : Nat) :
    objectName.run ⟨ofName gap n :: us, k⟩ =
      .ok ((n, Text.Quoted.enclose '"' '"' n), ⟨us, k⟩) := by
  cases us with
  | nil =>
    have hnone : (acceptSymbol ".").run ⟨[], k⟩ = .ok (false, ⟨[], k⟩) := rfl
    simp [objectName, hnone]
  | cons t us =>
    have ht : t.isSymbol "." = false := hus t rfl
    simp [objectName, ht]

namespace Dialect

/-! ### Statements of names -/

section

variable (table n : String) (k : Nat)

/-- A statement of keywords with a name behind them. -/
theorem ofText_named {sql w : String} {ws : List String} (hw : isWordText w.toList = true)
    (hws : ∀ w ∈ ws, isWordText w.toList = true) {n : String}
    (h : sql.toList = w.toList ++ (spacedWords ws ++ (" ".toList ++ (sqlite.quote n).toList))) :
    ofText sql = ofWord "" w :: (ofWords ws ++ [ofName " " n]) := by
  have hname := (spells_words hws).append (spells_name isGap_blank n) (breaks_cons rfl)
  have hbreaks : Breaks (spacedWords ws ++
      (" ".toList ++ (Text.Quoted.enclose '"' '"' n).toList)) :=
    (breaks_spacedWords ws).append (breaks_cons rfl)
  exact ((spells_word isGap_empty hw).append hname hbreaks).ofText (by rw [h, quote_sqlite]; rfl)

theorem read_dropTable : command?.run ⟨ofText (sqlite.dropTable n), k⟩ =
    .ok (some (.drop .table true n), ⟨[], k⟩) := by
  have htext : ofText (sqlite.dropTable n) =
      ofWord "" "DROP" :: (ofWords ["TABLE", "IF", "EXISTS"] ++ [ofName " " n]) := by
    refine ofText_named (by decide) (by decide) ?_
    unfold dropTable
    simp [toString, spacedWords]
  have hname := run_objectName " " n [] (by simp) k
  rw [htext]
  refine run_command? rfl ?_
  simp [command, drop, ifExists, ofWords, isWord_ofWord, hname]

theorem read_dropIndex : command?.run ⟨ofText (sqlite.dropIndex table n), k⟩ =
    .ok (some (.drop .index true n), ⟨[], k⟩) := by
  have htext : ofText (sqlite.dropIndex table n) =
      ofWord "" "DROP" :: (ofWords ["INDEX", "IF", "EXISTS"] ++ [ofName " " n]) := by
    refine ofText_named (by decide) (by decide) ?_
    have hplain : sqlite.dropsIndexOnTable = false := rfl
    unfold dropIndex
    simp [clauseIf, hplain, toString, spacedWords]
  have hname := run_objectName " " n [] (by simp) k
  rw [htext]
  refine run_command? rfl ?_
  simp [command, drop, ifExists, ofWords, isWord_ofWord, hname]

/-! ### Statements that alter a table -/

theorem spells_alterHead {ts : List Token} {cs : List Char} (h : Spells ts cs) (hb : Breaks cs) :
    Spells (ofWord "" "ALTER" :: ofWord " " "TABLE" :: ofName " " table :: ts)
      (("ALTER TABLE " ++ sqlite.quote table).toList ++ cs) := by
  have halter := spells_word isGap_empty (w := "ALTER") (by decide)
  have htable := spells_word isGap_blank (w := "TABLE") (by decide)
  have hname := (spells_name isGap_blank table).append h hb
  have hall := halter.append (htable.append hname (breaks_cons rfl)) (breaks_cons rfl)
  simpa [quote_sqlite] using hall

/-- A statement that alters a table by two keywords with a name behind them. -/
theorem ofText_altered {sql v w : String} (hwords : ∀ x ∈ [v, w], isWordText x.toList = true)
    (h : sql.toList = ("ALTER TABLE " ++ sqlite.quote table).toList ++
      (spacedWords [v, w] ++ (" ".toList ++ (sqlite.quote n).toList))) :
    ofText sql = ofWord "" "ALTER" :: ofWord " " "TABLE" :: ofName " " table :: ofWord " " v ::
      ofWord " " w :: [ofName " " n] := by
  have hclause := (spells_words hwords).append (spells_name isGap_blank n) (breaks_cons rfl)
  exact (spells_alterHead table hclause (breaks_cons rfl)).ofText (by rw [h, quote_sqlite n])

theorem read_renameTable : command?.run ⟨ofText (sqlite.renameTable table n), k⟩ =
    .ok (some (.renameTable table n), ⟨[], k⟩) := by
  have hstyle : sqlite.renameStyle = .alterBehindViews := rfl
  have htext : ofText (sqlite.renameTable table n) = _ :=
    ofText_altered table n (v := "RENAME") (w := "TO") (by decide) (by
      unfold renameTable
      simp [hstyle, toString, spacedWords])
  have hname := run_objectName " " table (ofWord " " "RENAME" :: ofWord " " "TO" ::
    [ofName " " n]) (by simp) k
  rw [htext]
  refine run_command? rfl ?_
  simp [command, alter, isWord_ofWord, hname]

theorem read_dropColumn : command?.run ⟨ofText (sqlite.dropColumn table n), k⟩ =
    .ok (some (.dropColumn table n (Text.Quoted.enclose '"' '"' n)), ⟨[], k⟩) := by
  have htext : ofText (sqlite.dropColumn table n) = _ :=
    ofText_altered table n (v := "DROP") (w := "COLUMN") (by decide) (by
      unfold dropColumn
      simp [toString, spacedWords])
  have hname := run_objectName " " table (ofWord " " "DROP" :: ofWord " " "COLUMN" ::
    [ofName " " n]) (by simp) k
  rw [htext]
  refine run_command? rfl ?_
  simp [command, alter, isWord_ofWord, hname]

end

/-! ### Statements with definitions -/

section

variable (table : String) {c : Column} {ts : List Token}

/-- The statement that adds a column ends with the definition of the column. -/
theorem ofText_addColumn
    (hts : Spells ts (" ".toList ++ (sqlite.columnDefinition (sqlite.withFill c)).toList)) :
    ofText (sqlite.addColumn table c) = ofWord "" "ALTER" :: ofWord " " "TABLE" ::
      ofName " " table :: ofWord " " "ADD" :: ofWord " " "COLUMN" :: ts := by
  have hwords : ∀ w ∈ ["ADD", "COLUMN"], isWordText w.toList = true := by decide
  have hadd := (spells_words hwords).append hts (breaks_cons rfl)
  refine (spells_alterHead table hadd (breaks_cons rfl)).ofText ?_
  have hkeywords : sqlite.addColumnKeywords = "ADD COLUMN" := rfl
  unfold addColumn
  simp [hkeywords, toString, spacedWords, quote_sqlite]

theorem run_addColumn (k : Nat) :
    command.run ⟨ofWord "" "ALTER" :: ofWord " " "TABLE" :: ofName " " table :: ofWord " " "ADD" ::
      ofWord " " "COLUMN" :: ts, k⟩ =
      (fun r => (Command.addColumn table { r.1 with lead := ", " }, r.2)) <$>
        columnClause.run ⟨ts, k⟩ := by
  have hname := run_objectName " " table (ofWord " " "ADD" :: ofWord " " "COLUMN" :: ts)
    (by simp) k
  simp [command, alter, isWord_ofWord, hname]

/-- The column that is added is one for the table. -/
theorem yields_addColumn (h : c.Unbroken) :
    Yields command? (ofText (sqlite.addColumn table c)) fun r vs =>
      vs = [] ∧ ∃ command, r = some command ∧ ∃ clause, command = .addColumn table clause := by
  obtain ⟨ts, hts, hsemicolon⟩ := h.withFill.columnDefinition isGap_blank
  rw [ofText_addColumn table hts]
  have hcommand := yields_of_map
    (f := fun clause => Command.addColumn table { clause with lead := ", " }) (run_addColumn table)
    (consumes_columnClause ts)
  refine yields_command? rfl (hcommand.mono fun command vs hread => ?_)
  obtain ⟨clause, rfl, hvs⟩ := hread
  exact ⟨fun v hv => hsemicolon v (hvs.subset (List.mem_of_mem_head? hv)), _, rfl⟩

/-- If its default is no expression, it is read as a column that is declared with the literal that
fills the rows. -/
theorem yields_addColumn_declares (h : ∀ sql, c.default ≠ some (.expression sql)) :
    Yields command? (ofText (sqlite.addColumn table c)) fun r vs =>
      vs = [] ∧ ∃ command, r = some command ∧
        ∃ clause : ColumnClause, command = .addColumn table clause ∧
          clause.Declares (sqlite.withFill c) := by
  have hliteral : ∀ declared, (sqlite.withFill c).default = some declared →
      Default.StandsBefore (· = []) declared.literal := by
    intro declared hdeclared
    rw [withFill] at hdeclared
    split at hdeclared
    · next hfills =>
      simp only [Bool.and_eq_true, Option.isNone_iff_eq_none] at hfills
      obtain rfl : Default.expression (sqlite.fillLiteral c) = declared := Option.some.inj hdeclared
      obtain ⟨ts, hts⟩ := exists_isLiteral_zero c.type
      rw [fillLiteral, hfills.2]
      exact ⟨ts, hts.spells, fun us _ => hts.yields_default us⟩
    · exact Default.standsBefore_literal (fun sql hsql => h sql (hsql ▸ hdeclared)) _
  obtain ⟨ts, hts, hyields⟩ := exists_columnTokens (by rintro _ rfl _ ⟨⟩) hliteral isGap_blank
  rw [ofText_addColumn table hts]
  have hclause := hyields [] rfl
  rw [List.append_nil] at hclause
  refine yields_command? rfl ((yields_of_map
    (f := fun clause => Command.addColumn table { clause with lead := ", " }) (run_addColumn table)
    hclause).mono fun command vs hread => ?_)
  obtain ⟨clause, rfl, rfl, hdeclares, -⟩ := hread
  exact ⟨by simp, _, rfl, ⟨hdeclares.name, hdeclares.type, hdeclares.rules⟩⟩

end

/-- The table that is created has the name, and is refused where the name is taken. -/
theorem yields_defineTable {m : Model} (h : ∀ c ∈ m.columns, c.Unbroken) :
    Yields command? (ofText (sqlite.createTable m)) fun r vs =>
      vs = [] ∧ ∃ command, r = some command ∧
        ∃ clause, command = .createTable clause ∧ clause.name = m.name ∧
          clause.ifMissing = false := by
  obtain ⟨cs, htext, ts, hts, hsemicolon⟩ := exists_createTable_eq h
  have hbody := spells_mark isGap_blank (c := '(') (.inl rfl) hts
  rw [(spells_createHead m.name hbody (breaks_cons rfl)).ofText htext]
  have hclause : Yields tableClause (ofName " " m.name :: ofMark " " '(' :: ts) fun clause _ =>
      clause.name = m.name ∧ clause.ifMissing = false := by
    have hifNot : ∀ k, tableClause.ifNot.run ⟨ofName " " m.name :: ofMark " " '(' :: ts, k⟩ =
        .ok (false, ⟨ofName " " m.name :: ofMark " " '(' :: ts, k⟩) := by
      intro k
      simp [tableClause.ifNot]
    have hobject := run_objectName " " m.name (ofMark " " '(' :: ts)
      (by simp [isSymbol_ofMark])
    unfold tableClause
    exact .bind_run hifNot (.bind_run hobject (.bind (Q := fun _ _ => True)
      (fun _ _ _ _ => trivial) fun _ _ _ => yields_pure ⟨rfl, rfl⟩))
  have hboth : Yields tableClause (ofName " " m.name :: ofMark " " '(' :: ts) fun clause vs =>
      vs <:+ ofName " " m.name :: ofMark " " '(' :: ts ∧ clause.name = m.name ∧
        clause.ifMissing = false := fun k clause u hrun =>
    ⟨consumes_tableClause _ k clause u hrun, hclause k clause u hrun⟩
  refine yields_command? rfl
    ((yields_of_map run_createTable hboth).mono fun command vs hread => ?_)
  obtain ⟨clause, rfl, hvs, hname⟩ := hread
  refine ⟨fun v hv => ?_, clause, rfl, hname⟩
  have hmem := hvs.subset (List.mem_of_mem_head? hv)
  simp only [List.mem_cons] at hmem
  obtain rfl | rfl | hmem := hmem
  · rfl
  · rfl
  · exact hsemicolon v hmem

end Dialect

end EntitySql
