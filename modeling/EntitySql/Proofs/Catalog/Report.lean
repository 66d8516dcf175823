import EntitySql.Catalog.Snapshot
import EntitySql.Proofs.Database.Creation
import EntitySql.Proofs.Migration.Convergence

/-!
# What is reported of a table that was created

The report of a table that holds what a model declares is the model again: the columns in order with
their types and flags, the indexes, and the sets of columns of the constraints. Only one flag is not
read off what the table holds. Whether a key is numbered is looked up in the text of the statement
that created the table, so any name or default in that text with the word for it makes the key
count as numbered. Where the word stands for nothing else, the report agrees with the model, and
there is nothing to do for it.

## Main definitions

* `LiveTable.Reports`: a report agrees with a model, up to what is numbered
* `Model.mentionsNumbering`: the statement that creates the table has the word for numbering

## Main results

* `StoredTable.Holds.reports`: a table that holds what a model declares is reported as the model
* `LiveTable.Reports.agrees_iff`: what is reported agrees with the model if the right columns are
  numbered
-/

namespace EntitySql

open Reading

/-! ### Texts within texts -/

theorem occursIn_iff {part whole : List Char} : occursIn part whole = true ↔ part <:+: whole := by
  induction whole with
  | nil => simp [occursIn]
  | cons c rest ih => rw [occursIn, Bool.or_eq_true, List.isPrefixOf_iff_prefix, ih,
      List.infix_cons_iff]

theorem infix_intercalate {α : Type} {sep x : List α} {xs : List (List α)} (h : x ∈ xs) :
    x <:+: sep.intercalate xs := by
  induction xs with
  | nil => exact absurd h List.not_mem_nil
  | cons y ys ih =>
    cases ys with
    | nil =>
      obtain rfl := List.mem_singleton.mp h
      simp
    | cons z zs =>
      rw [List.intercalate_cons_cons]
      rcases List.mem_cons.mp h with rfl | h
      · exact ⟨[], sep ++ sep.intercalate (z :: zs), by simp⟩
      · exact (ih h).trans ⟨y ++ sep, [], by simp⟩

/-! ### Reports -/

/-- A column is reported as the model declares it, up to what is numbered. -/
structure LiveColumn.Reports (e : LiveColumn) (c : Column) : Prop where
  name : e.name = c.name
  nativeType : e.nativeType = Dialect.sqlite.nativeType c.type c.size
  primaryKey : e.primaryKey = c.primaryKey
  rejectsDuplicates : e.rejectsDuplicates = c.rejectsDuplicates
  requiresValue : e.requiresValue = c.requiresValue

/-- A table is reported as the model declares it, with the given columns numbered. -/
structure LiveTable.Reports (t : LiveTable) (m : Model) (numbered : Column → Bool) : Prop where
  name : t.name = m.name
  /-- The columns are reported in order. -/
  columns : List.Forall₂ (fun e c => e.Reports c ∧ e.autoincrement = numbered c) t.columns m.columns
  /-- The indexes are those of the model. -/
  indexes : t.indexes.Perm m.indexes
  /-- The constraints are over the same sets of columns. -/
  uniques : ∀ columns, (∃ u ∈ t.uniques, u.columnSet = columns) ↔
    ∃ u ∈ m.uniques, u.columnSet = columns

/-- Whether the statement that creates the table has the word that numbers a key. -/
def Model.mentionsNumbering (m : Model) : Bool :=
  occursIn StoredTable.numberingWord ((Dialect.sqlite.createTable m).toList.map Char.toUpper)

/-- The word is there if a key is numbered. -/
theorem Model.mentionsNumbering_of_autoincrement {m : Model} {c : Column} (hc : c ∈ m.columns)
    (hkey : c.primaryKey = true) (hauto : c.autoincrement = true) : m.mentionsNumbering = true := by
  have hword : StoredTable.numberingWord <:+: (Dialect.sqlite.columnDefinition c).toList := by
    have hwords : c.ruleWords = ["PRIMARY", "KEY", "AUTOINCREMENT"] := by
      simp [Column.ruleWords, hkey, hauto]
    have hmem : "AUTOINCREMENT" ∈ Sqlite.nativeType c.type :: c.ruleWords := by simp [hwords]
    rw [toList_columnDefinition]
    exact (Token.infix_spacedWords hmem).trans (List.infix_append' _ _ _)
  have hline : (Dialect.sqlite.columnDefinition c).toList <:+:
      (Dialect.sqlite.createTable m).toList := by
    have hmem : (lineGap ++ Dialect.sqlite.columnDefinition c).toList ∈
        m.lines.map String.toList :=
      List.mem_map_of_mem (List.mem_map_of_mem (List.mem_append_left _ (List.mem_map_of_mem hc)))
    have hcolumn : (Dialect.sqlite.columnDefinition c).toList <:+:
        (lineGap ++ Dialect.sqlite.columnDefinition c).toList := by
      rw [String.toList_append]
      exact (List.suffix_append _ _).isInfix
    rw [createTable_eq (List.ne_nil_of_mem hc), String.toList_append, String.toList_append,
      String.toList_intercalate]
    exact (hcolumn.trans (infix_intercalate hmem)).trans (List.infix_append _ _ _)
  rw [Model.mentionsNumbering, occursIn_iff]
  have hupper : StoredTable.numberingWord.map Char.toUpper = StoredTable.numberingWord := by decide
  rw [← hupper]
  exact (hword.trans hline).map Char.toUpper

namespace StoredTable

variable {t : StoredTable} {m : Model} {created : List Index}

/-- The report of a table lists the indexes that reject no duplicates. -/
theorem mem_indexes_live {i : Index} : i ∈ t.live.indexes ↔
    ∃ j ∈ t.indexes, j.unique = false ∧ j.origin ≠ .key ∧ (⟨j.name, j.columns⟩ : Index) = i := by
  simp [live, reportedIndexes, and_assoc]

/-- The indexes of a table are those that statements created and those of constraints. -/
theorem Holds.index_cases (h : t.Holds m created) {i : StoredIndex} (hi : i ∈ t.indexes) :
    (i.origin = .statement ∧ i.unique = false) ∨
      (i.origin ≠ .statement ∧ i.unique = true ∧ (i.origin, i.columns) ∈ m.constraints) := by
  by_cases horigin : i.origin = .statement
  · have hmem : i ∈ t.indexes.filter (·.origin == .statement) :=
      List.mem_filter.mpr ⟨hi, by simp [horigin]⟩
    rw [h.created] at hmem
    obtain ⟨j, -, rfl⟩ := List.mem_map.mp hmem
    exact .inl ⟨rfl, rfl⟩
  · exact .inr ⟨horigin, h.enforces i hi horigin⟩

/-- A unique index that is reported enforces a uniqueness constraint. -/
theorem Holds.mem_constraints (h : t.Holds m created) {i : StoredIndex}
    (hi : i ∈ t.reportedIndexes) (hunique : i.unique = true) :
    (IndexOrigin.unique, i.columns) ∈ m.constraints := by
  obtain ⟨hi, hkey⟩ := List.mem_filter.mp hi
  rcases h.index_cases hi with ⟨-, hnot⟩ | ⟨horigin, -, hmem⟩
  · rw [hnot] at hunique
    exact absurd hunique (by decide)
  · cases hi' : i.origin with
    | statement => exact absurd hi' horigin
    | unique => rwa [hi'] at hmem
    | key => simp [hi'] at hkey

/-- The index of a uniqueness constraint is reported. -/
theorem Holds.exists_reported (h : t.Holds m created) {k : IndexOrigin × List String}
    (hk : k ∈ m.constraints) (hunique : k.1 = .unique) :
    ∃ i ∈ t.reportedIndexes, i.unique = true ∧ i.columns = k.2 ∧ i.origin = .unique := by
  obtain ⟨i, hi, horigin, hcolumns⟩ := h.enforced k hk hunique
  rw [hunique] at horigin
  rcases h.index_cases hi with ⟨hstatement, -⟩ | ⟨-, hi', -⟩
  · simp [hstatement] at horigin
  · exact ⟨i, List.mem_filter.mpr ⟨hi, by simp [horigin]⟩, hi', hcolumns, horigin⟩

/-- A column that is not the key is unique where the model says so. -/
theorem Holds.isUniqueAlone (h : t.Holds m created) (hm : m.Valid) {s : StoredColumn} {c : Column}
    (hc : c ∈ m.columns) (hs : s.Stores c) :
    t.isUniqueAlone s = (c.unique && !c.primaryKey) := by
  rw [Bool.eq_iff_iff, Bool.and_eq_true, Bool.not_eq_true', ← hm.unique_iff hc]
  simp only [StoredTable.isUniqueAlone, List.any_eq_true, Bool.and_eq_true]
  constructor
  · rintro ⟨i, hi, hunique, hcolumns⟩
    have hmem := h.mem_constraints hi hunique
    split at hcolumns
    · next only honly =>
      rw [hs.name] at hcolumns
      exact ⟨_, hmem, rfl, only, honly, hcolumns⟩
    · exact absurd hcolumns (by decide)
  · rintro ⟨k, hk, hunique, n, hcolumns, hname⟩
    obtain ⟨i, hi, hunique', hcolumns', -⟩ := h.exists_reported hk hunique
    refine ⟨i, hi, hunique', ?_⟩
    rw [hcolumns', hcolumns]
    simpa [hs.name] using hname

/-- The key column is the only one. -/
theorem Holds.isNumbered (h : t.Holds m created) (hm : m.Valid) {s : StoredColumn} {c : Column}
    (hc : c ∈ m.columns) (hs : s.Stores c) :
    t.isNumbered s = (c.primaryKey && m.mentionsNumbering) := by
  have hmentions : t.mentionsNumbering = m.mentionsNumbering := by
    rw [StoredTable.mentionsNumbering, Model.mentionsNumbering, h.sql]
  have hcount : t.columns.countP StoredColumn.inKey =
      m.columns.countP Column.primaryKey := by
    have hcolumns := h.columns
    generalize t.columns = ss, m.columns = cs at hcolumns
    induction hcolumns with
    | nil => rfl
    | cons hs _ ih => rw [List.countP_cons, List.countP_cons, ih, hs.inKey]
  rw [StoredTable.isNumbered, hmentions, hs.inKey, hcount]
  cases hkey : c.primaryKey with
  | false => simp
  | true =>
    have hone := hm.one_key
    have hpos : 0 < m.columns.countP Column.primaryKey := List.countP_pos_iff.mpr ⟨c, hc, hkey⟩
    rw [← List.countP_eq_length_filter] at hone
    have heq : m.columns.countP Column.primaryKey = 1 := by
      have : m.columns.countP (fun c => c.primaryKey) = m.columns.countP Column.primaryKey := rfl
      omega
    simp [heq]

/-- The columns that a table holds are reported as the model declares them. -/
theorem Holds.reports_liveColumn (h : t.Holds m created) (hm : m.Valid) {s : StoredColumn}
    {c : Column} (hc : c ∈ m.columns) (hs : s.Stores c) : (t.liveColumn s).Reports c := by
  refine ⟨hs.name, hs.type, hs.inKey, ?_, ?_⟩
  · rw [LiveColumn.rejectsDuplicates, Column.rejectsDuplicates, liveColumn,
      h.isUniqueAlone hm hc hs, hs.inKey]
    cases c.unique <;> cases c.primaryKey <;> rfl
  · rw [LiveColumn.requiresValue, liveColumn, ← hs.requiresValue, Bool.or_assoc, Bool.or_self]

/-- The indexes that statements have created are reported. -/
theorem Holds.indexes_perm (h : t.Holds m created) : t.live.indexes.Perm created := by
  have hcreated : t.reportedIndexes.filter (!·.unique) =
      t.indexes.filter (·.origin == .statement) := by
    rw [reportedIndexes, List.filter_filter]
    refine List.filter_congr fun i hi => ?_
    rcases h.index_cases hi with ⟨horigin, hunique⟩ | ⟨horigin, hunique, -⟩
    · simp [horigin, hunique]
    · simp [horigin, hunique]
  refine (List.mergeSort_perm _ _).trans ?_
  rw [hcreated, h.created, List.map_map]
  have hid : ((fun i : StoredIndex => (⟨i.name, i.columns⟩ : Index)) ∘
      fun i : Index => (⟨i.name, i.columns, false, .statement⟩ : StoredIndex)) = id := rfl
  rw [hid, List.map_id]
  exact List.reverse_perm created

/-- The constraints that are reported are over the columns of those of the model. -/
theorem Holds.unique_columns (h : t.Holds m created) (hm : m.Valid) (columns : List String) :
    (∃ u ∈ t.live.uniques, u.columns = columns) ↔ ∃ u ∈ m.uniques, u.columns = columns := by
  constructor
  · rintro ⟨u, hu, rfl⟩
    obtain ⟨i, hi, rfl⟩ := List.mem_map.mp hu
    obtain ⟨hi, hunique⟩ := List.mem_filter.mp hi
    rw [Bool.and_eq_true, bne_iff_ne] at hunique
    rcases List.mem_append.mp (h.mem_constraints hi hunique.1) with hmem | hmem
    · obtain ⟨c, -, hsome⟩ := List.mem_filterMap.mp hmem
      have hone : i.columns = [c.name] := Column.columns_constraint? hsome
      exact absurd (by rw [hone]; rfl) hunique.2
    · obtain ⟨v, hv, heq⟩ := List.mem_map.mp hmem
      exact ⟨v, hv, congrArg Prod.snd heq⟩
  · rintro ⟨v, hv, rfl⟩
    obtain ⟨i, hi, hunique, hcolumns, -⟩ := h.exists_reported (k := (.unique, v.columns))
      (List.mem_append_right _ (List.mem_map_of_mem hv)) rfl
    have hseveral := hm.unique_several v hv
    refine ⟨liveUnique i, List.mem_map_of_mem (List.mem_filter.mpr ⟨hi, ?_⟩), hcolumns⟩
    rw [hunique, hcolumns, Bool.true_and, bne_iff_ne]
    simp only
    omega

/-- **A table that holds what a model declares is reported as the model.** Its key counts as
numbered where the statement that created it has the word for that. -/
theorem Holds.reports (h : t.Holds m m.indexes) (hm : m.Valid) :
    t.live.Reports m fun c => c.primaryKey && m.mentionsNumbering := by
  refine ⟨h.name, ?_, h.indexes_perm, fun columns => ?_⟩
  · rw [StoredTable.live, List.forall₂_map_left_iff]
    refine (Text.forall₂_mem_right h.columns).imp fun s c hs => ?_
    exact ⟨h.reports_liveColumn hm hs.1 hs.2, h.isNumbered hm hs.1 hs.2⟩
  · -- the set of columns is made of the columns
    have hsets : ∀ us : List Unique, (∃ u ∈ us, u.columnSet = columns) ↔
        ∃ names, (∃ u ∈ us, u.columns = names) ∧ Unique.columnSet ⟨none, names⟩ = columns :=
      fun us => ⟨fun ⟨u, hu, hset⟩ => ⟨u.columns, ⟨u, hu, rfl⟩, hset⟩,
        fun ⟨_, ⟨u, hu, hnames⟩, hset⟩ => ⟨u, hu, by rw [← hset, ← hnames]; rfl⟩⟩
    simp only [hsets, h.unique_columns hm]

end StoredTable

/-! ### What is left to do -/

namespace LiveTable.Reports

variable {t : LiveTable} {m : Model} {numbered : Column → Bool}

/-- What is reported as the model agrees with it exactly if the right columns are numbered. -/
theorem agrees_iff (h : t.Reports m numbered) (hm : m.Valid)
    (hdistinct : m.indexes.Pairwise fun i j => Text.sameName i.name j.name = false) :
    Difference.Agrees .sqlite m t ↔ ∀ c ∈ m.columns, numbered c = c.autoincrement := by
  have hcolumn : ∀ n, Option.Rel (fun e c => e.Reports c ∧ e.autoincrement = numbered c)
      (t.column? n) (m.column? n) :=
    fun n => Text.rel_find? (fun e c he => by rw [he.1.name]) h.columns
  have hindexes : t.indexes.Pairwise fun i j => Text.sameName i.name j.name = false :=
    (h.indexes.pairwise_iff fun hij => by rwa [Text.sameName_comm]).mpr hdistinct
  -- the column that is reported under the name of a column of the model
  have hfind : ∀ c ∈ m.columns, ∃ e, t.column? c.name = some e ∧ e.Reports c ∧
      e.autoincrement = numbered c := by
    intro c hc
    have hrel := hcolumn c.name
    rw [hm.column?_eq_some hc (Text.sameName_refl _)] at hrel
    exact Text.exists_of_rel_some hrel
  constructor
  · intro hagrees c hc
    obtain ⟨e, he, -, hnumbered⟩ := hfind c hc
    obtain ⟨e', he', hdiffers⟩ := hagrees.columns c hc
    obtain rfl := Option.some.inj (he.symm.trans he')
    simp only [Column.differs, Bool.or_eq_false_iff, bne_eq_false_iff_eq] at hdiffers
    rw [← hnumbered, hdiffers.1.1.2]
  · intro hnumbered
    refine ⟨fun n hn => (Text.isSome_eq_of_rel (hcolumn n)).symm.trans hn, fun c hc => ?_,
      fun i hi => ⟨i, ?_, Difference.sameNames_refl _⟩,
      fun j hj => ⟨j, h.indexes.mem_iff.mp hj, Text.sameName_refl _⟩, fun u hu => ?_⟩
    · obtain ⟨e, he, hreports, hauto⟩ := hfind c hc
      refine ⟨e, he, ?_⟩
      simp [Column.differs, hreports.nativeType, hreports.primaryKey, hauto, hnumbered c hc,
        hreports.rejectsDuplicates, hreports.requiresValue, Difference.sameType_refl]
    · exact Text.find?_of_pairwise hindexes (h.indexes.mem_iff.mpr hi) (Text.sameName_refl _)
    · obtain ⟨v, hv, hset⟩ := (h.uniques u.columnSet).mpr ⟨u, hu, rfl⟩
      exact List.any_eq_true.mpr ⟨v, hv, beq_iff_eq.mpr hset⟩

end LiveTable.Reports

end EntitySql
