import EntitySql.Proofs.Migration.Effect
import EntitySql.Sql.Shipped

/-!
# Planning converges in one step

A schema update that has been carried out leaves nothing to do. What a table must satisfy for that
is `Difference.Agrees`: it has the columns of the model and no others, the indexes of the model and
no others, and all the constraints of the model. Constraints that only the table has are no part of
it, because they are kept.

A table that is created or rebuilt agrees because it is the image of its model. A table that is
altered in place agrees because each kind of change repairs its own kind of difference and spares
what the others left in order. The one interaction is that dropping a column takes the indexes and
constraints over it along: none of these is one that the model wants, because what the model wants
is over its own columns.

## Main definitions

* `Difference.Agrees`: a table needs no change to be as its model says

## Main results

* `Difference.planTable_of_agrees`: there is nothing to do for a table that agrees with its model
* `Difference.agrees_image`, `Difference.agrees_applied`: what the plans lead to agrees
* `Plan.planTable_outcome`: after a plan is carried out, planning again finds nothing to do
-/

namespace EntitySql

namespace Difference

/-- A table needs no change to be as its model says. -/
structure Agrees (d : Dialect) (m : Model) (t : LiveTable) : Prop where
  /-- The table has no other columns. -/
  no_obsolete : ∀ n, (t.column? n).isSome = true → (m.column? n).isSome = true
  /-- The table has every column as the model says. -/
  columns : ∀ c ∈ m.columns, ∃ e, t.column? c.name = some e ∧ c.differs d e = false
  /-- The table has every index over the columns that the model says. -/
  indexes : ∀ i ∈ m.indexes,
    ∃ j, t.index? i.name = some j ∧ Text.sameNames i.columns j.columns = true
  /-- The table has no other indexes. -/
  no_obsolete_index : ∀ j ∈ t.indexes, ∃ i ∈ m.indexes, Text.sameName i.name j.name = true
  /-- The table has every constraint. -/
  uniques : ∀ u ∈ m.uniques, u.isAmong t.uniques = true

section

variable {d : Dialect} {m : Model} {t : LiveTable}

/-- **There is nothing to do for a table that agrees with its model**, whatever constraints it has
besides. -/
theorem planTable_of_agrees (h : Agrees d m t) : planTable d m (some t) = .noOp := by
  have hcolumns : (diagnose d m t).columns = [] := by
    have hobsolete : t.columns.filterMap (ofLiveColumn m) = [] := by
      refine List.filterMap_eq_nil_iff.mpr fun e he => ?_
      have hsome := h.no_obsolete e.name (LiveTable.isSome_column?_of_mem he)
      rw [ofLiveColumn, if_neg (by simpa [Option.isSome_iff_ne_none] using hsome)]
    have hmodel : m.columns.filterMap (ofColumn d t) = [] := by
      refine List.filterMap_eq_nil_iff.mpr fun c hc => ?_
      obtain ⟨e, he, hdiffers⟩ := h.columns c hc
      simp [ofColumn, he, hdiffers]
    simp only [diagnose, hobsolete, hmodel, List.append_nil]
  have hmissingIndexes : (diagnose d m t).missingIndexes = [] := by
    refine List.filter_eq_nil_iff.mpr fun i hi => ?_
    obtain ⟨j, hj, -⟩ := h.indexes i hi
    simp [hj]
  have hobsoleteIndexes : (diagnose d m t).obsoleteIndexes = [] := by
    refine List.filter_eq_nil_iff.mpr fun j hj => ?_
    obtain ⟨i, hi, hname⟩ := h.no_obsolete_index j hj
    simpa using ⟨i, hi, hname⟩
  have halteredIndexes : (diagnose d m t).alteredIndexes = [] := by
    refine List.filter_eq_nil_iff.mpr fun i hi => ?_
    obtain ⟨j, hj, hsame⟩ := h.indexes i hi
    simp [isAltered, hj, hsame]
  have hmissingUniques : (diagnose d m t).missingUniques = [] := by
    refine List.filter_eq_nil_iff.mpr fun u hu => ?_
    simp [h.uniques u hu]
  have hmissing : (diagnose d m t).missing = [] := by simp [missing, hcolumns]
  have hobsolete : (diagnose d m t).obsolete = [] := by simp [obsolete, hcolumns]
  have haltered : (diagnose d m t).altered = [] := by simp [altered, hcolumns]
  have hrebuild : (diagnose d m t).requiresRebuild d = false := by
    rw [requiresRebuild]
    split <;> simp [hmissing, hobsolete, haltered, hmissingUniques]
  have hchanges : (diagnose d m t).inPlaceChanges = [] := by
    simp [inPlaceChanges, hmissing, hobsolete, haltered, hmissingIndexes, hobsoleteIndexes,
      halteredIndexes, hmissingUniques]
  simp only [planTable, hrebuild, hchanges]
  simp

/-! ### Tables that are created -/

/-- The type that a model gives a column is the type it asks for. -/
theorem sameType_refl (d : Dialect) (native : String) : d.sameType native native = true := by
  simp [Dialect.sameType]

theorem differs_image (c : Column) : c.differs d (c.image d) = false := by
  simp [Column.differs, Column.image, sameType_refl, LiveColumn.rejectsDuplicates,
    Column.rejectsDuplicates, LiveColumn.requiresValue, Column.requiresValue]

/-- A column with the default that fills it differs in the default only. -/
theorem differs_image_withFill (c : Column) : c.differs d ((d.withFill c).image d) = false := by
  rw [← differs_image (d := d) c, Dialect.withFill]
  split <;> rfl

theorem name_withFill (c : Column) : (d.withFill c).name = c.name := by
  rw [Dialect.withFill]
  split <;> rfl

theorem sameNames_refl (xs : List String) : Text.sameNames xs xs = true := by
  simp [Text.sameNames]

theorem isAmong_self {u : Unique} {us : List Unique} (hu : u ∈ us) : u.isAmong us = true := by
  rw [Unique.isAmong, List.any_eq_true]
  exact ⟨u, hu, beq_self_eq_true _⟩

/-- The image of a model agrees with it. -/
theorem agrees_image (hm : m.Valid)
    (hindexes : m.indexes.Pairwise fun i j => Text.sameName i.name j.name = false) :
    Agrees d m (m.image d) := by
  have hcolumn : ∀ n, (m.image d).column? n = (m.column? n).map (Column.image d) := by
    intro n
    simp only [LiveTable.column?, Model.image, Model.bareImage, List.find?_map]
    rfl
  refine ⟨fun n hn => ?_, fun c hc => ⟨c.image d, ?_, differs_image c⟩,
    fun i hi => ⟨i, ?_, sameNames_refl i.columns⟩, fun i hi => ⟨i, hi, Text.sameName_refl i.name⟩,
    fun u hu => isAmong_self hu⟩
  · simpa [hcolumn] using hn
  · rw [hcolumn, hm.column?_eq_some hc (Text.sameName_refl c.name)]
    rfl
  · exact Text.find?_of_pairwise hindexes hi (Text.sameName_refl i.name)

/-! ### What is in a difference -/

theorem ofLiveColumn_eq_some {e : LiveColumn} {change : ColumnChange} :
    ofLiveColumn m e = some change ↔ m.column? e.name = none ∧ change = .obsolete e := by
  rw [ofLiveColumn]
  cases m.column? e.name with
  | none => simp [eq_comm]
  | some c => simp

theorem ofColumn_eq_some {c : Column} {change : ColumnChange} :
    ofColumn d t c = some change ↔
      (t.column? c.name = none ∧ change = .missing c) ∨
        ∃ e, t.column? c.name = some e ∧ c.differs d e = true ∧ change = .altered c e := by
  rw [ofColumn]
  cases t.column? c.name with
  | none =>
    simp only [Option.some.injEq, reduceCtorEq, false_and, exists_false, or_false, true_and]
    exact eq_comm
  | some e =>
    cases hdiffers : c.differs d e with
    | false => simp [hdiffers]
    | true =>
      simp [hdiffers]
      exact eq_comm

/-- The changes of the columns, each with what it says. -/
theorem mem_columns {change : ColumnChange} :
    change ∈ (diagnose d m t).columns ↔
      (∃ e ∈ t.columns, m.column? e.name = none ∧ change = .obsolete e) ∨
        ∃ c ∈ m.columns, (t.column? c.name = none ∧ change = .missing c) ∨
          ∃ e, t.column? c.name = some e ∧ c.differs d e = true ∧ change = .altered c e := by
  simp only [diagnose, List.mem_append, List.mem_filterMap, ofLiveColumn_eq_some, ofColumn_eq_some]

theorem mem_obsolete {e : LiveColumn} :
    e ∈ (diagnose d m t).obsolete ↔ e ∈ t.columns ∧ m.column? e.name = none := by
  rw [obsolete, List.mem_filterMap]
  constructor
  · rintro ⟨change, hchange, h⟩
    rcases mem_columns.mp hchange with ⟨e', he', hnone, rfl⟩ | ⟨c, -, ⟨-, rfl⟩ | ⟨e', -, -, rfl⟩⟩
    · obtain rfl : e' = e := by simpa using h
      exact ⟨he', hnone⟩
    · simp at h
    · simp at h
  · rintro ⟨he, hnone⟩
    exact ⟨.obsolete e, mem_columns.mpr (.inl ⟨e, he, hnone, rfl⟩), rfl⟩

theorem mem_missing {c : Column} :
    c ∈ (diagnose d m t).missing ↔ c ∈ m.columns ∧ t.column? c.name = none := by
  rw [missing, List.mem_filterMap]
  constructor
  · rintro ⟨change, hchange, h⟩
    rcases mem_columns.mp hchange with ⟨e, -, -, rfl⟩ | ⟨b, hb, ⟨hnone, rfl⟩ | ⟨e, -, -, rfl⟩⟩
    · simp at h
    · obtain rfl : b = c := by simpa using h
      exact ⟨hb, hnone⟩
    · simp at h
  · rintro ⟨hc, hnone⟩
    exact ⟨.missing c, mem_columns.mpr (.inr ⟨c, hc, .inl ⟨hnone, rfl⟩⟩), rfl⟩

theorem mem_altered {c : Column} {e : LiveColumn} :
    (c, e) ∈ (diagnose d m t).altered ↔
      c ∈ m.columns ∧ t.column? c.name = some e ∧ c.differs d e = true := by
  rw [altered, List.mem_filterMap]
  constructor
  · rintro ⟨change, hchange, h⟩
    rcases mem_columns.mp hchange with
      ⟨e', -, -, rfl⟩ | ⟨b, hb, ⟨-, rfl⟩ | ⟨f, hf, hdiffers, rfl⟩⟩
    · simp at h
    · simp at h
    · obtain ⟨rfl, rfl⟩ : b = c ∧ f = e := by simpa using h
      exact ⟨hb, hf, hdiffers⟩
  · rintro ⟨hc, he, hdiffers⟩
    exact ⟨.altered c e, mem_columns.mpr (.inr ⟨c, hc, .inr ⟨e, he, hdiffers, rfl⟩⟩), rfl⟩

theorem mem_obsoleteNames {n : String} :
    n ∈ (diagnose d m t).obsoleteNames ↔ ∃ e ∈ t.columns, m.column? e.name = none ∧ e.name = n := by
  simp [obsoleteNames, mem_obsolete, and_assoc]

/-- A name that the model has is not the name of a column that only the table has. -/
theorem sameName_obsolete {n o : String} (hn : (m.column? n).isSome = true)
    (ho : o ∈ (diagnose d m t).obsoleteNames) : Text.sameName n o = false := by
  obtain ⟨e, -, hnone, rfl⟩ := mem_obsoleteNames.mp ho
  rw [Bool.eq_false_iff]
  intro hsame
  obtain ⟨c, hmem, hcn⟩ := Model.isSome_column?_iff.mp hn
  exact absurd (Text.sameName_trans hcn hsame) (by simpa using List.find?_eq_none.mp hnone c hmem)

/-- What is over columns of the model is not over a column that only the table has. -/
theorem covers_obsolete {columns : List String}
    (h : ∀ x ∈ columns, ∀ o ∈ (diagnose d m t).obsoleteNames, Text.sameName x o = false) :
    (diagnose d m t).obsoleteNames.any (LiveTable.covers columns) = false := by
  rw [Bool.eq_false_iff, Ne, List.any_eq_true]
  rintro ⟨o, ho, hcovers⟩
  obtain ⟨x, hx, hsame⟩ := List.any_eq_true.mp hcovers
  rw [h x hx o ho] at hsame
  exact absurd hsame (by decide)

/-! ### Tables that are altered -/

@[simp] theorem name_altered (e : LiveColumn) (c : Column) : (e.altered d c).name = e.name := by
  rw [LiveColumn.altered]
  split <;> rfl

@[simp] theorem name_foldl_altered (cs : List Column) (e : LiveColumn) :
    (cs.foldl (LiveColumn.altered d) e).name = e.name := by
  induction cs generalizing e with
  | nil => rfl
  | cons c cs ih => rw [List.foldl_cons, ih, name_altered]

/-- A column is altered only by the column of the model that has its name. -/
theorem foldl_altered {cs : List Column} {c : Column} {e : LiveColumn}
    (h : ∀ a ∈ cs, Text.sameName a.name e.name = true → a = c) :
    cs.foldl (LiveColumn.altered d) e =
      if cs.any (fun a => Text.sameName a.name e.name) then e.altered d c else e := by
  induction cs generalizing e with
  | nil => simp
  | cons a cs ih =>
    have hrest : ∀ b ∈ cs, Text.sameName b.name (e.altered d a).name = true → b = c := by
      intro b hb
      rw [name_altered]
      exact h b (List.mem_cons_of_mem a hb)
    rw [List.foldl_cons, ih hrest, name_altered, List.any_cons]
    cases ha : Text.sameName a.name e.name with
    | false => simp [LiveColumn.altered, ha]
    | true =>
      obtain rfl := h a List.mem_cons_self ha
      simp [LiveColumn.altered, ha]

/-- What is not rebuilt can be altered in place, and keeps its keys and its uniqueness. -/
theorem of_requiresRebuild_eq_false (hd : d ∈ Dialect.shipped) {x : Difference}
    (h : x.requiresRebuild d = false) :
    ∀ change ∈ x.altered,
      changesKeyOrUniqueness change = false ∧ ∀ table, (d.alterColumn? table change.1).isSome := by
  intro change hchange
  simp only [Dialect.shipped, List.mem_cons, List.not_mem_nil, or_false] at hd
  rcases hd with rfl | rfl | rfl
  · have hempty : x.altered = [] := by
      simp [requiresRebuild, Dialect.sqlite] at h
      exact h.1.1.1
    simp [hempty] at hchange
  · simp only [requiresRebuild, Dialect.postgres, Bool.or_eq_false_iff, List.any_eq_false] at h
    exact ⟨by simpa using (h.2 change hchange), fun table => rfl⟩
  · simp only [requiresRebuild, Dialect.sqlServer, Bool.or_eq_false_iff, List.any_eq_false] at h
    exact ⟨by simpa using (h.2 change hchange), fun table => rfl⟩

/-- Altering a column removes what differs, where key and uniqueness are the same. -/
theorem differs_altered {c : Column} {e : LiveColumn}
    (hname : Text.sameName c.name e.name = true) (h : changesKeyOrUniqueness (c, e) = false) :
    c.differs d (e.altered d c) = false := by
  simp only [changesKeyOrUniqueness, Bool.or_eq_false_iff, bne_eq_false_iff_eq] at h
  obtain ⟨⟨hkey, hauto⟩, hunique⟩ := h
  have hunique' : c.rejectsDuplicates = (e.altered d c).rejectsDuplicates := by
    rw [hunique, LiveColumn.altered, if_pos hname]
    rfl
  have hvalue : c.requiresValue = (e.altered d c).requiresValue := by
    simp only [LiveColumn.altered, if_pos hname, LiveColumn.requiresValue, Column.requiresValue,
      hkey, Bool.or_assoc, Bool.or_self]
  rw [Column.differs, ← hunique', ← hvalue]
  simp [LiveColumn.altered, hname, sameType_refl, hkey, hauto]

/-- The column of a table under a name, after it is altered in place. -/
theorem column?_applied (n : String) :
    ((diagnose d m t).applied d t).column? n =
      ((if (m.column? n).isSome then t.column? n else none).or
        (((diagnose d m t).missing.find? fun c => Text.sameName c.name n).map
          fun c => (d.withFill c).image d)).map
        fun e => ((diagnose d m t).altered.map (·.1)).foldl (LiveColumn.altered d) e := by
  have hkept : (t.columns.filter fun e =>
      !(diagnose d m t).obsoleteNames.any (Text.sameName e.name)).find?
        (fun e => Text.sameName e.name n) =
      if (m.column? n).isSome then t.column? n else none := by
    refine Text.find?_filter_of_sameName fun e he hen => ?_
    rw [← m.column?_congr hen]
    cases hcolumn : m.column? e.name with
    | none =>
      have hmem : e.name ∈ (diagnose d m t).obsoleteNames :=
        mem_obsoleteNames.mpr ⟨e, he, hcolumn, rfl⟩
      simpa using ⟨e.name, hmem, Text.sameName_refl e.name⟩
    | some c =>
      simpa using fun o ho => sameName_obsolete (by simp [hcolumn]) ho
  have hname : ∀ c : Column, ((d.withFill c).image d).name = c.name := name_withFill
  simp only [LiveTable.column?, applied, List.find?_map, Function.comp_def, name_foldl_altered,
    List.find?_append, hkept, hname]

/-- A column of the model is in the table that was altered, as the model says. -/
theorem columns_applied (hm : m.Valid)
    (h : ∀ change ∈ (diagnose d m t).altered, changesKeyOrUniqueness change = false) :
    ∀ c ∈ m.columns, ∃ e, ((diagnose d m t).applied d t).column? c.name = some e ∧
      c.differs d e = false := by
  intro c hc
  have hfound : m.column? c.name = some c := hm.column?_eq_some hc (Text.sameName_refl c.name)
  -- only the column itself alters what has its name
  have honly : ∀ e : LiveColumn, Text.sameName c.name e.name = true →
      ∀ a ∈ (diagnose d m t).altered.map (·.1), Text.sameName a.name e.name = true → a = c := by
    intro e hce a ha hae
    obtain ⟨⟨b, f⟩, hb, rfl⟩ := List.mem_map.mp ha
    rw [Text.sameName_comm] at hce
    exact hm.eq_of_sameName (mem_altered.mp hb).1 hc (Text.sameName_trans hae hce)
  rw [column?_applied, hfound, Option.isSome_some, if_pos rfl]
  cases hlive : t.column? c.name with
  | none =>
    have hmissing : (diagnose d m t).missing.find? (fun b => Text.sameName b.name c.name) =
        some c :=
      Text.find?_of_subset hm.distinct (fun b hb => (mem_missing.mp hb).1)
        (mem_missing.mpr ⟨hc, hlive⟩) (Text.sameName_refl c.name)
    have hname : Text.sameName c.name ((d.withFill c).image d).name = true := by
      simp [Column.image, name_withFill]
    refine ⟨(d.withFill c).image d, ?_, differs_image_withFill c⟩
    rw [hmissing, Option.map_some, Option.none_or, Option.map_some, foldl_altered (honly _ hname)]
    -- a column that the table lacks is not among those that it has in different form
    have hnone : ((diagnose d m t).altered.map (·.1)).any
        (fun a => Text.sameName a.name ((d.withFill c).image d).name) = false := by
      rw [Bool.eq_false_iff, Ne, List.any_eq_true]
      rintro ⟨a, ha, hae⟩
      obtain rfl := honly _ hname a ha hae
      obtain ⟨⟨b, f⟩, hb, rfl⟩ := List.mem_map.mp ha
      simp [(mem_altered.mp hb).2.1] at hlive
    rw [hnone]
    rfl
  | some e =>
    have hname : Text.sameName c.name e.name = true := by
      rw [Text.sameName_comm]
      exact (LiveTable.of_column? hlive).2
    rw [Option.some_or, Option.map_some, foldl_altered (honly e hname)]
    cases hdiffers : c.differs d e with
    | false =>
      have hnone : ((diagnose d m t).altered.map (·.1)).any
          (fun a => Text.sameName a.name e.name) = false := by
        rw [Bool.eq_false_iff, Ne, List.any_eq_true]
        rintro ⟨a, ha, hae⟩
        obtain rfl := honly e hname a ha hae
        obtain ⟨⟨b, f⟩, hb, rfl⟩ := List.mem_map.mp ha
        obtain ⟨-, hf, hbf⟩ := mem_altered.mp hb
        obtain rfl : f = e := Option.some.inj (hf.symm.trans hlive)
        simp [hdiffers] at hbf
      exact ⟨e, by rw [hnone]; rfl, hdiffers⟩
    | true =>
      have hmem := mem_altered.mpr ⟨hc, hlive, hdiffers⟩
      have hany : ((diagnose d m t).altered.map (·.1)).any
          (fun a => Text.sameName a.name e.name) = true := by
        rw [List.any_eq_true]
        exact ⟨c, List.mem_map_of_mem hmem, hname⟩
      exact ⟨e.altered d c, by rw [hany]; rfl, differs_altered hname (h _ hmem)⟩

/-- The table that was altered has no other columns. -/
theorem no_obsolete_applied (n : String)
    (h : (((diagnose d m t).applied d t).column? n).isSome = true) :
    (m.column? n).isSome = true := by
  rw [column?_applied, Option.isSome_map] at h
  cases hn : m.column? n with
  | some c => rfl
  | none =>
    rw [hn] at h
    simp only [Option.isSome_none, Bool.false_eq_true, if_false, Option.none_or,
      Option.isSome_map, List.find?_isSome] at h
    obtain ⟨c, hc, hcn⟩ := h
    exact absurd hcn (by simpa using List.find?_eq_none.mp hn c (mem_missing.mp hc).1)

theorem mem_droppedNames {n : String} :
    n ∈ (diagnose d m t).droppedNames ↔
      (∃ j ∈ t.indexes, (∀ i ∈ m.indexes, Text.sameName i.name j.name = false) ∧ j.name = n) ∨
        ∃ i ∈ m.indexes, isAltered t i = true ∧ i.name = n := by
  simp [droppedNames, diagnose, and_assoc]

/-- The indexes that are created are those that the table has not, or has with other columns. -/
theorem mem_createdIndexes {i : Index} :
    i ∈ (diagnose d m t).alteredIndexes ++ (diagnose d m t).missingIndexes ↔
      i ∈ m.indexes ∧ (isAltered t i = true ∨ t.index? i.name = none) := by
  simp [diagnose, and_or_left]

/-- A created index is the only one of its name among the created ones. -/
theorem find?_createdIndexes
    (hindexes : m.indexes.Pairwise fun i j => Text.sameName i.name j.name = false) {i : Index}
    (hi : i ∈ (diagnose d m t).alteredIndexes ++ (diagnose d m t).missingIndexes) :
    ((diagnose d m t).alteredIndexes ++ (diagnose d m t).missingIndexes).find?
      (fun j => Text.sameName j.name i.name) = some i :=
  Text.find?_of_subset hindexes (fun _ hj => (mem_createdIndexes.mp hj).1) hi
    (Text.sameName_refl i.name)

/-- A name of a column that an index of the model is over is a name of a column of the model. -/
theorem isSome_column?_of_mem_columnNames {n : String} (hn : n ∈ m.columnNames) :
    (m.column? n).isSome = true := by
  obtain ⟨c, hc, rfl⟩ := List.mem_map.mp hn
  exact Model.isSome_column?_iff.mpr ⟨c, hc, Text.sameName_refl c.name⟩

/-- Every index of the model is in the table that was altered. -/
theorem indexes_applied (hm : m.Valid)
    (hindexes : m.indexes.Pairwise fun i j => Text.sameName i.name j.name = false) :
    ∀ i ∈ m.indexes, ∃ j, ((diagnose d m t).applied d t).index? i.name = some j ∧
      Text.sameNames i.columns j.columns = true := by
  intro i hi
  simp only [LiveTable.index?, applied, List.find?_append]
  -- an index that is created is not among those that were left
  have hcreated : i ∈ (diagnose d m t).alteredIndexes ++ (diagnose d m t).missingIndexes →
      ∀ left : List Index, (∀ j ∈ left, Text.sameName j.name i.name = false) →
        ((left.find? fun j => Text.sameName j.name i.name).or
          (((diagnose d m t).alteredIndexes.find? fun j => Text.sameName j.name i.name).or
            ((diagnose d m t).missingIndexes.find? fun j => Text.sameName j.name i.name))) =
          some i := by
    intro hmem left hleft
    rw [List.find?_eq_none.mpr (by simpa using hleft), Option.none_or, ← List.find?_append]
    exact find?_createdIndexes hindexes hmem
  cases hlive : t.index? i.name with
  | none =>
    refine ⟨i, hcreated (mem_createdIndexes.mpr ⟨hi, .inr hlive⟩) _ fun j hj => ?_,
      sameNames_refl i.columns⟩
    simpa using List.find?_eq_none.mp hlive j (List.mem_filter.mp (List.mem_filter.mp hj).1).1
  | some j =>
    have hname : Text.sameName j.name i.name = true := (LiveTable.of_index? hlive).2
    cases hsame : Text.sameNames i.columns j.columns with
    | false =>
      have haltered : isAltered t i = true := by simp [isAltered, hlive, hsame]
      refine ⟨i, hcreated (mem_createdIndexes.mpr ⟨hi, .inl haltered⟩) _ fun k hk => ?_,
        sameNames_refl i.columns⟩
      have hkept : ∀ n ∈ (diagnose d m t).droppedNames, Text.sameName k.name n = false := by
        simpa using (List.mem_filter.mp hk).2
      exact hkept i.name (mem_droppedNames.mpr (.inr ⟨i, hi, haltered, rfl⟩))
    | true =>
      refine ⟨j, ?_, hsame⟩
      -- what the model wants is not over a dropped column, and no dropped index has its name
      have hcovers : (diagnose d m t).obsoleteNames.any (LiveTable.covers j.columns) = false := by
        refine covers_obsolete fun x hx o ho => ?_
        have hkeys : i.columns.map Text.foldCase = j.columns.map Text.foldCase := by
          simpa [Text.sameNames] using hsame
        obtain ⟨y, hy, hyx⟩ : ∃ y ∈ i.columns, Text.foldCase y = Text.foldCase x := by
          rw [← List.mem_map, hkeys]
          exact List.mem_map_of_mem hx
        have hyo := sameName_obsolete
          (isSome_column?_of_mem_columnNames (hm.index_columns i hi y hy)) ho
        rw [Bool.eq_false_iff] at hyo ⊢
        exact fun hxo => hyo (Text.sameName_trans (Text.sameName_iff.mpr hyx) hxo)
      have hdropped : (diagnose d m t).droppedNames.any (Text.sameName j.name) = false := by
        rw [Bool.eq_false_iff, Ne, List.any_eq_true]
        rintro ⟨n, hn, hjn⟩
        rw [Text.sameName_comm] at hname
        rcases mem_droppedNames.mp hn with ⟨k, -, hk, rfl⟩ | ⟨k, hk, haltered, rfl⟩
        · have hik := Text.sameName_trans hname hjn
          rw [hk i hi] at hik
          exact absurd hik (by decide)
        · obtain rfl :=
            Text.eq_of_sameName_of_pairwise hindexes hi hk (Text.sameName_trans hname hjn)
          simp [isAltered, hlive, hsame] at haltered
      have huncovered := Text.find?_filter_of_kept hlive
        (q := fun i : Index => !(diagnose d m t).obsoleteNames.any (LiveTable.covers i.columns))
        (by rw [hcovers]; rfl)
      have hkept := Text.find?_filter_of_kept huncovered
        (q := fun i : Index => !(diagnose d m t).droppedNames.any (Text.sameName i.name))
        (by rw [hdropped]; rfl)
      rw [hkept, Option.some_or]

/-- The table that was altered has no other indexes. -/
theorem no_obsolete_index_applied : ∀ j ∈ ((diagnose d m t).applied d t).indexes,
    ∃ i ∈ m.indexes, Text.sameName i.name j.name = true := by
  intro j hj
  rcases List.mem_append.mp hj with hkept | hcreated
  · by_contra hnone
    have hobsolete : ∀ i ∈ m.indexes, Text.sameName i.name j.name = false := by
      intro i hi
      rw [Bool.eq_false_iff]
      exact fun hij => hnone ⟨i, hi, hij⟩
    have hmem := (List.mem_filter.mp (List.mem_filter.mp hkept).1).1
    have hdropped : ∀ n ∈ (diagnose d m t).droppedNames, Text.sameName j.name n = false := by
      simpa using (List.mem_filter.mp hkept).2
    have hfalse := hdropped j.name (mem_droppedNames.mpr (.inl ⟨j, hmem, hobsolete, rfl⟩))
    rw [Text.sameName_refl] at hfalse
    exact absurd hfalse (by decide)
  · exact ⟨j, (mem_createdIndexes.mp hcreated).1, Text.sameName_refl j.name⟩

/-- Every constraint of the model is on the table that was altered. A constraint of the table that
the model wants is over its columns, so no dropped column takes it along. -/
theorem uniques_applied (hm : m.Valid) (hmodel : ∀ n ∈ m.columnNames, Text.IsAscii n)
    (hlive : ∀ e ∈ t.columns, Text.IsAscii e.name) :
    ∀ u ∈ m.uniques, u.isAmong ((diagnose d m t).applied d t).uniques = true := by
  intro u hu
  cases hamong : u.isAmong t.uniques with
  | false =>
    have hmissing : u ∈ (diagnose d m t).missingUniques := by
      simp [diagnose, hu, hamong]
    exact isAmong_self (List.mem_append_right _ hmissing)
  | true =>
    rw [Unique.isAmong, List.any_eq_true] at hamong ⊢
    obtain ⟨v, hv, hset⟩ := hamong
    refine ⟨v, List.mem_append_left _ (List.mem_filter.mpr ⟨hv, ?_⟩), hset⟩
    rw [covers_obsolete fun x hx o ho => ?_]
    · rfl
    · obtain ⟨e, he, -, heo⟩ := mem_obsoleteNames.mp ho
      obtain ⟨y, hy, hyx⟩ : ∃ y ∈ u.columns, Text.lowercase y = Text.lowercase x := by
        rw [← Unique.mem_columnSet, ← eq_of_beq hset]
        exact Unique.mem_columnSet.mpr ⟨x, hx, rfl⟩
      have hname := hm.unique_columns u hu y hy
      have hyo := sameName_obsolete (isSome_column?_of_mem_columnNames hname) ho
      rw [Bool.eq_false_iff] at hyo ⊢
      intro hxo
      have hx' : Text.IsAscii x := by
        rw [Text.sameName_comm] at hxo
        exact (heo ▸ hlive e he).of_sameName hxo
      exact hyo (Text.sameName_trans (Text.sameName_of_lowercase_eq (hmodel y hname) hx' hyx) hxo)

/-- A table that is altered in place agrees with its model. -/
theorem agrees_applied (hd : d ∈ Dialect.shipped) (hm : m.Valid)
    (hmodel : ∀ n ∈ m.columnNames, Text.IsAscii n)
    (hindexes : m.indexes.Pairwise fun i j => Text.sameName i.name j.name = false)
    (hlive : ∀ e ∈ t.columns, Text.IsAscii e.name)
    (h : (diagnose d m t).requiresRebuild d = false) :
    Agrees d m ((diagnose d m t).applied d t) where
  no_obsolete := no_obsolete_applied
  columns := columns_applied hm fun change hchange =>
    (of_requiresRebuild_eq_false hd h change hchange).1
  indexes := indexes_applied hm hindexes
  no_obsolete_index := no_obsolete_index_applied
  uniques := uniques_applied hm hmodel hlive

end

end Difference

namespace Plan

/-- A table that exists is left alone, rebuilt or altered in place. -/
theorem planTable_kinds (d : Dialect) (m : Model) (t : LiveTable) :
    planTable d m (some t) = .noOp ∨
      planTable d m (some t) = .rebuild ⟨m, .diagnose d m t⟩ ∨
      planTable d m (some t) = .inPlace (.diagnose d m t)
          (Difference.diagnose d m t).inPlaceChanges ∧
        (Difference.diagnose d m t).requiresRebuild d = false := by
  simp only [planTable]
  split
  · exact .inl rfl
  split
  · exact .inr (.inl rfl)
  next hrebuild =>
    split
    · exact .inl rfl
    · exact .inr (.inr ⟨rfl, by simpa using hrebuild⟩)

/-- There is nothing to do for a table, or it agrees with its model once its plan is carried out. -/
theorem agrees_outcome {d : Dialect} (hd : d ∈ Dialect.shipped) {m : Model} (hm : m.Valid)
    (hmodel : ∀ n ∈ m.columnNames, Text.IsAscii n)
    (hindexes : m.indexes.Pairwise fun i j => Text.sameName i.name j.name = false)
    {live : Option LiveTable} (hlive : ∀ t ∈ live, ∀ e ∈ t.columns, Text.IsAscii e.name) :
    planTable d m live = .noOp ∨
      ∃ after, (planTable d m live).outcome d m.name live = some after ∧
        Difference.Agrees d m after := by
  have himage := Difference.agrees_image (d := d) hm hindexes
  cases live with
  | none => exact .inr ⟨_, foldl_creation m none, himage⟩
  | some t =>
    rcases planTable_kinds d m t with hplan | hplan | ⟨hplan, hrebuild⟩ <;> rw [hplan]
    · exact .inl rfl
    · exact .inr ⟨_, outcome_rebuild ⟨m, .diagnose d m t⟩ (some t), himage⟩
    · have halter := Difference.of_requiresRebuild_eq_false hd hrebuild
      exact .inr ⟨_, Difference.foldl_inPlaceChanges (fun c hc => (halter c hc).2 _) t,
        Difference.agrees_applied hd hm hmodel hindexes (hlive t rfl) hrebuild⟩

end Plan

end EntitySql
