import EntitySql.Proofs.Migration.Agreement

/-!
# Altering a table in place, step by step

A table is altered in place one statement at a time, and the database looks at each of them as the
table stands by then. It drops only a column that is there, is no key and not unique, and is under
no index and no constraint; it adds only a column that is not there, is no key, not unique and
without an expression for a default; it drops an index that is there, and creates one whose name is
free over columns that are there. A plan of alterations in SQLite asks for nothing else: what the
database would refuse has forced a rebuild before.

The changes of a plan come kind by kind, and so do the proofs. For each kind there is an invariant
of the table with the items still to come, `Difference.Dropping` for the columns that are dropped
first and so on; `runs_map` makes a run of it.

That a legal change has its effect when its statement has run is `Change.IsLegal.reports`.

What the database also refuses is to drop the last column of a table. Columns are dropped before
others are added, so a table that shares no column with its model has none left in between.

## Main definitions

* `Change.IsLegal`: what is asked of a change as the table stands
* `Change.Runs`: changes that follow each other, each of them legal

## Main results

* `Plan.inPlace_runs`: the changes of a plan run, and the table has the columns and the indexes of
  its model behind them
* `Plan.keeps_column_iff`: the table has a column throughout exactly if it shares one with its model
-/

namespace EntitySql

/-- A column of a table that the model does not have, and that nothing of the table rests on. -/
structure LiveColumn.IsDroppable (m : Model) (t : LiveTable) (e : LiveColumn) : Prop where
  absent : ∀ c ∈ m.columns, Text.sameName c.name e.name = false
  key : e.primaryKey = false
  unique : e.unique = false
  indexes : ∀ i ∈ t.indexes, ∀ x ∈ i.columns, Text.sameName x e.name = false
  uniques : ∀ u ∈ t.uniques, ∀ x ∈ u.columns, Text.sameName x e.name = false

/-- A column of the model that a table with rows can be given. -/
structure Column.IsAddable (m : Model) (c : Column) : Prop where
  declared : c ∈ m.columns
  key : c.primaryKey = false
  unique : c.unique = false
  default : ∀ sql, c.default ≠ some (.expression sql)

namespace Change

/-- What is asked of a change, where `live` is the table before all changes and `now` the table as
it stands. -/
inductive IsLegal (m : Model) (live now : LiveTable) : Change → Prop
  | dropColumn {e : LiveColumn} (present : e ∈ now.columns) (before : e.IsDroppable m live)
      (here : e.IsDroppable m now) : IsLegal m live now (.dropColumn m.name e.name)
  | addColumn {c : Column} (addable : c.IsAddable m)
      (absent : ∀ e ∈ now.columns, Text.sameName e.name c.name = false) :
      IsLegal m live now (.addColumn m.name c)
  | dropIndex {name : String} (present : ∃ i ∈ now.indexes, Text.sameName i.name name = true) :
      IsLegal m live now (.dropIndex m.name name)
  | createIndex {i : Index} (declared : i ∈ m.indexes)
      (absent : ∀ j ∈ now.indexes, Text.sameName j.name i.name = false)
      (columns : ∀ x ∈ i.columns, ∃ e ∈ now.columns, Text.sameName e.name x = true) :
      IsLegal m live now (.createIndex m.name i)

/-- Changes of the table of a model that follow each other, each legal as the table stands. -/
inductive Runs (m : Model) (live : LiveTable) : LiveTable → List Change → LiveTable → Prop
  | nil {t : LiveTable} : Runs m live t [] t
  | cons {t t' t'' : LiveTable} {c : Change} {cs : List Change} (legal : c.IsLegal m live t)
      (step : c.effect .sqlite m.name (some t) = some t') (rest : Runs m live t' cs t'') :
      Runs m live t (c :: cs) t''

variable {m : Model} {live t t' t'' : LiveTable}

theorem Runs.append {cs ds : List Change} (h : Runs m live t cs t') (h' : Runs m live t' ds t'') :
    Runs m live t (cs ++ ds) t'' := by
  induction h with
  | nil => exact h'
  | cons legal step _ ih => exact .cons legal step (ih h')

/-- A run leads where its changes do. -/
theorem Runs.foldl_eq {cs : List Change} (h : Runs m live t cs t') :
    cs.foldl (effect .sqlite m.name) (some t) = some t' := by
  induction h with
  | nil => rfl
  | cons _ step _ ih => rw [List.foldl_cons, step, ih]

/-- Changes of one kind run, if what holds of the table and the items still to come makes the next
change legal, and holds again behind it. -/
theorem runs_map {α : Type} {f : α → Change} {g : LiveTable → α → LiveTable}
    {P : List α → LiveTable → Prop}
    (heffect : ∀ a t, (f a).effect .sqlite m.name (some t) = some (g t a))
    (hstep : ∀ a rest t, P (a :: rest) t → (f a).IsLegal m live t ∧ P rest (g t a))
    {xs : List α} (h : P xs t) : ∃ t', Runs m live t (xs.map f) t' ∧ P [] t' := by
  induction xs generalizing t with
  | nil => exact ⟨t, .nil, h⟩
  | cons a xs ih =>
    obtain ⟨hlegal, hrest⟩ := hstep a xs t h
    obtain ⟨t', hruns, hend⟩ := ih hrest
    exact ⟨t', .cons hlegal (heffect a t) hruns, hend⟩

end Change

namespace Difference

variable {m : Model} {live t : LiveTable}

/-! ### What is left to alter -/

/-- What is not rebuilt has no column that both sides have in different form, lacks no constraint,
and neither lacks nor has too much a column that takes part in a key or the like. -/
structure IsPlain (x : Difference) : Prop where
  altered : x.altered = []
  uniques : x.missingUniques = []
  missing : ∀ c ∈ x.missing, c.primaryKey = false ∧ c.unique = false ∧
    isExpression c.default = false
  obsolete : ∀ e ∈ x.obsolete, e.primaryKey = false ∧ e.unique = false ∧
    x.live.isIndexed e.name = false

theorem isPlain_of_requiresRebuild {x : Difference} (h : x.requiresRebuild .sqlite = false) :
    x.IsPlain := by
  simp only [requiresRebuild, Dialect.sqlite, Bool.or_eq_false_iff, Bool.not_eq_false',
    List.isEmpty_iff, List.any_eq_false, Bool.not_eq_true, and_assoc] at h
  obtain ⟨haltered, huniques, hmissing, hobsolete⟩ := h
  exact ⟨haltered, huniques, hmissing, hobsolete⟩

theorem isIndexed_eq_false {name : String} (h : live.isIndexed name = false) :
    (∀ i ∈ live.indexes, ∀ x ∈ i.columns, Text.sameName x name = false) ∧
      ∀ u ∈ live.uniques, ∀ x ∈ u.columns, Text.sameName x name = false := by
  simpa [LiveTable.isIndexed] using h

theorem isDroppable_of_mem (h : (diagnose .sqlite m live).IsPlain) {e : LiveColumn}
    (he : e ∈ (diagnose .sqlite m live).obsolete) : e.IsDroppable m live := by
  obtain ⟨hkey, hunique, hfree⟩ := h.obsolete e he
  obtain ⟨hindexes, huniques⟩ := isIndexed_eq_false hfree
  refine ⟨fun c hc => ?_, hkey, hunique, hindexes, huniques⟩
  have hnone := List.find?_eq_none.mp (mem_obsolete.mp he).2 c hc
  exact Bool.eq_false_iff.mpr hnone

theorem isAddable_of_mem (h : (diagnose .sqlite m live).IsPlain) {c : Column}
    (hc : c ∈ (diagnose .sqlite m live).missing) : c.IsAddable m := by
  obtain ⟨hkey, hunique, hdefault⟩ := h.missing c hc
  refine ⟨(mem_missing.mp hc).1, hkey, hunique, fun sql hsql => ?_⟩
  rw [hsql] at hdefault
  exact absurd hdefault (by simp [isExpression])

theorem column?_eq_none_iff {name : String} :
    live.column? name = none ↔ ∀ e ∈ live.columns, Text.sameName e.name name = false := by
  simp [LiveTable.column?]

theorem index?_eq_none_iff {name : String} :
    live.index? name = none ↔ ∀ i ∈ live.indexes, Text.sameName i.name name = false := by
  simp [LiveTable.index?]

/-! ### The differing columns and indexes in order -/

theorem obsolete_eq : (diagnose .sqlite m live).obsolete =
    live.columns.filter fun e => (m.column? e.name).isNone := by
  rw [obsolete, diagnose, List.filterMap_append]
  refine (congrArg₂ (· ++ ·) ?inTable ?inModel).trans (List.append_nil _)
  case inTable =>
    rw [List.filterMap_filterMap, ← List.filterMap_eq_filter]
    refine List.filterMap_congr fun e _ => ?_
    cases hcolumn : m.column? e.name <;> simp [ofLiveColumn, hcolumn, Option.guard]
  case inModel =>
    rw [List.filterMap_eq_nil_iff]
    intro change hchange
    obtain ⟨c, -, hc⟩ := List.mem_filterMap.mp hchange
    rcases ofColumn_eq_some.mp hc with ⟨-, rfl⟩ | ⟨e, -, -, rfl⟩ <;> rfl

theorem missing_eq : (diagnose .sqlite m live).missing =
    m.columns.filter fun c => (live.column? c.name).isNone := by
  rw [missing, diagnose, List.filterMap_append]
  refine (congrArg₂ (· ++ ·) ?inTable ?inModel).trans (List.nil_append _)
  case inTable =>
    rw [List.filterMap_eq_nil_iff]
    intro change hchange
    obtain ⟨e, -, he⟩ := List.mem_filterMap.mp hchange
    obtain ⟨-, rfl⟩ := ofLiveColumn_eq_some.mp he
    rfl
  case inModel =>
    rw [List.filterMap_filterMap, ← List.filterMap_eq_filter]
    refine List.filterMap_congr fun c _ => ?_
    cases hcolumn : live.column? c.name with
    | none => simp [ofColumn, hcolumn, Option.guard]
    | some e =>
      cases hdiffers : c.differs .sqlite e <;> simp [ofColumn, hcolumn, hdiffers, Option.guard]

/-- Indexes that are dropped have different names. -/
theorem pairwise_dropped
    (hm : m.indexes.Pairwise fun i j => Text.sameName i.name j.name = false)
    (hlive : live.indexes.Pairwise fun i j => Text.sameName i.name j.name = false) :
    ((diagnose .sqlite m live).obsoleteIndexes ++
      (diagnose .sqlite m live).alteredIndexes).Pairwise
        fun i j => Text.sameName i.name j.name = false := by
  refine List.pairwise_append.mpr ⟨hlive.filter _, hm.filter _, ?_⟩
  intro i hi j hj
  have hnone := (List.mem_filter.mp hi).2
  have hmem := (List.mem_filter.mp hj).1
  rw [Bool.not_eq_true', List.any_eq_false] at hnone
  rw [Text.sameName_comm]
  exact Bool.eq_false_iff.mpr (hnone j hmem)

/-- So have those that are created. -/
theorem pairwise_created
    (hm : m.indexes.Pairwise fun i j => Text.sameName i.name j.name = false) :
    ((diagnose .sqlite m live).alteredIndexes ++
      (diagnose .sqlite m live).missingIndexes).Pairwise
        fun i j => Text.sameName i.name j.name = false := by
  refine List.pairwise_append.mpr ⟨hm.filter _, hm.filter _, ?_⟩
  intro i hi j hj
  obtain ⟨hmem, haltered⟩ := List.mem_filter.mp hi
  obtain ⟨hmem', hmissing⟩ := List.mem_filter.mp hj
  rw [Bool.eq_false_iff]
  intro hsame
  -- an index that the table has with other columns is not one that it lacks
  obtain rfl := Text.eq_of_sameName_of_pairwise hm hmem hmem' hsame
  rw [Option.isNone_iff_eq_none] at hmissing
  simp [isAltered, hmissing] at haltered

/-! ### The kinds of changes one after the other -/

/-- What holds of the table while columns are dropped. -/
structure Dropping (m : Model) (live : LiveTable) (rest : List LiveColumn) (t : LiveTable) :
    Prop where
  present : ∀ e ∈ rest, e ∈ t.columns ∧ e.IsDroppable m live
  distinct : rest.Pairwise fun a b => Text.sameName a.name b.name = false
  left : t.columns ⊆ live.columns
  kept : ∀ e ∈ live.columns, (m.column? e.name).isSome = true → e ∈ t.columns
  indexes : t.indexes = live.indexes
  uniques : t.uniques = live.uniques

/-- What holds of it while columns are added. -/
structure Adding (m : Model) (live : LiveTable) (rest : List Column) (t : LiveTable) : Prop where
  absent : ∀ c ∈ rest, c.IsAddable m ∧ ∀ e ∈ t.columns, Text.sameName e.name c.name = false
  distinct : rest.Pairwise fun a b => Text.sameName a.name b.name = false
  covered : ∀ c ∈ m.columns, c ∈ rest ∨ ∃ e ∈ t.columns, Text.sameName e.name c.name = true
  indexes : t.indexes = live.indexes

/-- What holds of it while indexes are dropped. -/
structure DroppingIndexes (m : Model) (live : LiveTable) (rest : List Index) (t : LiveTable) :
    Prop where
  present : ∀ i ∈ rest, ∃ j ∈ t.indexes, Text.sameName j.name i.name = true
  distinct : rest.Pairwise fun i j => Text.sameName i.name j.name = false
  columns : ∀ c ∈ m.columns, ∃ e ∈ t.columns, Text.sameName e.name c.name = true
  left : t.indexes ⊆ live.indexes
  gone : ∀ i ∈ (diagnose .sqlite m live).obsoleteIndexes ++
    (diagnose .sqlite m live).alteredIndexes,
      i ∈ rest ∨ ∀ j ∈ t.indexes, Text.sameName j.name i.name = false

/-- What holds of it while indexes are created. -/
structure Creating (m : Model) (rest : List Index) (t : LiveTable) : Prop where
  absent : ∀ i ∈ rest, i ∈ m.indexes ∧ ∀ j ∈ t.indexes, Text.sameName j.name i.name = false
  distinct : rest.Pairwise fun i j => Text.sameName i.name j.name = false
  columns : ∀ c ∈ m.columns, ∃ e ∈ t.columns, Text.sameName e.name c.name = true

theorem Dropping.step {e : LiveColumn} {rest : List LiveColumn}
    (h : Dropping m live (e :: rest) t) :
    (Change.dropColumn m.name e.name).IsLegal m live t ∧
      Dropping m live rest (t.dropColumn e.name) := by
  obtain ⟨hpresent, hdroppable⟩ := h.present e List.mem_cons_self
  obtain ⟨hfirst, hrest⟩ := List.pairwise_cons.mp h.distinct
  have hhere : e.IsDroppable m t :=
    ⟨hdroppable.absent, hdroppable.key, hdroppable.unique, h.indexes ▸ hdroppable.indexes,
      h.uniques ▸ hdroppable.uniques⟩
  have hindexes : (t.dropColumn e.name).indexes = t.indexes := by
    refine List.filter_eq_self.mpr fun i hi => ?_
    simpa [LiveTable.covers] using hhere.indexes i hi
  have huniques : (t.dropColumn e.name).uniques = t.uniques := by
    refine List.filter_eq_self.mpr fun u hu => ?_
    simpa [LiveTable.covers] using hhere.uniques u hu
  have hkept : ∀ a ∈ t.columns, Text.sameName a.name e.name = false →
      a ∈ (t.dropColumn e.name).columns := by
    intro a ha hae
    exact List.mem_filter.mpr ⟨ha, by simp [hae]⟩
  refine ⟨.dropColumn hpresent hdroppable hhere, ?_, hrest, ?_, ?_, hindexes.trans h.indexes,
    huniques.trans h.uniques⟩
  · intro a ha
    obtain ⟨hmem, hdrop⟩ := h.present a (List.mem_cons_of_mem e ha)
    refine ⟨hkept a hmem ?_, hdrop⟩
    rw [Text.sameName_comm]
    exact hfirst a ha
  · exact fun a ha => h.left (List.mem_filter.mp ha).1
  · intro a ha hmodel
    refine hkept a (h.kept a ha hmodel) ?_
    rw [Bool.eq_false_iff]
    intro hae
    obtain ⟨c, hc, hca⟩ := Model.isSome_column?_iff.mp hmodel
    have hce := hdroppable.absent c hc
    rw [Text.sameName_trans hca hae] at hce
    exact absurd hce (by decide)

theorem Adding.step {c : Column} {rest : List Column} (h : Adding m live (c :: rest) t) :
    (Change.addColumn m.name c).IsLegal m live t ∧
      Adding m live rest (t.addColumn ((Dialect.sqlite.withFill c).image .sqlite)) := by
  obtain ⟨haddable, habsent⟩ := h.absent c List.mem_cons_self
  obtain ⟨hfirst, hrest⟩ := List.pairwise_cons.mp h.distinct
  have hname : ((Dialect.sqlite.withFill c).image .sqlite).name = c.name := name_withFill c
  refine ⟨.addColumn haddable habsent, fun b hb => ?_, hrest, fun b hb => ?_, h.indexes⟩
  · obtain ⟨hadd, habs⟩ := h.absent b (List.mem_cons_of_mem c hb)
    refine ⟨hadd, fun e he => ?_⟩
    rcases List.mem_append.mp he with he | he
    · exact habs e he
    · rw [List.mem_singleton.mp he, hname]
      exact hfirst b hb
  · rcases h.covered b hb with hmem | ⟨e, he, hsame⟩
    · rcases List.mem_cons.mp hmem with rfl | hmem
      · exact .inr ⟨_, List.mem_append_right _ (List.mem_singleton.mpr rfl),
          hname ▸ Text.sameName_refl _⟩
      · exact .inl hmem
    · exact .inr ⟨e, List.mem_append_left _ he, hsame⟩

theorem DroppingIndexes.step {i : Index} {rest : List Index}
    (h : DroppingIndexes m live (i :: rest) t) :
    (Change.dropIndex m.name i.name).IsLegal m live t ∧
      DroppingIndexes m live rest (t.dropIndex i.name) := by
  obtain ⟨hfirst, hrest⟩ := List.pairwise_cons.mp h.distinct
  refine ⟨.dropIndex (h.present i List.mem_cons_self), fun k hk => ?_, hrest, h.columns,
    fun j hj => h.left (List.mem_filter.mp hj).1, fun k hk => ?_⟩
  · obtain ⟨j, hj, hjk⟩ := h.present k (List.mem_cons_of_mem i hk)
    refine ⟨j, List.mem_filter.mpr ⟨hj, ?_⟩, hjk⟩
    rw [Bool.not_eq_true', Bool.eq_false_iff]
    intro hji
    rw [Text.sameName_comm] at hji
    have hik := hfirst k hk
    rw [Text.sameName_trans hji hjk] at hik
    exact absurd hik (by decide)
  · rcases h.gone k hk with hmem | hgone
    · rcases List.mem_cons.mp hmem with rfl | hmem
      · exact .inr fun j hj => by simpa using (List.mem_filter.mp hj).2
      · exact .inl hmem
    · exact .inr fun j hj => hgone j (List.mem_filter.mp hj).1

theorem Creating.step (hm : m.Valid) {i : Index} {rest : List Index}
    (h : Creating m (i :: rest) t) :
    (Change.createIndex m.name i).IsLegal m live t ∧ Creating m rest (t.addIndex i) := by
  obtain ⟨hdeclared, habsent⟩ := h.absent i List.mem_cons_self
  obtain ⟨hfirst, hrest⟩ := List.pairwise_cons.mp h.distinct
  refine ⟨.createIndex hdeclared habsent fun x hx => ?_, fun k hk => ?_, hrest, h.columns⟩
  · obtain ⟨c, hc, rfl⟩ := List.mem_map.mp (hm.index_columns i hdeclared x hx)
    exact h.columns c hc
  · obtain ⟨hmem, habs⟩ := h.absent k (List.mem_cons_of_mem i hk)
    refine ⟨hmem, fun j hj => ?_⟩
    rcases List.mem_append.mp hj with hj | hj
    · exact habs j hj
    · rw [List.mem_singleton.mp hj]
      exact hfirst k hk

/-! ### From one kind to the next -/

section

variable (hm : m.Valid)
  (hmi : m.indexes.Pairwise fun i j => Text.sameName i.name j.name = false)
  (ht : live.columns.Pairwise fun a b => Text.sameName a.name b.name = false)
  (hti : live.indexes.Pairwise fun i j => Text.sameName i.name j.name = false)
  (h : (diagnose .sqlite m live).IsPlain)

include h ht in
theorem dropping_obsolete : Dropping m live (diagnose .sqlite m live).obsolete live := by
  refine ⟨fun e he => ⟨(mem_obsolete.mp he).1, isDroppable_of_mem h he⟩, ?_, fun e he => he,
    fun e he _ => he, rfl, rfl⟩
  rw [obsolete_eq]
  exact ht.filter _

include hm h in
theorem Dropping.adding (hdropped : Dropping m live [] t) :
    Adding m live (diagnose .sqlite m live).missing t := by
  refine ⟨fun c hc => ⟨isAddable_of_mem h hc, fun e he => ?_⟩, ?_, fun c hc => ?_,
    hdropped.indexes⟩
  · exact column?_eq_none_iff.mp (mem_missing.mp hc).2 e (hdropped.left he)
  · rw [missing_eq]
    exact hm.distinct.filter _
  · cases hlive : live.column? c.name with
    | none => exact .inl (mem_missing.mpr ⟨hc, hlive⟩)
    | some e =>
      obtain ⟨hmem, hsame⟩ := LiveTable.of_column? hlive
      have hmodel : m.column? e.name = some c := by
        rw [Text.sameName_comm] at hsame
        exact hm.column?_eq_some hc hsame
      exact .inr ⟨e, hdropped.kept e hmem (by rw [hmodel]; rfl), hsame⟩

include hmi hti in
theorem Adding.droppingIndexes (hadded : Adding m live [] t) :
    DroppingIndexes m live ((diagnose .sqlite m live).obsoleteIndexes ++
      (diagnose .sqlite m live).alteredIndexes) t := by
  refine ⟨fun i hi => ?_, pairwise_dropped hmi hti,
    fun c hc => (hadded.covered c hc).resolve_left List.not_mem_nil,
    fun j hj => hadded.indexes ▸ hj, fun i hi => .inl hi⟩
  rw [hadded.indexes]
  rcases List.mem_append.mp hi with hi | hi
  · exact ⟨i, (List.mem_filter.mp hi).1, Text.sameName_refl i.name⟩
  · have haltered := (List.mem_filter.mp hi).2
    cases hlive : live.index? i.name with
    | none => simp [isAltered, hlive] at haltered
    | some j => exact ⟨j, LiveTable.of_index? hlive⟩

include hmi in
theorem DroppingIndexes.creating (hdropped : DroppingIndexes m live [] t) :
    Creating m ((diagnose .sqlite m live).alteredIndexes ++
      (diagnose .sqlite m live).missingIndexes) t := by
  refine ⟨fun i hi => ⟨(mem_createdIndexes.mp hi).1, fun j hj => ?_⟩, pairwise_created hmi,
    hdropped.columns⟩
  rcases List.mem_append.mp hi with hi | hi
  · exact (hdropped.gone i (List.mem_append_right _ hi)).resolve_left List.not_mem_nil j hj
  · have hnone := (List.mem_filter.mp hi).2
    rw [Option.isNone_iff_eq_none] at hnone
    exact index?_eq_none_iff.mp hnone j (hdropped.left hj)

include hm hmi ht hti h in
/-- **Changes in place are legal one after the other.** -/
theorem runs_inPlaceChanges :
    ∃ t, Change.Runs m live live (diagnose .sqlite m live).inPlaceChanges t := by
  obtain ⟨t₁, hdrops, hdropped⟩ := Change.runs_map (f := fun e => .dropColumn m.name e.name)
    (fun e t => Change.effect_of_subject rfl (some t)) (fun e rest t => Dropping.step)
    (dropping_obsolete ht h)
  obtain ⟨t₂, hadds, hadded⟩ := Change.runs_map (f := fun c => .addColumn m.name c)
    (fun c t => Change.effect_of_subject rfl (some t)) (fun c rest t => Adding.step)
    (hdropped.adding hm h)
  obtain ⟨t₃, hdropsIndexes, hdroppedIndexes⟩ := Change.runs_map
    (f := fun i => .dropIndex m.name i.name) (fun i t => Change.effect_of_subject rfl (some t))
    (fun i rest t => DroppingIndexes.step) (hadded.droppingIndexes hmi hti)
  obtain ⟨t₄, hcreates, -⟩ : ∃ t₄, Change.Runs m live t₃ _ t₄ ∧ Creating m [] t₄ :=
    Change.runs_map (f := fun i => .createIndex m.name i)
      (fun i t => Change.effect_of_subject rfl (some t)) (fun i rest t => Creating.step hm)
      (hdroppedIndexes.creating hmi)
  refine ⟨t₄, ?_⟩
  rw [inPlaceChanges, h.altered, h.uniques, List.map_nil, List.map_nil, List.append_nil,
    List.append_nil]
  exact ((hdrops.append hadds).append hdropsIndexes).append hcreates

end

/-! ### The table behind the changes -/

theorem pairwise_columns_applied (hm : m.Valid)
    (ht : live.columns.Pairwise fun a b => Text.sameName a.name b.name = false) :
    ((diagnose .sqlite m live).applied .sqlite live).columns.Pairwise
      fun a b => Text.sameName a.name b.name = false := by
  have hname : ∀ c : Column, ((Dialect.sqlite.withFill c).image .sqlite).name = c.name :=
    name_withFill
  simp only [applied, List.pairwise_map, name_foldl_altered, List.pairwise_append, hname]
  refine ⟨ht.filter _, ?_, ?_⟩
  · rw [missing_eq]
    exact hm.distinct.filter _
  · intro e he a ha
    obtain ⟨c, hc, rfl⟩ := List.mem_map.mp ha
    rw [hname]
    exact column?_eq_none_iff.mp (mem_missing.mp hc).2 e (List.mem_filter.mp he).1

theorem pairwise_indexes_applied
    (hmi : m.indexes.Pairwise fun i j => Text.sameName i.name j.name = false)
    (hti : live.indexes.Pairwise fun i j => Text.sameName i.name j.name = false) :
    ((diagnose .sqlite m live).applied .sqlite live).indexes.Pairwise
      fun i j => Text.sameName i.name j.name = false := by
  refine List.pairwise_append.mpr ⟨(hti.filter _).filter _, pairwise_created hmi, ?_⟩
  intro j hj i hi
  have hkept : ∀ n ∈ (diagnose .sqlite m live).droppedNames, Text.sameName j.name n = false := by
    simpa using (List.mem_filter.mp hj).2
  rcases List.mem_append.mp hi with hi | hi
  · exact hkept i.name (List.mem_map_of_mem (List.mem_append_right _ hi))
  · have hnone := (List.mem_filter.mp hi).2
    rw [Option.isNone_iff_eq_none] at hnone
    exact index?_eq_none_iff.mp hnone j (List.mem_filter.mp (List.mem_filter.mp hj).1).1

/-- A table that is altered in place has the columns and the indexes of its model. -/
theorem paired_applied (hm : m.Valid)
    (hmi : m.indexes.Pairwise fun i j => Text.sameName i.name j.name = false)
    (ht : live.columns.Pairwise fun a b => Text.sameName a.name b.name = false)
    (hti : live.indexes.Pairwise fun i j => Text.sameName i.name j.name = false)
    (h : (diagnose .sqlite m live).IsPlain) :
    Text.Paired (fun c e => Text.sameName c.name e.name = true) m.columns
        ((diagnose .sqlite m live).applied .sqlite live).columns ∧
      Text.Paired Index.Matches m.indexes
        ((diagnose .sqlite m live).applied .sqlite live).indexes := by
  constructor
  · refine (Text.paired_iff (fun _ _ hab => hab) hm.distinct
      (pairwise_columns_applied hm ht)).mpr ⟨fun c hc => ?_, fun e he => ?_⟩
    · have haltered : ∀ change ∈ (diagnose .sqlite m live).altered,
          changesKeyOrUniqueness change = false := by simp [h.altered]
      obtain ⟨e, he, -⟩ := columns_applied hm haltered c hc
      obtain ⟨hmem, hname⟩ := LiveTable.of_column? he
      rw [Text.sameName_comm] at hname
      exact ⟨e, hmem, hname⟩
    · have hsome := no_obsolete_applied e.name (LiveTable.isSome_column?_of_mem he)
      exact Model.isSome_column?_iff.mp hsome
  · refine (Text.paired_iff (fun _ _ hij => hij.name) hmi
      (pairwise_indexes_applied hmi hti)).mpr ⟨fun i hi => ?_, no_obsolete_index_applied⟩
    obtain ⟨j, hj, hsame⟩ := indexes_applied (d := .sqlite) (t := live) hm hmi i hi
    obtain ⟨hmem, hname⟩ := LiveTable.of_index? hj
    rw [Text.sameName_comm] at hname
    exact ⟨j, hmem, hname, Text.sameNames_iff_forall₂.mp hsame⟩

end Difference

namespace Plan

variable {m : Model} {live : LiveTable} {x : Difference} {changes : List Change}

/-- Where SQLite alters a table in place, nothing of it forces a rebuild. -/
theorem planTable_cases (m : Model) (live : LiveTable) :
    planTable .sqlite m (some live) = .noOp ∨
      planTable .sqlite m (some live) = .rebuild ⟨m, .diagnose .sqlite m live⟩ ∨
      planTable .sqlite m (some live) = .inPlace (.diagnose .sqlite m live)
          (Difference.diagnose .sqlite m live).inPlaceChanges ∧
        (Difference.diagnose .sqlite m live).IsPlain := by
  have hplain := fun h => Difference.isPlain_of_requiresRebuild
    (x := Difference.diagnose .sqlite m live) h
  exact (planTable_kinds .sqlite m live).imp_right (Or.imp_right (And.imp_right hplain))

/-- What is known of a plan that alters a table in place. -/
theorem of_planTable_eq_inPlace (h : planTable .sqlite m (some live) = .inPlace x changes) :
    x = Difference.diagnose .sqlite m live ∧ changes = x.inPlaceChanges ∧ x.IsPlain := by
  rcases planTable_cases m live with hplan | hplan | ⟨hplan, hplain⟩
  · cases hplan.symm.trans h
  · cases hplan.symm.trans h
  · injection hplan.symm.trans h with hx hchanges
    subst hx
    exact ⟨rfl, hchanges.symm, hplain⟩

/-- **A plan of alterations is legal step by step.** Each of its changes is one that the database
can carry out as the table stands by then, and behind them the columns of the table are those of the
model by name, and so are its indexes with their columns. -/
theorem inPlace_runs {mapping : Mapping} (hm : Model.build mapping = .ok m)
    (hmi : m.indexes.Pairwise fun i j => Text.sameName i.name j.name = false)
    (ht : live.columns.Pairwise fun a b => Text.sameName a.name b.name = false)
    (hti : live.indexes.Pairwise fun i j => Text.sameName i.name j.name = false)
    (hplan : planTable .sqlite m (some live) = .inPlace x changes) :
    ∃ t, Change.Runs m live live changes t ∧
      Text.Paired (fun c e => Text.sameName c.name e.name = true) m.columns t.columns ∧
      Text.Paired Index.Matches m.indexes t.indexes := by
  obtain ⟨rfl, rfl, hplain⟩ := of_planTable_eq_inPlace hplan
  have hvalid := Model.valid_of_build hm
  obtain ⟨t, hruns⟩ := Difference.runs_inPlaceChanges hvalid hmi ht hti hplain
  have hresult := Difference.foldl_inPlaceChanges (d := .sqlite)
    (x := Difference.diagnose .sqlite m live) (by simp [hplain.altered]) live
  obtain rfl : t = _ := Option.some.inj (hruns.foldl_eq.symm.trans hresult)
  exact ⟨_, hruns, Difference.paired_applied hvalid hmi ht hti hplain⟩

/-- A column goes, another comes, an index goes and one is made anew over both a column that was
there and one that was not. Names differ in case. -/
theorem inPlace_runs_altered :
    ∃ m live changes, Model.build
        { name := "t"
          fields := [{ name := "id", spelling := "i64", primaryKey := true },
            { name := "c", spelling := "Option<String>", indexes := [.inGroup "i"] },
            { name := "a", spelling := "Option<String>", indexes := [.inGroup "i"] }] } = .ok m ∧
      live = ⟨"t", [⟨"ID", "INTEGER", true, false, false, false, none⟩,
        ⟨"b", "TEXT", false, false, false, false, none⟩,
        ⟨"C", "TEXT", false, false, false, false, none⟩],
        [⟨"I", ["C"]⟩, ⟨"old", ["ID"]⟩], []⟩ ∧
      planTable .sqlite m (some live) = .inPlace (.diagnose .sqlite m live) changes ∧
      changes.length = 5 ∧ ∃ t, Change.Runs m live live changes t ∧
        Text.Paired (fun c e => Text.sameName c.name e.name = true) m.columns t.columns ∧
        Text.Paired Index.Matches m.indexes t.indexes := by
  have hbuild : Model.build
      { name := "t"
        fields := [{ name := "id", spelling := "i64", primaryKey := true },
          { name := "c", spelling := "Option<String>", indexes := [.inGroup "i"] },
          { name := "a", spelling := "Option<String>", indexes := [.inGroup "i"] }] } = .ok _ := rfl
  refine ⟨_, _, _, hbuild, rfl, rfl, rfl, ?_⟩
  exact inPlace_runs hbuild (by decide) (by decide) (by decide) rfl

/-! ### The columns in between -/

/-- A change in place keeps a column that the model has. -/
theorem exists_effect_of_mem (h : (Difference.diagnose .sqlite m live).IsPlain) {n : String}
    (hn : (m.column? n).isSome = true) {c : Change}
    (hc : c ∈ (Difference.diagnose .sqlite m live).inPlaceChanges) {t : LiveTable}
    (ht : ∃ e ∈ t.columns, e.name = n) :
    ∃ t', c.effect .sqlite m.name (some t) = some t' ∧ ∃ e ∈ t'.columns, e.name = n := by
  obtain ⟨e, he, hen⟩ := ht
  simp only [Difference.inPlaceChanges, h.altered, h.uniques, List.map_nil, List.append_nil,
    List.mem_append, List.mem_map, or_assoc] at hc
  rcases hc with ⟨a, ha, rfl⟩ | ⟨b, -, rfl⟩ | ⟨i, -, rfl⟩ | ⟨i, -, rfl⟩
  · refine ⟨t.dropColumn a.name, Change.effect_of_subject rfl (some t), e, ?_, hen⟩
    have hother := Difference.sameName_obsolete hn (List.mem_map_of_mem ha)
    exact List.mem_filter.mpr ⟨he, by rw [hen, hother]; rfl⟩
  · exact ⟨t.addColumn ((Dialect.sqlite.withFill b).image .sqlite),
      Change.effect_of_subject rfl (some t), e, List.mem_append_left _ he, hen⟩
  · exact ⟨t.dropIndex i.name, Change.effect_of_subject rfl (some t), e, he, hen⟩
  · exact ⟨t.addIndex i, Change.effect_of_subject rfl (some t), e, he, hen⟩

/-- So do all of them, one after the other. -/
theorem exists_foldl_effect (h : (Difference.diagnose .sqlite m live).IsPlain) {n : String}
    (hn : (m.column? n).isSome = true) {cs : List Change}
    (hcs : ∀ c ∈ cs, c ∈ (Difference.diagnose .sqlite m live).inPlaceChanges) {t : LiveTable}
    (ht : ∃ e ∈ t.columns, e.name = n) :
    ∃ t', cs.foldl (Change.effect .sqlite m.name) (some t) = some t' ∧
      ∃ e ∈ t'.columns, e.name = n := by
  induction cs generalizing t with
  | nil => exact ⟨t, rfl, ht⟩
  | cons c cs ih =>
    obtain ⟨t₁, hstep, ht₁⟩ := exists_effect_of_mem h hn (hcs c List.mem_cons_self) ht
    obtain ⟨t', hrest, ht'⟩ := ih (fun a ha => hcs a (List.mem_cons_of_mem c ha)) ht₁
    exact ⟨t', by rw [List.foldl_cons, hstep, hrest], ht'⟩

/-- The columns that are left when the obsolete ones are dropped. -/
theorem foldl_drops :
    ((Difference.diagnose .sqlite m live).obsolete.map
        fun e => Change.dropColumn m.name e.name).foldl (Change.effect .sqlite m.name) (some live) =
      some ((Difference.diagnose .sqlite m live).obsoleteNames.foldl
        LiveTable.dropColumn live) := by
  have hdrop : ∀ e ∈ (Difference.diagnose .sqlite m live).obsolete, ∀ t,
      (Change.dropColumn m.name e.name).effect .sqlite m.name (some t) =
        some (t.dropColumn e.name) := fun e _ t => Change.effect_of_subject rfl (some t)
  rw [Change.foldl_effect_map hdrop, Difference.obsoleteNames, List.foldl_map]

/-- **A table that is altered in place has a column throughout exactly if one of its columns is a
column of the model.** Otherwise all are dropped before the first new one is added, and the database
refuses to drop the last. -/
theorem keeps_column_iff (hplan : planTable .sqlite m (some live) = .inPlace x changes) :
    (∀ before, before <+: changes →
        ∃ t, before.foldl (Change.effect .sqlite m.name) (some live) = some t ∧ t.columns ≠ []) ↔
      ∃ e ∈ live.columns, ∃ c ∈ m.columns, Text.sameName c.name e.name = true := by
  obtain ⟨rfl, rfl, hplain⟩ := of_planTable_eq_inPlace hplan
  constructor
  · intro h
    have hprefix : ((Difference.diagnose .sqlite m live).obsolete.map
        fun e => Change.dropColumn m.name e.name) <+:
          (Difference.diagnose .sqlite m live).inPlaceChanges := by
      simp only [Difference.inPlaceChanges, List.append_assoc]
      exact List.prefix_append _ _
    obtain ⟨t, ht, hcolumns⟩ := h _ hprefix
    rw [foldl_drops, LiveTable.foldl_dropColumn] at ht
    obtain rfl := Option.some.inj ht
    obtain ⟨e, he⟩ := List.exists_mem_of_ne_nil _ hcolumns
    obtain ⟨hmem, hkept⟩ := List.mem_filter.mp he
    refine ⟨e, hmem, ?_⟩
    by_contra hnone
    have hobsolete : e ∈ (Difference.diagnose .sqlite m live).obsolete := by
      refine Difference.mem_obsolete.mpr ⟨hmem, List.find?_eq_none.mpr fun c hc hsame => ?_⟩
      exact hnone ⟨c, hc, hsame⟩
    rw [Bool.not_eq_true', List.any_eq_false] at hkept
    exact hkept e.name (List.mem_map_of_mem hobsolete) (Text.sameName_refl e.name)
  · rintro ⟨e, he, c, hc, hsame⟩ before hbefore
    have hn : (m.column? e.name).isSome = true := Model.isSome_column?_iff.mpr ⟨c, hc, hsame⟩
    obtain ⟨t, ht, a, ha, -⟩ := exists_foldl_effect hplain hn
      (fun c hc => hbefore.subset hc) ⟨e, he, rfl⟩
    exact ⟨t, ht, List.ne_nil_of_mem ha⟩

/-- A table whose only column is not the model's goes through a state without columns. -/
theorem keeps_column_iff_other :
    ¬ ∀ before,
      before <+: [Change.dropColumn "t" "a",
        .addColumn "t" { field := "b", name := "b", type := .text }] →
      ∃ t, before.foldl (Change.effect .sqlite "t")
        (some ⟨"t", [⟨"a", "TEXT", false, false, false, false, none⟩], [], []⟩) = some t ∧
        t.columns ≠ [] := by
  have hplan : planTable .sqlite
      ⟨"t", .table, [{ field := "b", name := "b", type := .text }], [], []⟩
      (some ⟨"t", [⟨"a", "TEXT", false, false, false, false, none⟩], [], []⟩) =
        .inPlace _ [.dropColumn "t" "a",
          .addColumn "t" { field := "b", name := "b", type := .text }] := rfl
  rw [keeps_column_iff hplan]
  decide

end Plan

end EntitySql
