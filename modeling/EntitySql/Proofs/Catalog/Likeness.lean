import EntitySql.Proofs.Catalog.Report
import EntitySql.Proofs.Database.Shape
import EntitySql.Proofs.Migration.Respelling

/-!
# What changes do to the report of a table

A plan is made of a report, and what it expects of its changes is said of a report as well: a column
less, an index more (`LiveTable.dropColumn` and the like). Here the table itself is changed, as the
database does it, and its report is compared with the one that was expected.

The two are alike, but not equal. The database lists indexes by their names and spells their columns
as the table does. And two things of a column are read off texts, so that nothing is said about
them: its default, which no difference looks at, and whether it is numbered. The word for that may
stand anywhere in the statement that shows the table, so that it can come and go with a column that
has nothing to do with the key.

What the database looks at is the table and not the report, so it matters how the table is shaped
(`StoredTable.Shaped`). Only one column has the name of the one that is dropped, and no index is
over it; a column that is added is under no index; and what has the name of an index that is
reported is this index and no constraint.

## Main definitions

* `LiveColumn.Alike`, `LiveTable.Alike`: reports that agree in what the table holds

## Main results

* `StoredTable.alike_addColumn`, `StoredTable.alike_dropColumn`, `StoredTable.alike_createIndex`,
  `StoredTable.alike_dropIndex`: the report of a table that is changed
* `StoredTable.Holds.alike`: the report of a table that holds what a model declares
-/

namespace EntitySql

/-! ### Lists that can be paired -/

namespace Text.Paired

variable {α : Type} {R : α → α → Prop} {xs ys zs : List α}

theorem of_perm (h : ∀ a, R a a) (hperm : xs.Perm ys) : Paired R xs ys :=
  ⟨xs, hperm, List.forall₂_same.mpr fun a _ => h a⟩

theorem trans (hR : ∀ a b c, R a b → R b c → R a c) (h : Paired R xs ys) (h' : Paired R ys zs) :
    Paired R xs zs := by
  obtain ⟨ys', hys, hxs⟩ := h
  obtain ⟨zs', hzs, hys'⟩ := h'
  obtain ⟨ws, hws, hperm⟩ := List.perm_comp_forall₂ hys hys'
  exact ⟨ws, hperm.trans hzs, forall₂_trans hR hxs hws⟩

end Text.Paired

namespace Index.Matches

theorem refl (i : Index) : i.Matches i :=
  ⟨Text.sameName_refl _, List.forall₂_same.mpr fun _ _ => Text.sameName_refl _⟩

theorem trans {i j k : Index} (h : i.Matches j) (h' : j.Matches k) : i.Matches k := by
  have hnames : ∀ a b c : String, Text.sameName a b = true → Text.sameName b c = true →
      Text.sameName a c = true := fun _ _ _ => Text.sameName_trans
  exact ⟨hnames _ _ _ h.name h'.name, Text.forall₂_trans hnames h.columns h'.columns⟩

/-- Indexes that match cover the same names. -/
theorem covers_eq {i j : Index} (h : i.Matches j) (name : String) :
    LiveTable.covers i.columns name = LiveTable.covers j.columns name := by
  refine (Text.Paired.of_forall₂ h.columns).any_eq fun x y hxy => ?_
  rw [Text.sameName, Text.sameName, Text.sameName_iff.mp hxy]

end Index.Matches

/-! ### Reports that are alike -/

/-- Two reports of a column agree in its name and its rules. -/
structure LiveColumn.Alike (e f : LiveColumn) : Prop where
  name : e.name = f.name
  nativeType : e.nativeType = f.nativeType
  primaryKey : e.primaryKey = f.primaryKey
  rejectsDuplicates : e.rejectsDuplicates = f.rejectsDuplicates
  requiresValue : e.requiresValue = f.requiresValue

/-- Two reports of a table agree in what it holds. -/
structure LiveTable.Alike (t s : LiveTable) : Prop where
  name : t.name = s.name
  columns : List.Forall₂ LiveColumn.Alike t.columns s.columns
  indexes : Text.Paired Index.Matches t.indexes s.indexes
  /-- The constraints are over the same columns. -/
  uniques : ∀ columns, (∃ u ∈ t.uniques, u.columns = columns) ↔
    ∃ u ∈ s.uniques, u.columns = columns

theorem LiveColumn.Alike.refl (e : LiveColumn) : e.Alike e := ⟨rfl, rfl, rfl, rfl, rfl⟩

theorem LiveColumn.Alike.trans {e f g : LiveColumn} (h : e.Alike f) (h' : f.Alike g) : e.Alike g :=
  ⟨h.name.trans h'.name, h.nativeType.trans h'.nativeType, h.primaryKey.trans h'.primaryKey,
    h.rejectsDuplicates.trans h'.rejectsDuplicates, h.requiresValue.trans h'.requiresValue⟩

namespace LiveTable.Alike

variable {t s r : LiveTable}

theorem refl (t : LiveTable) : t.Alike t :=
  ⟨rfl, List.forall₂_same.mpr fun e _ => .refl e, .refl .refl _, fun _ => .rfl⟩

theorem trans (h : t.Alike s) (h' : s.Alike r) : t.Alike r :=
  ⟨h.name.trans h'.name, Text.forall₂_trans (fun _ _ _ => .trans) h.columns h'.columns,
    h.indexes.trans (fun _ _ _ => .trans) h'.indexes,
    fun columns => (h.uniques columns).trans (h'.uniques columns)⟩

/-- Reports that are alike are alike without a column. -/
theorem dropColumn (h : t.Alike s) (name : String) :
    (t.dropColumn name).Alike (s.dropColumn name) := by
  refine ⟨h.name, List.rel_filter (fun e f hef => by simp [hef.name]) h.columns,
    h.indexes.filter fun i j hij => by rw [hij.covers_eq], fun columns => ?_⟩
  have hkept : ∀ us : List Unique, (∃ u ∈ us.filter (fun u => !covers u.columns name),
      u.columns = columns) ↔ (∃ u ∈ us, u.columns = columns) ∧ covers columns name = false := by
    intro us
    constructor
    · rintro ⟨u, hu, rfl⟩
      obtain ⟨hu, hcovers⟩ := List.mem_filter.mp hu
      exact ⟨⟨u, hu, rfl⟩, by simpa using hcovers⟩
    · rintro ⟨⟨u, hu, rfl⟩, hcovers⟩
      exact ⟨u, List.mem_filter.mpr ⟨hu, by simp [hcovers]⟩, rfl⟩
  simp only [LiveTable.dropColumn, hkept, h.uniques columns]

theorem addColumn (h : t.Alike s) (e : LiveColumn) : (t.addColumn e).Alike (s.addColumn e) :=
  ⟨h.name, List.rel_append h.columns (.cons (.refl e) .nil), h.indexes, h.uniques⟩

theorem dropIndex (h : t.Alike s) (name : String) :
    (t.dropIndex name).Alike (s.dropIndex name) := by
  refine ⟨h.name, h.columns, h.indexes.filter fun i j hij => ?_, h.uniques⟩
  rw [Text.sameName, Text.sameName, Text.sameName_iff.mp hij.name]

theorem addIndex (h : t.Alike s) (i : Index) : (t.addIndex i).Alike (s.addIndex i) :=
  ⟨h.name, h.columns, h.indexes.append (.refl .refl [i]), h.uniques⟩

/-- **A report that is like one that agrees with a model** agrees with it as well, if the right
columns are numbered. -/
theorem agrees_iff (h : t.Alike s) {m : Model} (hs : Difference.Agrees .sqlite m s)
    (hindexes : t.indexes.Pairwise fun i j => Text.sameName i.name j.name = false) :
    Difference.Agrees .sqlite m t ↔ ∀ c ∈ m.columns, ∀ e, t.column? c.name = some e →
      e.autoincrement = c.autoincrement := by
  have hcolumn : ∀ n, Option.Rel LiveColumn.Alike (t.column? n) (s.column? n) :=
    fun n => Text.rel_find? (fun e f hef => by rw [hef.name]) h.columns
  have hindex : ∀ n, Option.Rel Index.Matches (t.index? n) (s.index? n) :=
    fun n => h.indexes.rel_find? (fun _ _ hij => hij.name) hindexes n
  constructor
  · intro hagrees c hc e he
    obtain ⟨e', he', hdiffers⟩ := hagrees.columns c hc
    obtain rfl := Option.some.inj (he.symm.trans he')
    simp only [Column.differs, Bool.or_eq_false_iff, bne_eq_false_iff_eq] at hdiffers
    exact hdiffers.1.1.2.symm
  · intro hnumbered
    refine ⟨fun n hn => hs.no_obsolete n ((Text.isSome_eq_of_rel (hcolumn n)).symm.trans hn),
      fun c hc => ?_, fun i hi => ?_, fun j hj => ?_, fun u hu => ?_⟩
    · obtain ⟨f, hf, hdiffers⟩ := hs.columns c hc
      obtain ⟨e, he, halike⟩ := Text.exists_of_rel_some (hf ▸ hcolumn c.name)
      refine ⟨e, he, ?_⟩
      simp only [Column.differs, Bool.or_eq_false_iff, bne_eq_false_iff_eq] at hdiffers ⊢
      rw [halike.nativeType, halike.primaryKey, halike.rejectsDuplicates, halike.requiresValue]
      exact ⟨⟨⟨hdiffers.1.1.1, (hnumbered c hc e he).symm⟩, hdiffers.1.2⟩, hdiffers.2⟩
    · obtain ⟨j, hj, hsame⟩ := hs.indexes i hi
      obtain ⟨k, hk, hmatches⟩ := Text.exists_of_rel_some (hj ▸ hindex i.name)
      have hback : ∀ a b c : String, Text.sameName a b = true → Text.sameName c b = true →
          Text.sameName a c = true := by
        intro a b c hab hcb
        rw [Text.sameName_comm] at hcb
        exact Text.sameName_trans hab hcb
      exact ⟨k, hk, Text.sameNames_iff_forall₂.mpr
        (Text.forall₂_trans hback (Text.sameNames_iff_forall₂.mp hsame) hmatches.columns.flip)⟩
    · obtain ⟨k, hk, hmatches⟩ := h.indexes.exists_right hj
      obtain ⟨i, hi, hname⟩ := hs.no_obsolete_index k hk
      rw [Text.sameName_comm] at hname
      refine ⟨i, hi, ?_⟩
      rw [Text.sameName_comm]
      exact Text.sameName_trans hmatches.name hname
    · obtain ⟨v, hv, hset⟩ := List.any_eq_true.mp (hs.uniques u hu)
      obtain ⟨w, hw, hcolumns⟩ := (h.uniques v.columns).mpr ⟨v, hv, rfl⟩
      refine List.any_eq_true.mpr ⟨w, hw, ?_⟩
      rwa [Unique.columnSet, hcolumns, ← Unique.columnSet]

end LiveTable.Alike

namespace StoredTable

variable {t t' : StoredTable}

/-! ### Tables with the same unique indexes -/

/-- If the same unique indexes are reported, a table is reported with its columns as they would be
reported of the other table, and with the constraints of that. -/
theorem alike_of_uniques_eq {s : LiveTable}
    (h : t'.reportedIndexes.filter (·.unique) = t.reportedIndexes.filter (·.unique))
    (hname : t'.name = s.name)
    (hcolumns : List.Forall₂ LiveColumn.Alike (t'.columns.map t.liveColumn) s.columns)
    (hindexes : Text.Paired Index.Matches t'.live.indexes s.indexes)
    (huniques : ∀ columns, (∃ u ∈ t.live.uniques, u.columns = columns) ↔
      ∃ u ∈ s.uniques, u.columns = columns) : t'.live.Alike s := by
  have hcolumn : ∀ c, (t'.liveColumn c).Alike (t.liveColumn c) := by
    intro c
    have hunique : t'.isUniqueAlone c = t.isUniqueAlone c := by
      rw [isUniqueAlone, ← List.any_filter, h, List.any_filter, ← isUniqueAlone]
    refine ⟨rfl, rfl, rfl, ?_, rfl⟩
    rw [LiveColumn.rejectsDuplicates, LiveColumn.rejectsDuplicates, liveColumn, liveColumn, hunique]
  have hboth : List.Forall₂ LiveColumn.Alike (t'.columns.map t'.liveColumn)
      (t'.columns.map t.liveColumn) :=
    List.forall₂_map_left_iff.mpr
      (List.forall₂_map_right_iff.mpr (List.forall₂_same.mpr fun c _ => hcolumn c))
  have hlive : t'.live.uniques = t.live.uniques := by
    simp only [live, Bool.and_comm (x := StoredIndex.unique _), ← List.filter_filter, h]
  exact ⟨hname, Text.forall₂_trans (fun _ _ _ => .trans) hboth hcolumns, hindexes, hlive ▸ huniques⟩

/-! ### Columns that come and go -/

/-- A column that is added is under no index, so it is not unique. -/
theorem Shaped.isUniqueAlone_eq_false (ht : t.Shaped) {c : StoredColumn}
    (hnew : t.column? c.name = none) : t.isUniqueAlone c = false := by
  rw [isUniqueAlone, List.any_eq_false]
  intro i hi hunique
  rw [Bool.and_eq_true] at hunique
  split at hunique
  · next only honly =>
    obtain ⟨s, hs, hsame⟩ := List.find?_isSome.mp
      (ht.covered i (List.mem_filter.mp hi).1 only (by simp [honly]))
    rw [Text.sameName_comm] at hsame
    have hname := Text.sameName_trans hunique.2 hsame
    rw [Text.sameName_comm] at hname
    exact List.find?_eq_none.mp hnew s hs hname
  · exact absurd hunique.2 (by decide)

/-- **A column that is added** is reported as it is declared, behind the others. -/
theorem alike_addColumn (ht : t.Shaped) {b : Bindings} {clause : ColumnClause} {k : Column}
    (hclause : clause.Declares k) (h : t.addColumn b clause = .ok t') :
    t'.live.Alike (t.live.addColumn (k.image .sqlite)) := by
  obtain ⟨hnew, hkeys, hunique, cell, ht'⟩ := addColumn_cases h
  have hcolumns : t'.columns = t.columns ++ [.ofClause clause false] := by rw [ht']
  have hname : t'.name = t.name := by rw [ht']
  have hreported : t'.reportedIndexes = t.reportedIndexes := by rw [ht']; rfl
  have hindexes : t'.live.indexes = t.live.indexes := by rw [live, hreported]; rfl
  have hkey : k.primaryKey = false := by
    by_contra hkey
    obtain ⟨ds, hrules, -⟩ := hclause.rules
    refine hkeys k.autoincrement ?_
    rw [hrules, Column.rules, if_pos (by simpa using hkey)]
    exact List.mem_append_left _ List.mem_cons_self
  have halone : k.unique = false := by
    by_contra halone
    obtain ⟨ds, hrules, -⟩ := hclause.rules
    rw [Bool.not_eq_false] at halone
    refine hunique ?_
    rw [hrules, Column.rules, hkey, halone]
    simp
  have hstores := stores_ofClause hclause
  rw [hkey] at hstores
  refine alike_of_uniques_eq (by rw [hreported]) hname ?_ (.of_perm .refl (.of_eq hindexes))
    fun _ => .rfl
  have hnewColumn : (t.liveColumn (.ofClause clause false)).Alike (k.image .sqlite) := by
    have hfree : t.isUniqueAlone (.ofClause clause false) = false := ht.isUniqueAlone_eq_false hnew
    refine ⟨hstores.name, hstores.type, hkey.symm, ?_, ?_⟩
    · rw [LiveColumn.rejectsDuplicates, LiveColumn.rejectsDuplicates, liveColumn, hfree]
      exact congrArg₂ (· || ·) halone.symm hkey.symm
    · rw [LiveColumn.requiresValue, liveColumn, Bool.or_assoc, Bool.or_self, hstores.requiresValue]
      rfl
  rw [hcolumns, List.map_append]
  exact List.rel_append (List.forall₂_same.mpr fun e _ => .refl e) (.cons hnewColumn .nil)

/-- **A column that is dropped** is reported no longer, and no index and no constraint goes with
it. -/
theorem alike_dropColumn (ht : t.Shaped) {name written occasion : String}
    (h : t.dropColumn name written = .ok t') (hindexes : t'.brokenIndex? occasion = none) :
    t'.live.Alike (t.live.dropColumn name) := by
  obtain ⟨p, -, hp, -, -, rfl⟩ := dropColumn_cases h
  have hcolumns := Text.filter_sameName_of_findIdx? ht.distinct hp
  have hfree : ∀ i ∈ t.indexes, LiveTable.covers i.columns name = false := by
    intro i hi
    rw [LiveTable.covers, List.any_eq_false]
    intro x hx hname
    obtain ⟨s, hs, hsame⟩ := List.find?_isSome.mp
      (isSome_column?_of_brokenIndex? hindexes i hi x hx)
    obtain ⟨n, hn, hns⟩ : ∃ n ∈ (t.columns.filter fun c => !Text.sameName c.name name).map
        StoredColumn.name, n = s.name := by
      rw [hcolumns, ← List.eraseIdx_map, ← map_withoutColumn fun _ _ => rfl]
      exact ⟨s.name, List.mem_map_of_mem hs, rfl⟩
    obtain ⟨c, hc, rfl⟩ := List.mem_map.mp hn
    have hother := (List.mem_filter.mp hc).2
    rw [hns, Text.sameName_trans hsame hname] at hother
    exact absurd hother (by decide)
  have hkept : ∀ {i : StoredIndex}, i ∈ t.reportedIndexes →
      LiveTable.covers i.columns name = false := fun hi => hfree _ (List.mem_filter.mp hi).1
  have hreported : (t.dropColumnAt p).reportedIndexes = t.reportedIndexes := rfl
  refine alike_of_uniques_eq (t := t) (by rw [hreported]) rfl ?_ (.of_perm .refl (.of_eq ?_))
    fun columns => ?_
  · have hleft : (t.dropColumnAt p).columns.map t.liveColumn =
        (t.columns.eraseIdx p).map t.liveColumn :=
      (map_withoutColumn (fun _ _ => rfl) p t.columns).trans (List.eraseIdx_map ..)
    have hright : (t.live.dropColumn name).columns = (t.columns.eraseIdx p).map t.liveColumn := by
      rw [← hcolumns]
      exact List.filter_map
    rw [hleft, hright]
    exact List.forall₂_same.mpr fun e _ => .refl e
  · refine (List.filter_eq_self.mpr fun j hj => ?_).symm
    obtain ⟨i, hi, -, -, rfl⟩ := mem_indexes_live.mp hj
    simp [hfree i hi]
  · have huniques : (t.live.dropColumn name).uniques = t.live.uniques := by
      refine List.filter_eq_self.mpr fun u hu => ?_
      obtain ⟨i, hi, rfl⟩ := List.mem_map.mp hu
      simp [liveUnique, hkept (List.mem_filter.mp hi).1]
    rw [huniques]

/-! ### Indexes that come and go -/

/-- **An index that is created** is reported with its columns as the table spells them. -/
theorem alike_createIndex {i : Index} {spelled : List String}
    (hspelled : t.spell i.columns = .ok spelled) :
    ({ t with indexes := ⟨i.name, spelled, false, .statement⟩ :: t.indexes } :
      StoredTable).live.Alike (t.live.addIndex i) := by
  have hmatches : Index.Matches ⟨i.name, spelled⟩ i :=
    ⟨Text.sameName_refl _, ((forall₂_of_spell hspelled).imp fun _ _ h => h.1).flip⟩
  have hnew : (⟨i.name, spelled⟩ :: (t.reportedIndexes.filter (!·.unique)).map fun j =>
      (⟨j.name, j.columns⟩ : Index)).Perm (t.live.indexes ++ [⟨i.name, spelled⟩]) :=
    (List.perm_append_singleton _ _).symm.trans ((List.mergeSort_perm _ _).symm.append_right _)
  refine alike_of_uniques_eq (t := t) ?_ rfl (List.forall₂_same.mpr fun e _ => .refl e) ?_
    fun _ => .rfl
  · rfl
  · exact (Text.Paired.of_perm .refl ((List.mergeSort_perm _ _).trans hnew)).trans
      (fun _ _ _ => .trans) ((Text.Paired.refl .refl _).append (.of_forall₂ (.cons hmatches .nil)))

/-- **An index that is dropped** is reported no longer, if it is not unique. -/
theorem alike_dropIndex {name : String}
    (h : ∀ i ∈ t.indexes, Text.sameName i.name name = true → i.unique = false) :
    ({ t with indexes := t.indexes.filter fun i => !Text.sameName i.name name } :
      StoredTable).live.Alike (t.live.dropIndex name) := by
  have hreported : (t.indexes.filter fun i => !Text.sameName i.name name).filter
      (·.origin != .key) = t.reportedIndexes.filter fun i => !Text.sameName i.name name :=
    List.filter_comm ..
  refine alike_of_uniques_eq (t := t) ?_ rfl (List.forall₂_same.mpr fun e _ => .refl e)
    (.of_perm .refl ?_) fun _ => .rfl
  · rw [reportedIndexes, hreported, List.filter_comm]
    refine List.filter_eq_self.mpr fun i hi => ?_
    obtain ⟨hi, hunique⟩ := List.mem_filter.mp hi
    rw [Bool.not_eq_true', Bool.eq_false_iff]
    intro hname
    rw [h i (List.mem_filter.mp hi).1 hname] at hunique
    exact absurd hunique (by decide)
  · refine (List.mergeSort_perm _ _).trans ?_
    rw [reportedIndexes, hreported, List.filter_comm]
    refine (List.Perm.of_eq ?_).trans ((List.mergeSort_perm _ _).symm.filter _)
    rw [List.filter_map]
    rfl

/-! ### Tables that are created -/

/-- **A table that holds what a model declares** is reported like its model. -/
theorem Holds.alike {m : Model} (h : t.Holds m m.indexes) (hm : m.Valid) :
    t.live.Alike (m.image .sqlite) := by
  refine ⟨h.name, ?_, .of_perm .refl h.indexes_perm, h.unique_columns hm⟩
  simp only [live, Model.image, Model.bareImage]
  refine List.forall₂_map_left_iff.mpr (List.forall₂_map_right_iff.mpr ?_)
  refine (Text.forall₂_mem_right h.columns).imp fun s c hs => ?_
  have hreports := h.reports_liveColumn hm hs.1 hs.2
  exact ⟨hreports.name, hreports.nativeType, hreports.primaryKey, hreports.rejectsDuplicates,
    hreports.requiresValue⟩

end StoredTable

end EntitySql
