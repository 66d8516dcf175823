import EntitySql.Proofs.Model.Groups
import Mathlib.Data.List.Nodup
import Mathlib.Data.Option.Basic

/-!
# What is built from a mapping

A mapping is refused exactly if it violates one of three rules, and the error names a rule that it
violates. Otherwise its model is what the mapping declares: the columns of the stored fields, in
order, and the groups that the fields name.

What a field declares about uniqueness is found in two places. A group of several columns is a
constraint; a group of one column is not, and makes that column unique. Indexes have no such second
place, but two ways of being named: an index of its own has the name of its column, and that is the
name of a group as well, if some field names it. Then both are one index. So an index is declared as
it is built exactly if no other field joins it in the other way.

## Main definitions

* `Mapping.stored`, `Mapping.group`: the fields that are stored, and the columns that name a group
* `Mapping.Violates`: the rules that a mapping violates
* `Model.Implements`: what a model has of its mapping

## Main results

* `Model.build_outcome`: what is refused, with which error, and what is built otherwise
* `Model.mem_indexes_iff`: the indexes that are built
* `Model.declares_indexes_iff`: when the indexes that are declared are the ones that are built
-/

namespace EntitySql

/-! ### What a mapping declares -/

namespace Mapping

/-- The fields that are stored, in order. -/
def stored (mapping : Mapping) : List Field := mapping.fields.filter (!·.ignored)

/-- The columns of the stored fields that name the group, in order. -/
def group (mapping : Mapping) (memberships : Field → List Membership) (name : String) :
    List String :=
  (mapping.stored.filter fun f => (memberships f).contains (.inGroup name)).map Column.nameOf

/-- The columns of the stored fields that join the index of that name, in order: those that name it,
and one with an index of its own of that name. -/
def joined (mapping : Mapping) (name : String) : List String :=
  (mapping.stored.filter fun f => f.indexes.contains (.inGroup name) ||
    f.indexes.contains .alone && Column.nameOf f == name).map Column.nameOf

/-- The rules that a mapping violates, each with the fault that is reported. -/
inductive Violates (mapping : Mapping) : ModelFault → Prop where
  /-- More than one field is the primary key. -/
  | severalKeys : 1 < (mapping.stored.filter (·.primaryKey)).length →
      Violates mapping (.severalKeys ((mapping.stored.filter (·.primaryKey)).map Column.nameOf))
  /-- Two fields have columns of one name. -/
  | duplicateColumn {f g : Field} : [f, g].Sublist mapping.stored →
      Text.sameName (Column.nameOf f) (Column.nameOf g) = true →
      Violates mapping (.duplicateColumn (Column.nameOf g))
  /-- A field that is not the primary key is auto-incremented. -/
  | autoincrementOffKey {f : Field} : f ∈ mapping.stored → f.autoincrement = true →
      f.primaryKey = false → Violates mapping (.autoincrementOffKey (Column.nameOf f))

end Mapping

/-- The column that a field declares, which is unique or not. -/
def Column.declared (f : Field) (unique : Bool) : Column := { ofField f with unique := unique }

namespace Model

/-- What a model has of its mapping. -/
structure Implements (m : Model) (mapping : Mapping) : Prop where
  /-- It is the table or view of the mapping. -/
  name : m.name = mapping.name ∧ m.storage = mapping.storage
  /-- Its columns are those of the stored fields, in order. A column is unique exactly if its field
  is unique alone or is the only one of some group. -/
  columns : List.Forall₂ (fun c f => c = .declared f c.unique ∧
    (c.unique = true ↔ .alone ∈ f.uniques ∨
      ∃ name, .inGroup name ∈ f.uniques ∧ mapping.group Field.uniques name = [Column.nameOf f]))
    m.columns mapping.stored
  /-- There is at most one key. -/
  one_key : (m.columns.filter (·.primaryKey)).length ≤ 1
  /-- The key has no default. -/
  key_default : ∀ c ∈ m.columns, c.primaryKey = true → c.default = none
  /-- No two columns have one name. -/
  column_names : m.columns.Pairwise fun a b => Text.sameName a.name b.name = false
  /-- No two indexes have one name. -/
  index_names : (m.indexes.map (·.name)).Nodup
  /-- An index has columns of the model, in their order, each once and at least one. -/
  indexes : ∀ i ∈ m.indexes,
    i.columns.Sublist m.columnNames ∧ i.columns.Nodup ∧ i.columns ≠ []
  /-- No two constraints have one name. -/
  unique_names : (m.uniques.map (·.name)).Nodup
  /-- A constraint has columns of the model, in their order, each once and at least two. -/
  uniques : ∀ u ∈ m.uniques,
    u.columns.Sublist m.columnNames ∧ u.columns.Nodup ∧ 2 ≤ u.columns.length
  /-- The constraints are the groups of several columns, each once. -/
  unique_groups : (∀ u ∈ m.uniques, ∃ name, u = ⟨some name, mapping.group Field.uniques name⟩) ∧
    ∀ name, 2 ≤ (mapping.group Field.uniques name).length →
      m.uniques.count ⟨some name, mapping.group Field.uniques name⟩ = 1

/-! ### What is refused -/

/-- The fault of a column in front of which others stand is a rule that the fields violate. -/
theorem violates_of_columnFault? {mapping : Mapping} {toColumn : Field → Column}
    (hname : ∀ f, (toColumn f).name = Column.nameOf f)
    (hauto : ∀ f, (toColumn f).autoincrement = f.autoincrement)
    (hkey : ∀ f, (toColumn f).primaryKey = f.primaryKey) {seen rest : List Field}
    (hstored : mapping.stored = seen ++ rest) {fault : ModelFault}
    (h : columnFault? (seen.map Column.nameOf) (rest.map toColumn) = some fault) :
    mapping.Violates fault := by
  induction rest generalizing seen with
  | nil => simp [columnFault?] at h
  | cons f rest ih =>
    rw [List.map_cons, columnFault?, hname, hauto, hkey] at h
    split at h
    · next hseen =>
      obtain rfl := Option.some.inj h
      obtain ⟨name, hmem, hsame⟩ := List.any_eq_true.mp hseen
      obtain ⟨g, hg, rfl⟩ := List.mem_map.mp hmem
      refine .duplicateColumn (f := g) (g := f) ?_ hsame
      rw [hstored]
      exact (List.singleton_sublist.mpr hg).append (List.singleton_sublist.mpr List.mem_cons_self)
    · split at h
      · next hoff =>
        obtain rfl := Option.some.inj h
        rw [Bool.and_eq_true, Bool.not_eq_true'] at hoff
        exact .autoincrementOffKey (by simp [hstored]) hoff.1 hoff.2
      · have hnext : mapping.stored = (seen ++ [f]) ++ rest := by simp [hstored]
        refine ih hnext ?_
        rwa [List.map_append, List.map_singleton]

/-! ### The columns and groups of fields -/

/-- A column is that of its field. Beside the fields that are unique alone, those are unique that
are the only ones of a group. -/
theorem exists_columns (name : String) (storage : Storage) (fields : List Field) :
    ∃ single : List String, (ofFields name storage fields).columns = (fields.map fun f =>
        Column.declared f (f.uniques.contains .alone || single.contains (Column.nameOf f))) ∧
      ∀ c, c ∈ single ↔ ∃ g ∈ Groups.collect (fields.flatMap uniqueMembers), g.2 = [c] := by
  refine ⟨_, List.map_map, fun c => ?_⟩
  rw [List.mem_filterMap]
  refine exists_congr fun g => and_congr_right fun _ => ?_
  split
  · next column hg => rw [hg, Option.some.injEq, List.singleton_inj]
  · next hg => simpa using hg c

theorem columnNames_ofFields (name : String) (storage : Storage) (fields : List Field) :
    (ofFields name storage fields).columnNames = fields.map Column.nameOf := by
  obtain ⟨single, hcolumns, -⟩ := exists_columns name storage fields
  rw [columnNames, hcolumns, List.map_map]
  rfl

theorem snd_of_mem_indexMembers {f : Field} {x : String × String} (hx : x ∈ indexMembers f) :
    x.2 = Column.nameOf f := by
  obtain ⟨member, -, rfl⟩ := List.mem_map.mp hx
  cases member <;> rfl

theorem snd_of_mem_uniqueMembers {f : Field} {x : String × String} (hx : x ∈ uniqueMembers f) :
    x.2 = Column.nameOf f := by
  obtain ⟨member, -, hmember⟩ := List.mem_filterMap.mp hx
  cases member with
  | alone => cases hmember
  | inGroup name =>
    obtain rfl := Option.some.inj hmember
    rfl

theorem any_uniqueMembers (f : Field) (name : String) :
    (uniqueMembers f).any (·.1 = name) = f.uniques.contains (.inGroup name) := by
  rw [Bool.eq_iff_iff, List.any_eq_true, List.contains_iff_mem]
  constructor
  · rintro ⟨x, hx, hname⟩
    obtain ⟨member, hmember, heq⟩ := List.mem_filterMap.mp hx
    cases member with
    | alone => cases heq
    | inGroup n =>
      obtain rfl := Option.some.inj heq
      obtain rfl : n = name := by simpa using hname
      exact hmember
  · intro h
    exact ⟨_, List.mem_filterMap.mpr ⟨_, h, rfl⟩, by simp⟩

theorem any_indexMembers (f : Field) (name : String) :
    (indexMembers f).any (·.1 = name) = (f.indexes.contains (.inGroup name) ||
      f.indexes.contains .alone && Column.nameOf f == name) := by
  rw [Bool.eq_iff_iff, List.any_eq_true, Bool.or_eq_true, Bool.and_eq_true, List.contains_iff_mem,
    List.contains_iff_mem, beq_iff_eq]
  constructor
  · rintro ⟨x, hx, hname⟩
    obtain ⟨member, hmember, rfl⟩ := List.mem_map.mp hx
    cases member with
    | alone => exact .inr ⟨hmember, by simpa using hname⟩
    | inGroup n =>
      obtain rfl : n = name := by simpa using hname
      exact .inl hmember
  · rintro (h | ⟨h, hname⟩)
    · exact ⟨_, List.mem_map.mpr ⟨_, h, rfl⟩, by simp⟩
    · exact ⟨_, List.mem_map.mpr ⟨_, h, rfl⟩, by simpa using hname⟩

/-- A model that is built is that of the stored fields, and no fault is found in it. -/
theorem of_build_eq_ok {mapping : Mapping} {m : Model} (h : build mapping = .ok m) :
    m = ofFields mapping.name mapping.storage mapping.stored ∧ m.fault? = none := by
  rw [build] at h
  split at h
  · cases h
  · next hnone =>
    obtain rfl := Except.ok.inj h
    exact ⟨rfl, hnone⟩

/-- **A fault that is found is a rule that is violated.** -/
theorem violates_of_fault? {mapping : Mapping} {fault : ModelFault}
    (h : (ofFields mapping.name mapping.storage mapping.stored).fault? = some fault) :
    mapping.Violates fault := by
  obtain ⟨single, hcolumns, -⟩ := exists_columns mapping.name mapping.storage mapping.stored
  rw [fault?, hcolumns, List.filter_map, List.map_map] at h
  split at h
  · next hseveral =>
    obtain rfl := Option.some.inj h
    rw [List.length_map] at hseveral
    exact .severalKeys hseveral
  · have hstart : mapping.stored = [] ++ mapping.stored := rfl
    exact violates_of_columnFault? (fun _ => rfl) (fun _ => rfl) (fun _ => rfl) hstart h

section

variable {mapping : Mapping} {m : Model} (hm : build mapping = .ok m)

include hm

theorem pairwise_stored : mapping.stored.Pairwise fun f g =>
    Text.sameName (Column.nameOf f) (Column.nameOf g) = false := by
  have hdistinct := (valid_of_build hm).distinct
  obtain ⟨rfl, -⟩ := of_build_eq_ok hm
  obtain ⟨single, hcolumns, -⟩ := exists_columns mapping.name mapping.storage mapping.stored
  rw [hcolumns, List.pairwise_map] at hdistinct
  exact hdistinct

theorem nodup_stored : (mapping.stored.map Column.nameOf).Nodup := by
  refine List.pairwise_map.mpr ((pairwise_stored hm).imp fun hsame heq => ?_)
  rw [heq, Text.sameName_refl] at hsame
  cases hsame

theorem eq_of_nameOf_eq {f g : Field} (hf : f ∈ mapping.stored) (hg : g ∈ mapping.stored)
    (h : Column.nameOf f = Column.nameOf g) : f = g :=
  List.inj_on_of_nodup_map (nodup_stored hm) hf hg h

/-- **What is built violates no rule.** -/
theorem not_violates (fault : ModelFault) : ¬ mapping.Violates fault := by
  have hvalid := valid_of_build hm
  have hpairwise := pairwise_stored hm
  obtain ⟨rfl, -⟩ := of_build_eq_ok hm
  obtain ⟨single, hcolumns, -⟩ := exists_columns mapping.name mapping.storage mapping.stored
  rintro (hseveral | ⟨hsublist, hsame⟩ | ⟨hf, hauto, hkey⟩)
  · have hone := hvalid.one_key
    rw [hcolumns, List.filter_map, List.length_map] at hone
    exact absurd hseveral (Nat.not_lt.mpr hone)
  · rw [List.pairwise_iff_forall_sublist.mp hpairwise hsublist] at hsame
    cases hsame
  · have hnumbered := hvalid.key_of_autoincrement
    rw [hcolumns] at hnumbered
    exact absurd (hnumbered _ (List.mem_map_of_mem hf) hauto) (ne_true_of_eq_false hkey)

/-- The groups of constraints that are collected. -/
theorem mem_uniqueGroups_iff {g : String × List String} :
    g ∈ Groups.collect (mapping.stored.flatMap uniqueMembers) ↔
      g.2 ≠ [] ∧ g.2 = mapping.group Field.uniques g.1 := by
  rw [Groups.mem_collect_iff,
    Groups.columns_flatMap (fun _ _ hx => snd_of_mem_uniqueMembers hx) (nodup_stored hm)]
  simp only [any_uniqueMembers]
  rfl

/-- The columns of a group are columns of the model, in their order. -/
theorem sublist_columnNames (p : Field → Bool) :
    ((mapping.stored.filter p).map Column.nameOf).Sublist m.columnNames := by
  obtain ⟨rfl, -⟩ := of_build_eq_ok hm
  rw [columnNames_ofFields]
  exact List.filter_sublist.map _

theorem nodup_group (p : Field → Bool) :
    ((mapping.stored.filter p).map Column.nameOf).Nodup :=
  (nodup_stored hm).sublist (List.filter_sublist.map _)

/-- A field is the only one of a group exactly if some group has its column alone. -/
theorem exists_group_eq_singleton_iff {f : Field} (hf : f ∈ mapping.stored) :
    (∃ g ∈ Groups.collect (mapping.stored.flatMap uniqueMembers), g.2 = [Column.nameOf f]) ↔
      ∃ name, .inGroup name ∈ f.uniques ∧
        mapping.group Field.uniques name = [Column.nameOf f] := by
  constructor
  · rintro ⟨g, hg, hsingle⟩
    have hgroup : mapping.group Field.uniques g.1 = [Column.nameOf f] :=
      ((mem_uniqueGroups_iff hm).mp hg).2.symm.trans hsingle
    refine ⟨g.1, ?_, hgroup⟩
    have hmem : Column.nameOf f ∈ mapping.group Field.uniques g.1 := by simp [hgroup]
    obtain ⟨f', hf', hname⟩ := List.mem_map.mp hmem
    obtain ⟨hstored, hnamed⟩ := List.mem_filter.mp hf'
    obtain rfl := eq_of_nameOf_eq hm hstored hf hname
    exact List.contains_iff_mem.mp hnamed
  · rintro ⟨name, -, hgroup⟩
    exact ⟨(name, [Column.nameOf f]), (mem_uniqueGroups_iff hm).mpr ⟨by simp, hgroup.symm⟩, rfl⟩

/-- The columns of a model are those that its fields declare. -/
theorem forall₂_columns :
    List.Forall₂ (fun c f => c = Column.declared f c.unique ∧
      (c.unique = true ↔ .alone ∈ f.uniques ∨ ∃ name, .inGroup name ∈ f.uniques ∧
        mapping.group Field.uniques name = [Column.nameOf f])) m.columns mapping.stored := by
  have hgroups := fun f hf => exists_group_eq_singleton_iff hm (f := f) hf
  obtain ⟨rfl, -⟩ := of_build_eq_ok hm
  obtain ⟨single, hcolumns, hsingle⟩ :=
    exists_columns mapping.name mapping.storage mapping.stored
  rw [hcolumns, List.forall₂_map_left_iff, List.forall₂_same]
  intro f hf
  refine ⟨rfl, ?_⟩
  rw [← hgroups f hf, ← hsingle, Column.declared, Bool.or_eq_true, List.contains_iff_mem,
    List.contains_iff_mem]

theorem mem_uniques_iff {u : Unique} :
    u ∈ m.uniques ↔ 2 ≤ u.columns.length ∧
      ∃ name, u = ⟨some name, mapping.group Field.uniques name⟩ := by
  have hgroups := fun g => mem_uniqueGroups_iff hm (g := g)
  obtain ⟨rfl, -⟩ := of_build_eq_ok hm
  simp only [ofFields, List.mem_map, List.mem_filter]
  constructor
  · rintro ⟨g, ⟨hg, hlength⟩, rfl⟩
    obtain ⟨hne, hcolumns⟩ := (hgroups g).mp hg
    have hpos := List.length_pos_iff.mpr hne
    have hseveral : g.2.length ≠ 1 := by simpa using hlength
    exact ⟨by simp only; omega, g.1, by rw [hcolumns]⟩
  · rintro ⟨hlength, name, rfl⟩
    simp only at hlength
    have hne : mapping.group Field.uniques name ≠ [] := by
      rintro hnil
      simp [hnil] at hlength
    exact ⟨(name, mapping.group Field.uniques name),
      ⟨(hgroups _).mpr ⟨hne, rfl⟩, by simp only [bne_iff_ne]; omega⟩, rfl⟩

theorem nodup_unique_names : (m.uniques.map (·.name)).Nodup := by
  obtain ⟨rfl, -⟩ := of_build_eq_ok hm
  have hnames := (Groups.nodup_names_collect (mapping.stored.flatMap uniqueMembers)).map
    (Option.some_injective String)
  rw [List.map_map] at hnames
  simp only [ofFields, List.map_map]
  exact hnames.sublist (List.filter_sublist.map _)

/-- **The indexes that are built**: one for each name by which fields join one, with their
columns. -/
theorem mem_indexes_iff {i : Index} :
    i ∈ m.indexes ↔ i.columns ≠ [] ∧ i.columns = mapping.joined i.name := by
  have hcolumns := fun name => Groups.columns_flatMap
    (fun _ _ hx => snd_of_mem_indexMembers hx) (nodup_stored hm) name
  obtain ⟨rfl, -⟩ := of_build_eq_ok hm
  simp only [ofFields, List.mem_map, Groups.mem_collect_iff, hcolumns, any_indexMembers]
  constructor
  · rintro ⟨g, hg, rfl⟩
    exact hg
  · intro hi
    exact ⟨(i.name, i.columns), hi, rfl⟩

theorem nodup_index_names : (m.indexes.map (·.name)).Nodup := by
  obtain ⟨rfl, -⟩ := of_build_eq_ok hm
  simp only [ofFields, List.map_map]
  exact Groups.nodup_names_collect (mapping.stored.flatMap indexMembers)

/-- **What is built implements the mapping.** -/
theorem implements : m.Implements mapping := by
  have hvalid := valid_of_build hm
  have hcolumns := forall₂_columns hm
  refine ⟨?_, hcolumns, hvalid.one_key, ?_, hvalid.distinct, nodup_index_names hm, ?_,
    nodup_unique_names hm, ?_, ?_, ?_⟩
  · obtain ⟨rfl, -⟩ := of_build_eq_ok hm
    exact ⟨rfl, rfl⟩
  · intro c hc hkey
    obtain ⟨f, -, heq, -⟩ := Text.exists_mem_of_forall₂ hcolumns.flip hc
    rw [heq] at hkey ⊢
    exact if_pos hkey
  · intro i hi
    obtain ⟨hne, heq⟩ := (mem_indexes_iff hm).mp hi
    refine ⟨?_, ?_, hne⟩ <;> rw [heq]
    · exact sublist_columnNames hm _
    · exact nodup_group hm _
  · intro u hu
    obtain ⟨hlength, name, rfl⟩ := (mem_uniques_iff hm).mp hu
    exact ⟨sublist_columnNames hm _, nodup_group hm _, hlength⟩
  · exact fun u hu => ((mem_uniques_iff hm).mp hu).2
  · intro name hlength
    exact List.count_eq_one_of_mem (nodup_unique_names hm).of_map
      ((mem_uniques_iff hm).mpr ⟨hlength, name, rfl⟩)

end

/-- **What is refused, and what is built otherwise.** A mapping is refused exactly if it violates a
rule, and the error names one that it violates. A model that is built implements the mapping. -/
theorem build_outcome (mapping : Mapping) :
    ((∃ error, build mapping = .error error) ↔ ∃ fault, mapping.Violates fault) ∧
      (∀ error, build mapping = .error error →
        ∃ fault, error = .invalidModel mapping.name fault ∧ mapping.Violates fault) ∧
      ∀ m, build mapping = .ok m → m.Implements mapping := by
  have hfault : ∀ error, build mapping = .error error →
      ∃ fault, error = .invalidModel mapping.name fault ∧ mapping.Violates fault := by
    intro error herror
    rw [build] at herror
    split at herror
    · next fault hfault =>
      exact ⟨fault, (Except.error.inj herror).symm, violates_of_fault? hfault⟩
    · cases herror
  have hok : ∀ m, build mapping = .ok m → m.Implements mapping := fun m hm => implements hm
  refine ⟨⟨?_, ?_⟩, hfault, hok⟩
  · rintro ⟨error, herror⟩
    obtain ⟨fault, -, hviolates⟩ := hfault error herror
    exact ⟨fault, hviolates⟩
  · rintro ⟨fault, hviolates⟩
    cases hbuild : build mapping with
    | error error => exact ⟨error, rfl⟩
    | ok m => exact absurd hviolates (not_violates hbuild fault)

/-! ### Indexes -/

section

variable {mapping : Mapping} {m : Model} (hm : build mapping = .ok m)

include hm

/-- An index of its own is built unless another field names a group as its column is named. -/
theorem mem_indexes_alone_iff {f : Field} (hf : f ∈ mapping.stored) (halone : .alone ∈ f.indexes) :
    ⟨Column.nameOf f, [Column.nameOf f]⟩ ∈ m.indexes ↔
      ∀ g ∈ mapping.stored, .inGroup (Column.nameOf f) ∈ g.indexes → g = f := by
  rw [mem_indexes_iff hm]
  simp only [ne_eq, List.cons_ne_nil, not_false_eq_true, true_and]
  constructor
  · intro hjoined g hg hgroup
    have hmem : Column.nameOf g ∈ mapping.joined (Column.nameOf f) :=
      List.mem_map_of_mem (List.mem_filter.mpr ⟨hg, by simp [hgroup]⟩)
    rw [← hjoined, List.mem_singleton] at hmem
    exact eq_of_nameOf_eq hm hg hf hmem
  · intro hothers
    have hnodup : (mapping.joined (Column.nameOf f)).Nodup := nodup_group hm _
    refine (List.perm_singleton.mp ?_).symm
    refine (List.perm_ext_iff_of_nodup hnodup (List.pairwise_singleton _ _)).mpr fun column => ?_
    rw [Mapping.joined, List.mem_map, List.mem_singleton]
    constructor
    · rintro ⟨g, hg, rfl⟩
      obtain ⟨hg, hjoins⟩ := List.mem_filter.mp hg
      rcases Bool.or_eq_true_iff.mp hjoins with hgroup | hown
      · rw [hothers g hg (List.contains_iff_mem.mp hgroup)]
      · exact beq_iff_eq.mp (Bool.and_eq_true_iff.mp hown).2
    · rintro rfl
      exact ⟨f, List.mem_filter.mpr ⟨hf, by simp [halone]⟩, rfl⟩

/-- An index of a group is built unless another field has an index of its own of that name. -/
theorem mem_indexes_group_iff {name : String} (hgroup : mapping.group Field.indexes name ≠ []) :
    ⟨name, mapping.group Field.indexes name⟩ ∈ m.indexes ↔
      ∀ f ∈ mapping.stored, .alone ∈ f.indexes → Column.nameOf f = name →
        .inGroup name ∈ f.indexes := by
  rw [mem_indexes_iff hm, and_iff_right hgroup]
  constructor
  · rintro hjoined f hf halone rfl
    have hmem : Column.nameOf f ∈ mapping.joined (Column.nameOf f) :=
      List.mem_map_of_mem (List.mem_filter.mpr ⟨hf, by simp [halone]⟩)
    rw [← hjoined] at hmem
    obtain ⟨g, hg, hname⟩ := List.mem_map.mp hmem
    obtain ⟨hg, hnames⟩ := List.mem_filter.mp hg
    obtain rfl := eq_of_nameOf_eq hm hg hf hname
    exact List.contains_iff_mem.mp hnames
  · intro hothers
    refine congrArg (List.map Column.nameOf) (List.filter_congr fun f hf => ?_)
    by_cases hown : .alone ∈ f.indexes ∧ Column.nameOf f = name
    · simp [hothers f hf hown.1 hown.2]
    · rw [not_and] at hown
      by_cases halone : .alone ∈ f.indexes
      · simp [hown halone]
      · simp [halone]

/-- **When the indexes that are declared are the ones that are built.** A field with an index of its
own has it exactly if no other field names a group as its column is named; a group has its index
exactly if no field outside of it has one of its own of that name. In any case an index has the
columns of all the fields that join it, in order. -/
theorem declares_indexes_iff :
    (∀ f ∈ mapping.stored, .alone ∈ f.indexes →
      (⟨Column.nameOf f, [Column.nameOf f]⟩ ∈ m.indexes ↔
        ∀ g ∈ mapping.stored, .inGroup (Column.nameOf f) ∈ g.indexes → g = f)) ∧
    (∀ name, mapping.group Field.indexes name ≠ [] →
      (⟨name, mapping.group Field.indexes name⟩ ∈ m.indexes ↔
        ∀ f ∈ mapping.stored, .alone ∈ f.indexes → Column.nameOf f = name →
          .inGroup name ∈ f.indexes)) ∧
    ∀ i, i ∈ m.indexes ↔ i.columns ≠ [] ∧ i.columns = mapping.joined i.name :=
  ⟨fun _ hf halone => mem_indexes_alone_iff hm hf halone,
    fun _ hgroup => mem_indexes_group_iff hm hgroup, fun _ => mem_indexes_iff hm⟩

end

/-- An index of its own and a group of the same name: neither is built as it is declared. -/
theorem declares_indexes_iff_clash :
    ∃ mapping m, build mapping = .ok m ∧
      mapping.stored =
        [{ name := "a", spelling := "i64", column := some "a", notNull := some true,
           indexes := [.alone] },
          { name := "b", spelling := "i64", column := some "b", notNull := some true,
            indexes := [.inGroup "a"] }] ∧
      mapping.group Field.indexes "a" = ["b"] ∧ ⟨"a", ["a"]⟩ ∉ m.indexes ∧
      ⟨"a", ["b"]⟩ ∉ m.indexes ∧ ⟨"a", ["a", "b"]⟩ ∈ m.indexes := by
  have hbuild : build
      { name := "t"
        fields :=
          [{ name := "a", spelling := "i64", column := some "a", notNull := some true,
             indexes := [.alone] },
            { name := "b", spelling := "i64", column := some "b", notNull := some true,
              indexes := [.inGroup "a"] }] } =
      .ok ⟨"t", .table, [{ field := "a", name := "a", type := .int64, notNull := true },
        { field := "b", name := "b", type := .int64, notNull := true }], [⟨"a", ["a", "b"]⟩],
        []⟩ := by
    rfl
  obtain ⟨halone, hgroup, hjoined⟩ := declares_indexes_iff hbuild
  refine ⟨_, _, hbuild, rfl, rfl, fun hmem => ?_, fun hmem => ?_,
    (hjoined ⟨"a", ["a", "b"]⟩).mpr ⟨by simp, rfl⟩⟩
  · have hsame := (halone _ List.mem_cons_self List.mem_cons_self).mp hmem _
      (List.mem_cons_of_mem _ List.mem_cons_self) List.mem_cons_self
    simp at hsame
  · have hnamed := (hgroup "a" (by decide)).mp hmem _ List.mem_cons_self List.mem_cons_self rfl
    simp at hnamed

end Model

end EntitySql
