import EntitySql.Model.Basic
import EntitySql.Proofs.Names

/-!
# What building a model guarantees

A model that is built passes its own checks, and its groups name only its own columns. `Model.Valid`
says so as a whole; everything about models that are built follows from it.

## Main definitions

* `Model.Valid`: the columns of a model are consistent, and its groups are over its columns

## Main results

* `Model.valid_of_build`: a model that is built is valid
* `Model.Valid.eq_of_sameName`: a valid model has one column of each name
-/

namespace EntitySql

/-! ### Groups -/

namespace Groups

/-- A column is in a group only if it was added to it. -/
theorem mem_of_mem_add {groups : Groups} {name column : String} {g : String × List String}
    (hg : g ∈ groups.add name column) {x : String} (hx : x ∈ g.2) :
    (g.1 = name ∧ x = column) ∨ ∃ h ∈ groups, h.1 = g.1 ∧ x ∈ h.2 := by
  induction groups with
  | nil =>
    obtain rfl : g = (name, [column]) := by simpa [add] using hg
    exact .inl ⟨rfl, by simpa using hx⟩
  | cons first rest ih =>
    obtain ⟨n, columns⟩ := first
    rw [add] at hg
    split at hg
    · next hn =>
      subst hn
      rcases List.mem_cons.mp hg with rfl | hrest
      · by_cases hin : columns.contains column
        · exact .inr ⟨_, List.mem_cons_self, rfl, by rwa [if_pos hin] at hx⟩
        · rw [if_neg hin] at hx
          have hx' : x ∈ columns ∨ x = column := by simpa using hx
          rcases hx' with hx | rfl
          · exact .inr ⟨_, List.mem_cons_self, rfl, hx⟩
          · exact .inl ⟨rfl, rfl⟩
      · exact .inr ⟨g, List.mem_cons_of_mem _ hrest, rfl, hx⟩
    · rcases List.mem_cons.mp hg with rfl | hrest
      · exact .inr ⟨_, List.mem_cons_self, rfl, hx⟩
      · rcases ih hrest with hnew | ⟨h, hh, hname, hmem⟩
        · exact .inl hnew
        · exact .inr ⟨h, List.mem_cons_of_mem _ hh, hname, hmem⟩

/-- The columns of a collected group are those of its members. -/
theorem mem_of_mem_collect {members : List (String × String)} {g : String × List String}
    (hg : g ∈ collect members) {x : String} (hx : x ∈ g.2) : (g.1, x) ∈ members := by
  have hfold : ∀ (groups : Groups), g ∈ members.foldl (fun groups m => groups.add m.1 m.2) groups →
      (g.1, x) ∈ members ∨ ∃ h ∈ groups, h.1 = g.1 ∧ x ∈ h.2 := by
    clear hg
    induction members with
    | nil => exact fun groups hg => .inr ⟨g, hg, rfl, hx⟩
    | cons m members ih =>
      intro groups hg
      rcases ih _ hg with hmem | ⟨h, hh, hname, hmem⟩
      · exact .inl (List.mem_cons_of_mem _ hmem)
      · rcases mem_of_mem_add hh hmem with ⟨hm, rfl⟩ | ⟨k, hk, hkname, hkmem⟩
        · exact .inl (by rw [← hname, hm]; exact List.mem_cons_self)
        · exact .inr ⟨k, hk, hkname.trans hname, hkmem⟩
  rcases hfold [] hg with hmem | ⟨h, hh, -⟩
  · exact hmem
  · exact absurd hh List.not_mem_nil

/-- No group is empty to which columns are added. -/
theorem ne_nil_of_mem_add {groups : Groups} {name column : String}
    (h : ∀ g ∈ groups, g.2 ≠ []) {g : String × List String} (hg : g ∈ groups.add name column) :
    g.2 ≠ [] := by
  induction groups with
  | nil =>
    obtain rfl : g = (name, [column]) := by simpa [add] using hg
    exact List.cons_ne_nil column []
  | cons first rest ih =>
    obtain ⟨n, columns⟩ := first
    have hfirst : columns ≠ [] := h _ List.mem_cons_self
    have hrest : ∀ g ∈ rest, g.2 ≠ [] := fun g hg => h g (List.mem_cons_of_mem _ hg)
    rw [add] at hg
    split at hg
    · rcases List.mem_cons.mp hg with rfl | hg
      · split
        · exact hfirst
        · simp
      · exact hrest g hg
    · rcases List.mem_cons.mp hg with rfl | hg
      · exact hfirst
      · exact ih hrest hg

theorem ne_nil_of_mem_collect {members : List (String × String)} {g : String × List String}
    (hg : g ∈ collect members) : g.2 ≠ [] := by
  have hfold : ∀ (groups : Groups), (∀ g ∈ groups, g.2 ≠ []) →
      ∀ g ∈ members.foldl (fun groups m => groups.add m.1 m.2) groups, g.2 ≠ [] := by
    clear hg
    induction members with
    | nil => exact fun groups h => h
    | cons m members ih => exact fun groups h => ih _ fun g hg => ne_nil_of_mem_add h hg
  exact hfold [] (by simp) g hg

end Groups

/-! ### The columns of a constraint as a set -/

namespace Unique

theorem mem_eraseRepsBy_loop {a x : String} {as acc : List String} :
    x ∈ List.eraseRepsBy.loop (· == ·) a as acc ↔ x = a ∨ x ∈ as ∨ x ∈ acc := by
  induction as generalizing a acc with
  | nil => simp [List.eraseRepsBy.loop, or_comm]
  | cons b as ih =>
    rw [List.eraseRepsBy.loop]
    cases hab : a == b with
    | true =>
      obtain rfl := eq_of_beq hab
      rw [ih, List.mem_cons]
      grind
    | false =>
      rw [ih, List.mem_cons, List.mem_cons]
      grind

theorem mem_eraseReps {x : String} {xs : List String} : x ∈ xs.eraseReps ↔ x ∈ xs := by
  cases xs with
  | nil => rfl
  | cons a as =>
    rw [List.eraseReps, List.eraseRepsBy, mem_eraseRepsBy_loop]
    simp

/-- The set of a constraint has the lower-case forms of its columns. -/
theorem mem_columnSet {u : Unique} {x : String} :
    x ∈ u.columnSet ↔ ∃ c ∈ u.columns, Text.lowercase c = x := by
  rw [columnSet, mem_eraseReps, List.mem_mergeSort, List.mem_map]

end Unique

namespace Model

/-- Names that are the same find the same column. -/
theorem column?_congr (m : Model) {a b : String} (h : Text.sameName a b = true) :
    m.column? a = m.column? b := by
  have hkey : Text.foldCase a = Text.foldCase b := Text.sameName_iff.mp h
  simp only [column?, Text.sameName, hkey]

theorem isSome_column?_iff {m : Model} {name : String} :
    (m.column? name).isSome = true ↔ ∃ c ∈ m.columns, Text.sameName c.name name = true :=
  List.find?_isSome

/-- The columns of a model are consistent, and its groups are over its columns. -/
structure Valid (m : Model) : Prop where
  /-- No two columns have one name. -/
  distinct : m.columns.Pairwise fun a b => Text.sameName a.name b.name = false
  /-- Only a key is numbered by the database. -/
  key_of_autoincrement : ∀ c ∈ m.columns, c.autoincrement = true → c.primaryKey = true
  /-- There is at most one key. -/
  one_key : (m.columns.filter (·.primaryKey)).length ≤ 1
  /-- Indexes are over columns of the model. -/
  index_columns : ∀ i ∈ m.indexes, ∀ x ∈ i.columns, x ∈ m.columnNames
  /-- Constraints are over columns of the model. -/
  unique_columns : ∀ u ∈ m.uniques, ∀ x ∈ u.columns, x ∈ m.columnNames
  /-- No index is empty. -/
  index_nonempty : ∀ i ∈ m.indexes, i.columns ≠ []
  /-- Constraints are over several columns. -/
  unique_several : ∀ u ∈ m.uniques, 1 < u.columns.length

/-- What the check of the columns finds out. -/
theorem of_columnFault?_eq_none {seen : List String} {cs : List Column}
    (h : columnFault? seen cs = none) :
    cs.Pairwise (fun a b => Text.sameName a.name b.name = false) ∧
      (∀ c ∈ cs, c.autoincrement = true → c.primaryKey = true) ∧
      ∀ s ∈ seen, ∀ c ∈ cs, Text.sameName s c.name = false := by
  induction cs generalizing seen with
  | nil => simp
  | cons c cs ih =>
    rw [columnFault?] at h
    split at h
    · simp at h
    · next hseen =>
      split at h
      · simp at h
      · next hkey =>
        obtain ⟨hpairs, hkeys, hnew⟩ := ih h
        have hseen' : ∀ s ∈ seen, Text.sameName s c.name = false := by simpa using hseen
        refine ⟨List.pairwise_cons.mpr ⟨fun b hb => ?_, hpairs⟩, fun b hb hauto => ?_,
          fun s hs b hb => ?_⟩
        · exact hnew c.name (List.mem_append_right _ List.mem_cons_self) b hb
        · rcases List.mem_cons.mp hb with rfl | hb
          · simpa [hauto] using hkey
          · exact hkeys b hb hauto
        · rcases List.mem_cons.mp hb with rfl | hb
          · exact hseen' s hs
          · exact hnew s (List.mem_append_left _ hs) b hb

theorem nameOf_mem_columnNames {name : String} {storage : Storage} {fields : List Field}
    {f : Field} (hf : f ∈ fields) :
    Column.nameOf f ∈ (ofFields name storage fields).columnNames := by
  simp only [ofFields, columnNames, List.map_map, List.mem_map]
  exact ⟨f, hf, rfl⟩

/-- **A model that is built is valid.** -/
theorem valid_of_build {mapping : Mapping} {m : Model} (h : build mapping = .ok m) : m.Valid := by
  obtain ⟨fields, hm⟩ : ∃ fields, m = ofFields mapping.name mapping.storage fields := by
    refine ⟨mapping.fields.filter (!·.ignored), ?_⟩
    rw [build] at h
    split at h
    · simp at h
    · exact (Except.ok.inj h).symm
  have hfault : m.fault? = none := by
    rw [build] at h
    split at h
    · simp at h
    · next hnone =>
      rw [← Except.ok.inj h]
      exact hnone
  have hkeys : (m.columns.filter (·.primaryKey)).length ≤ 1 ∧ columnFault? [] m.columns = none := by
    rw [fault?] at hfault
    split at hfault
    · simp at hfault
    · next hone => exact ⟨by simpa using hone, hfault⟩
  obtain ⟨hdistinct, hauto, -⟩ := of_columnFault?_eq_none hkeys.2
  refine ⟨hdistinct, hauto, hkeys.1, fun i hi x hx => ?_, fun u hu x hx => ?_, fun i hi => ?_,
    fun u hu => ?_⟩
  · subst hm
    simp only [ofFields, List.mem_map] at hi
    obtain ⟨g, hg, rfl⟩ := hi
    have hmem := Groups.mem_of_mem_collect hg hx
    simp only [List.mem_flatMap, indexMembers, List.mem_map] at hmem
    obtain ⟨f, hf, member, -, heq⟩ := hmem
    have hname : x = Column.nameOf f := by
      cases member <;> exact (congrArg Prod.snd heq).symm
    rw [hname]
    exact nameOf_mem_columnNames hf
  · subst hm
    simp only [ofFields, List.mem_map, List.mem_filter] at hu
    obtain ⟨g, ⟨hg, -⟩, rfl⟩ := hu
    have hmem := Groups.mem_of_mem_collect hg hx
    simp only [List.mem_flatMap, uniqueMembers, List.mem_filterMap] at hmem
    obtain ⟨f, hf, member, -, heq⟩ := hmem
    have hname : x = Column.nameOf f := by
      cases member with
      | alone => simp at heq
      | inGroup n => exact (congrArg Prod.snd (Option.some.inj heq)).symm
    rw [hname]
    exact nameOf_mem_columnNames hf
  · subst hm
    simp only [ofFields, List.mem_map] at hi
    obtain ⟨g, hg, rfl⟩ := hi
    exact Groups.ne_nil_of_mem_collect hg
  · subst hm
    simp only [ofFields, List.mem_map, List.mem_filter] at hu
    obtain ⟨g, ⟨hg, hlength⟩, rfl⟩ := hu
    have hpos : 0 < g.2.length := List.length_pos_iff.mpr (Groups.ne_nil_of_mem_collect hg)
    have hne : g.2.length ≠ 1 := by simpa using hlength
    simp only
    omega

namespace Valid

variable {m : Model} (hm : m.Valid)

include hm

/-- A valid model has one column of each name. -/
theorem eq_of_sameName {a b : Column} (ha : a ∈ m.columns) (hb : b ∈ m.columns)
    (h : Text.sameName a.name b.name = true) : a = b :=
  Text.eq_of_sameName_of_pairwise hm.distinct ha hb h

/-- Names of columns that are the same are spelled the same. -/
theorem eq_of_sameNames {xs ys : List String} (hx : ∀ x ∈ xs, x ∈ m.columnNames)
    (hy : ∀ y ∈ ys, y ∈ m.columnNames) (h : Text.sameNames xs ys = true) : xs = ys := by
  rw [Text.sameNames, beq_iff_eq] at h
  induction xs generalizing ys with
  | nil => simpa using h
  | cons x xs ih =>
    cases ys with
    | nil => simp at h
    | cons y ys =>
      obtain ⟨hname, hrest⟩ := List.cons.inj h
      obtain ⟨a, ha, rfl⟩ := List.mem_map.mp (hx x List.mem_cons_self)
      obtain ⟨b, hb, rfl⟩ := List.mem_map.mp (hy y List.mem_cons_self)
      rw [hm.eq_of_sameName ha hb (Text.sameName_iff.mpr hname),
        ih (fun z hz => hx z (List.mem_cons_of_mem _ hz))
          (fun z hz => hy z (List.mem_cons_of_mem _ hz)) hrest]

/-- A column is found by its name, in any case. -/
theorem column?_eq_some {c : Column} (hc : c ∈ m.columns) {name : String}
    (h : Text.sameName c.name name = true) : m.column? name = some c :=
  Text.find?_of_pairwise hm.distinct hc h

end Valid

end Model

end EntitySql
