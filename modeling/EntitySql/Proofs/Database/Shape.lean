import EntitySql.Proofs.Database.Numbering

/-!
# The columns and indexes of a table

What holds of the columns and the indexes of every table, whatever rows it has. No two columns have
one name, and every index is over columns of its table: a statement that would take a column away
from under an index is refused. An index that a statement has not created enforces a constraint, so
it is unique, and the names of those that statements have created are not reserved.

Every statement keeps this, so it holds of every database that texts have made of an empty one.

## Main definitions

* `StoredTable.Shaped`, `Database.Shaped`: what holds of the columns and the indexes of a table

## Main results

* `StoredTable.map_withoutColumn`: the columns behind one that is dropped stay
* `StoredTable.isInvariant_shaped`, `Database.Step.shaped`: every statement leaves it so
* `Database.ReachedUnlinked.shaped`: so it is in every database that is reached
-/

namespace EntitySql

/-! ### Names -/

/-- If no name is found twice, no two names are the same. -/
theorem TableClause.pairwise_of_repeatedName? {names : List String}
    (h : repeatedName? names = none) : names.Pairwise fun a b => Text.sameName a b = false := by
  induction names with
  | nil => exact .nil
  | cons n names ih =>
    rw [repeatedName?, Option.or_eq_none_iff] at h
    exact List.pairwise_cons.mpr ⟨by simpa using h.2, ih h.1⟩

namespace StoredTable

variable {t t' : StoredTable}

/-- The names of an index are spelled as the columns that have them. -/
theorem forall₂_of_spell {names spelled : List String} (h : t.spell names = .ok spelled) :
    List.Forall₂ (fun n s => Text.sameName s n = true ∧ (t.column? s).isSome = true) names
      spelled := by
  refine (mapM_eq_ok_iff.mp h).imp fun n s hs => ?_
  split at hs
  · next c hc =>
    have hfound : c ∈ t.columns ∧ Text.sameName c.name n = true := Text.of_find?_eq_some hc
    obtain rfl := Except.ok.inj hs
    exact ⟨hfound.2, List.find?_isSome.mpr ⟨c, hfound.1, Text.sameName_refl c.name⟩⟩
  · cases hs

theorem isSome_column?_of_spell {names spelled : List String} (h : t.spell names = .ok spelled) :
    ∀ x ∈ spelled, (t.column? x).isSome = true := by
  intro x hx
  obtain ⟨n, -, hn⟩ := Text.exists_mem_of_forall₂ (forall₂_of_spell h) hx
  exact hn.2

/-- No index is over a column that is not there. -/
theorem isSome_column?_of_brokenIndex? {occasion : String} (h : t.brokenIndex? occasion = none) :
    ∀ i ∈ t.indexes, ∀ x ∈ i.columns, (t.column? x).isSome = true := by
  intro i hi x hx
  have hnone := List.findSome?_eq_none_iff.mp h i (List.mem_reverse.mpr hi)
  have hsome := List.find?_eq_none.mp (Option.map_eq_none_iff.mp hnone) x hx
  rwa [Bool.not_eq_true, Option.isNone_eq_false_iff] at hsome

/-- The columns behind one that is dropped stay, with another lead at most. -/
theorem map_withoutColumn {α : Type} {f : StoredColumn → α}
    (hf : ∀ (c : StoredColumn) (lead : String), f { c with lead } = f c) (p : Nat)
    (cs : List StoredColumn) : (withoutColumn p cs).map f = (cs.map f).eraseIdx p := by
  induction cs generalizing p with
  | nil => cases p <;> rfl
  | cons c cs ih =>
    cases p with
    | zero =>
      cases cs with
      | nil => rfl
      | cons next rest => simp [withoutColumn, hf]
    | succ p => simp [withoutColumn, ih p]

/-! ### Tables -/

/-- What holds of the columns and the indexes of a table. -/
structure Shaped (t : StoredTable) : Prop where
  /-- No two columns have one name. -/
  distinct : t.columns.Pairwise fun a b => Text.sameName a.name b.name = false
  /-- Indexes are over columns of the table. -/
  covered : ∀ i ∈ t.indexes, ∀ x ∈ i.columns, (t.column? x).isSome = true
  /-- The indexes that statements have created have no reserved names. -/
  free : ∀ i ∈ t.indexes, i.origin = .statement → isReservedName i.name = false
  /-- The others are unique. -/
  unique : ∀ i ∈ t.indexes, i.origin ≠ .statement → i.unique = true

/-- Rows do not matter. -/
theorem Shaped.of_eq (h : t.Shaped) (hcolumns : t'.columns = t.columns)
    (hindexes : t'.indexes = t.indexes) : t'.Shaped := by
  have hcolumn : t'.column? = t.column? := by
    funext x
    rw [column?, column?, hcolumns]
  refine ⟨hcolumns ▸ h.distinct, ?_, hindexes ▸ h.free, hindexes ▸ h.unique⟩
  rw [hindexes, hcolumn]
  exact h.covered

/-- The table of a definition. -/
theorem shaped_ofClause {clause : TableClause} (h : ofClause clause = .ok t) : t.Shaped := by
  obtain ⟨hnames, hfold⟩ := ofClause_cases h
  have hconstraints : t.columns = (bare clause).columns ∧ ∀ i ∈ t.indexes,
      i.unique = true ∧ ∀ x ∈ i.columns, (t.column? x).isSome = true := by
    refine foldlM_invariant (d := []) (P := fun _ u => u.columns = (bare clause).columns ∧
      ∀ i ∈ u.indexes, i.unique = true ∧ ∀ x ∈ i.columns, (u.column? x).isSome = true)
      (fun done k _ u u' hu hstep => ?_) ⟨rfl, by simp [bare]⟩ hfold
    obtain ⟨spelled, hspelled, hstep⟩ := exists_of_bind_eq_ok hstep
    split at hstep
    · rwa [← Except.ok.inj hstep]
    · rw [← Except.ok.inj hstep, addConstraint]
      split
      · refine ⟨hu.1, fun i hi => ?_⟩
        obtain ⟨j, hj, rfl⟩ := List.mem_map.mp hi
        split <;> exact hu.2 j hj
      · refine ⟨hu.1, fun i hi => ?_⟩
        rcases List.mem_cons.mp hi with rfl | hi
        · exact ⟨rfl, isSome_column?_of_spell hspelled⟩
        · exact hu.2 i hi
  have horigin := indexes_ofClause h
  refine ⟨?_, fun i hi => (hconstraints.2 i hi).2, fun i hi hstatement => ?_,
    fun i hi _ => (hconstraints.2 i hi).1⟩
  · rw [hconstraints.1, bare, List.pairwise_map]
    exact List.pairwise_map.mp (TableClause.pairwise_of_repeatedName? hnames)
  · exact absurd hstatement (horigin i hi).1

theorem Shaped.createIndex (h : t.Shaped) {name : String} {columns spelled : List String}
    (unique : Bool) (hname : isReservedName name = false)
    (hspelled : t.spell columns = .ok spelled) :
    Shaped { t with indexes := ⟨name, spelled, unique, .statement⟩ :: t.indexes } := by
  refine ⟨h.distinct, fun i hi => ?_, fun i hi => ?_, fun i hi => ?_⟩ <;>
    rcases List.mem_cons.mp hi with rfl | hi
  · exact isSome_column?_of_spell hspelled
  · exact h.covered i hi
  · exact fun _ => hname
  · exact h.free i hi
  · exact fun horigin => absurd rfl horigin
  · exact h.unique i hi

theorem Shaped.rename (h : t.Shaped) (name : String) : (t.rename name).Shaped := by
  refine ⟨h.distinct, fun i hi => ?_, fun i hi => ?_, fun i hi => ?_⟩ <;>
    obtain ⟨j, hj, rfl⟩ := List.mem_map.mp hi <;> split
  · exact h.covered j hj
  · exact h.covered j hj
  · exact h.free j hj
  · next horigin => exact fun hstatement => absurd hstatement horigin
  · exact h.unique j hj
  · exact h.unique j hj

theorem Shaped.addColumn (h : t.Shaped) {b : Bindings} {c : ColumnClause}
    (hadd : t.addColumn b c = .ok t') : t'.Shaped := by
  obtain ⟨hnew, -, -, cell, rfl⟩ := addColumn_cases hadd
  refine ⟨List.pairwise_append.mpr ⟨h.distinct, List.pairwise_singleton _ _, fun a ha a' ha' => ?_⟩,
    fun i hi x hx => ?_, h.free, h.unique⟩
  · obtain rfl := List.mem_singleton.mp ha'
    exact Bool.eq_false_iff.mpr (List.find?_eq_none.mp hnew a ha)
  · obtain ⟨a, ha, hname⟩ := List.find?_isSome.mp (h.covered i hi x hx)
    exact List.find?_isSome.mpr ⟨a, List.mem_append_left _ ha, hname⟩

theorem Shaped.dropColumn (h : t.Shaped) {name written occasion : String}
    (hdrop : t.dropColumn name written = .ok t') (hindexes : t'.brokenIndex? occasion = none) :
    t'.Shaped := by
  obtain ⟨p, -, -, -, -, rfl⟩ := dropColumn_cases hdrop
  refine ⟨?_, isSome_column?_of_brokenIndex? hindexes, h.free, h.unique⟩
  have hnames : (t.columns.map StoredColumn.name).Pairwise fun a b => Text.sameName a b = false :=
    List.pairwise_map.mpr h.distinct
  have hleft : ((withoutColumn p t.columns).map StoredColumn.name).Pairwise
      fun a b => Text.sameName a b = false := by
    rw [map_withoutColumn fun _ _ => rfl]
    exact hnames.sublist (List.eraseIdx_sublist _ _)
  exact List.pairwise_map.mp hleft

/-- **However a table is changed**, this holds of its columns and indexes. -/
theorem isInvariant_shaped : IsInvariant Shaped where
  created _ h := shaped_ofClause h
  sequences := ⟨by decide, by simp [sequences], by simp [sequences], by simp [sequences]⟩
  indexed unique h hname hspelled := h.createIndex unique hname hspelled
  unindexed p h := ⟨h.distinct, fun i hi => h.covered i (List.mem_filter.mp hi).1,
    fun i hi => h.free i (List.mem_filter.mp hi).1,
    fun i hi => h.unique i (List.mem_filter.mp hi).1⟩
  renamed h _ := h.rename _
  columnAdded h _ hadd := h.addColumn hadd
  columnDropped h _ hdrop hindexes := h.dropColumn hdrop hindexes
  inserted h hinsert := by
    obtain ⟨-, -, -, -, rfl⟩ := insertRow_cases hinsert
    exact h.of_eq rfl rfl
  replaced h hreplace := by
    obtain ⟨m, -, rfl⟩ := replaceRow_cases hreplace
    exact h.of_eq rfl rfl
  deleted _ h := h.of_eq rfl rfl
  recounted _ _ h := h.of_eq rfl rfl
  counted _ h := h.of_eq rfl rfl

end StoredTable

/-! ### Databases -/

namespace Database

variable {db db' : Database}

/-- Tables and indexes have names of their own, and the tables columns and indexes as they should
be. -/
structure Shaped (db : Database) : Prop where
  named : db.Named
  tables : ∀ t ∈ db.tables, t.Shaped

theorem shaped_empty : Shaped {} := ⟨named_empty, by simp⟩

theorem Shaped.of_table? (h : db.Shaped) {name : String} {t : StoredTable}
    (ht : db.table? name = some t) : t.Shaped :=
  h.tables t (Database.of_table? ht).1

/-- **Every statement** leaves the columns and indexes as they should be. -/
theorem Step.shaped (h : db.Step db') (hdb : db.Shaped) : db'.Shaped :=
  ⟨h.named hdb.named, h.forall_tables StoredTable.isInvariant_shaped hdb.named hdb.tables⟩

/-- So does every text of statements. -/
theorem shaped_execute {c : Connection} (hc : c.database.Shaped) (sql : String)
    (params : List Value) : (c.execute sql params).2.database.Shaped :=
  Connection.execute_invariant (P := fun d => d.database.Shaped)
    (fun hd hrun => (Connection.step_perform (Connection.perform_of_run hrun)).shaped hd) hc sql
    params

/-- **In every database that is reached** the columns and indexes are as they should be. -/
theorem ReachedUnlinked.shaped (h : db.ReachedUnlinked) : db.Shaped := by
  induction h with
  | empty => exact shaped_empty
  | @execute c sql params _ _ ih => exact shaped_execute ih sql params

end Database

end EntitySql
