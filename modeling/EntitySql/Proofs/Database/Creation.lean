import EntitySql.Catalog.Snapshot
import EntitySql.Database.Definition
import EntitySql.Proofs.Database.Effects
import EntitySql.Proofs.Database.Statement
import EntitySql.Proofs.Names
import EntitySql.Proofs.Outcome

/-!
# Tables that are created

A definition that declares a model creates a table that holds what the model declares: the columns
in order, and an index of its own for each constraint. Two constraints share an index only where
they are over the same columns, and then they are of one kind, because a model has one column of
each name and its uniqueness groups have several columns. Creating the indexes of the model adds
them in front.

## Main definitions

* `StoredTable.Holds`: a table holds what a model declares, and some of its indexes
* `Database.Has`: a database has a table, and no other of its name

## Main results

* `StoredTable.holds_of_ofClause`: the table of a definition holds what the model declares
* `StoredTable.Holds.createIndex`: with another index it holds one more
* `Database.has_createTable`, `Database.has_createIndex`: what the two statements do to a database
-/

namespace EntitySql

/-! ### Columns -/

/-- The column that is stored is the one that the model declares. -/
structure StoredColumn.Stores (s : StoredColumn) (c : Column) : Prop where
  /-- It has the name. -/
  name : s.name = c.name
  /-- It has the native type. -/
  type : s.type = Sqlite.nativeType c.type
  /-- It belongs to the key if the model says so. -/
  inKey : s.inKey = c.primaryKey
  /-- It rejects a missing value if the model says so. -/
  requiresValue : (s.required || s.inKey) = c.requiresValue

/-- What is looked for among the rules of a column is not found among its defaults. -/
theorem any_rules {p : ColumnRule → Bool} (hp : ∀ q written, p (.default q written) = false)
    {c : Column} {clause : ColumnClause} (h : clause.Declares c) :
    clause.rules.any p = c.rules.any p := by
  obtain ⟨ds, hrules, hds⟩ := h.rules
  have hnone : ds.any p = false := by
    rw [List.any_eq_false]
    intro r hr
    obtain ⟨q, written, rfl⟩ := hds r hr
    simp [hp]
  rw [hrules, List.any_append, hnone, Bool.or_false]

theorem filterMap_rules {α : Type} {f : ColumnRule → Option α}
    (hf : ∀ q written, f (.default q written) = none) {c : Column} {clause : ColumnClause}
    (h : clause.Declares c) : clause.rules.filterMap f = c.rules.filterMap f := by
  obtain ⟨ds, hrules, hds⟩ := h.rules
  have hnone : ds.filterMap f = [] := by
    rw [List.filterMap_eq_nil_iff]
    intro r hr
    obtain ⟨q, written, rfl⟩ := hds r hr
    exact hf q written
  rw [hrules, List.filterMap_append, hnone, List.append_nil]

theorem stores_ofClause {clause : ColumnClause} {c : Column} (h : clause.Declares c) :
    (StoredColumn.ofClause clause c.primaryKey).Stores c := by
  refine ⟨h.name, h.type, rfl, ?_⟩
  have hrequired : (StoredColumn.ofClause clause c.primaryKey).required = c.rules.any _ :=
    any_rules (fun q written => rfl) h
  rw [hrequired, StoredColumn.ofClause, Column.requiresValue, Column.rules]
  cases c.primaryKey <;> cases c.notNull <;> cases c.unique <;> rfl

/-! ### Keys and constraints -/

theorem flatMap_eq_of_forall₂ {α β γ : Type} {R : α → β → Prop} {f : α → List γ} {g : β → List γ}
    (hfg : ∀ a b, R a b → f a = g b) {xs : List α} {ys : List β} (h : List.Forall₂ R xs ys) :
    xs.flatMap f = ys.flatMap g := by
  induction h with
  | nil => rfl
  | cons hab _ ih => rw [List.flatMap_cons, List.flatMap_cons, hfg _ _ hab, ih]

/-- The constraint that the definition of a column holds, if any. -/
def Column.constraint? (c : Column) : Option (IndexOrigin × List String) :=
  if c.primaryKey then some (.key, [c.name])
  else if c.unique then some (.unique, [c.name]) else none

theorem Column.columns_constraint? {c : Column} {k : IndexOrigin × List String}
    (h : c.constraint? = some k) : k.2 = [c.name] := by
  rw [Column.constraint?] at h
  split at h
  · rw [← Option.some.inj h]
  · split at h
    · rw [← Option.some.inj h]
    · simp at h

/-- The constraints of a model in the order in which their indexes are made. -/
def Model.constraints (m : Model) : List (IndexOrigin × List String) :=
  m.columns.filterMap Column.constraint? ++ m.uniques.map fun u => (.unique, u.columns)

namespace TableClause.Declares

variable {clause : TableClause} {m : Model} (h : clause.Declares m)

include h

/-- The keys are the key columns, and numbered if the model says so. -/
theorem keys : clause.keys =
    (m.columns.filter (·.primaryKey)).map fun c => ([c.name], c.autoincrement) := by
  have hkeys : ∀ cs : List Column, cs.flatMap (fun c =>
      if c.primaryKey then [([c.name], c.autoincrement)] else []) =
        (cs.filter (·.primaryKey)).map fun c => ([c.name], c.autoincrement) := by
    intro cs
    induction cs with
    | nil => rfl
    | cons c cs ih => cases hkey : c.primaryKey <;> simp [hkey, ih]
  rw [← hkeys, TableClause.keys, ← List.append_nil (List.flatMap _ m.columns)]
  refine congrArg₂ (· ++ ·) (flatMap_eq_of_forall₂ (fun column c hc => ?_) h.columns) ?_
  · rw [filterMap_rules (fun q written => rfl) hc, Column.rules, hc.name]
    cases c.primaryKey <;> cases c.notNull <;> cases c.unique <;> rfl
  · rw [h.rules, List.filterMap_map, List.filterMap_eq_nil_iff]
    exact fun u hu => rfl

theorem constraints : clause.constraints = m.constraints := by
  have hconstraints : ∀ cs : List Column, cs.flatMap (fun c => c.constraint?.toList) =
      cs.filterMap Column.constraint? := by
    intro cs
    induction cs with
    | nil => rfl
    | cons c cs ih => cases hc : c.constraint? <;> simp [hc, ih]
  rw [TableClause.constraints, Model.constraints, ← hconstraints]
  refine congrArg₂ (· ++ ·) (flatMap_eq_of_forall₂ (fun column c hc => ?_) h.columns) ?_
  · rw [filterMap_rules (fun q written => rfl) hc, Column.rules, Column.constraint?, hc.name]
    cases c.primaryKey <;> cases c.notNull <;> cases c.unique <;> rfl
  · rw [h.rules, List.map_map]
    rfl

end TableClause.Declares

namespace Model.Valid

variable {m : Model} (hm : m.Valid)

include hm

/-- Constraints are over columns of the model. -/
theorem constraint_columns {k : IndexOrigin × List String} (hk : k ∈ m.constraints) :
    ∀ x ∈ k.2, x ∈ m.columnNames := by
  rcases List.mem_append.mp hk with hk | hk
  · obtain ⟨c, hc, hsome⟩ := List.mem_filterMap.mp hk
    intro x hx
    obtain rfl : x = c.name := by simpa [Column.columns_constraint? hsome] using hx
    exact List.mem_map_of_mem hc
  · obtain ⟨u, hu, rfl⟩ := List.mem_map.mp hk
    exact hm.unique_columns u hu

/-- Constraints over the same columns are of one kind. -/
theorem constraint_origin {k k' : IndexOrigin × List String} (hk : k ∈ m.constraints)
    (hk' : k' ∈ m.constraints) (h : k.2 = k'.2) : k.1 = k'.1 := by
  -- a constraint of several columns is no constraint of one column
  have hseveral : ∀ {a b : IndexOrigin × List String}, a ∈ m.columns.filterMap Column.constraint? →
      b ∈ m.uniques.map (fun u => (IndexOrigin.unique, u.columns)) → a.2 ≠ b.2 := by
    intro a b ha hb hab
    obtain ⟨c, -, hc⟩ := List.mem_filterMap.mp ha
    obtain ⟨u, hu, rfl⟩ := List.mem_map.mp hb
    have hlength := hm.unique_several u hu
    rw [Column.columns_constraint? hc] at hab
    have hone : [c.name].length = u.columns.length := congrArg List.length hab
    rw [← hone] at hlength
    simp at hlength
  rcases List.mem_append.mp hk with hk | hk <;> rcases List.mem_append.mp hk' with hk' | hk'
  · obtain ⟨c, hc, hsome⟩ := List.mem_filterMap.mp hk
    obtain ⟨c', hc', hsome'⟩ := List.mem_filterMap.mp hk'
    have hname : c.name = c'.name := by
      rw [Column.columns_constraint? hsome, Column.columns_constraint? hsome'] at h
      exact (List.cons.inj h).1
    obtain rfl := hm.eq_of_sameName hc hc' (by rw [hname]; exact Text.sameName_refl _)
    exact congrArg Prod.fst (Option.some.inj (hsome.symm.trans hsome'))
  · exact absurd h (hseveral hk hk')
  · exact absurd h.symm (hseveral hk' hk)
  · obtain ⟨u, -, rfl⟩ := List.mem_map.mp hk
    obtain ⟨u', -, rfl⟩ := List.mem_map.mp hk'
    rfl

/-- The constraint of a column over that column alone is its uniqueness. -/
theorem unique_iff {c : Column} (hc : c ∈ m.columns) :
    (∃ k ∈ m.constraints, k.1 = .unique ∧ ∃ n, k.2 = [n] ∧ Text.sameName c.name n = true) ↔
      c.unique = true ∧ c.primaryKey = false := by
  constructor
  · rintro ⟨k, hk, horigin, n, hcolumns, hname⟩
    rcases List.mem_append.mp hk with hk | hk
    · obtain ⟨b, hb, hsome⟩ := List.mem_filterMap.mp hk
      have hbn : b.name = n := by
        rw [Column.columns_constraint? hsome] at hcolumns
        exact (List.cons.inj hcolumns).1
      obtain rfl := hm.eq_of_sameName hc hb (by rw [hbn]; exact hname)
      cases hkey : c.primaryKey with
      | true =>
        rw [Column.constraint?, hkey, if_pos rfl] at hsome
        rw [← Option.some.inj hsome] at horigin
        simp at horigin
      | false =>
        refine ⟨?_, rfl⟩
        by_contra hunique
        simp [Column.constraint?, hkey, hunique] at hsome
    · obtain ⟨u, hu, rfl⟩ := List.mem_map.mp hk
      have hlength := hm.unique_several u hu
      have hone : u.columns = [n] := hcolumns
      simp [hone] at hlength
  · rintro ⟨hunique, hkey⟩
    refine ⟨(.unique, [c.name]), List.mem_append_left _ (List.mem_filterMap.mpr ⟨c, hc, ?_⟩), rfl,
      c.name, rfl, Text.sameName_refl c.name⟩
    simp [Column.constraint?, hunique, hkey]

end Model.Valid

/-! ### Stored tables -/

namespace StoredTable

/-- The columns of a table are found as those of the model. -/
theorem exists_column? {t : StoredTable} {m : Model}
    (h : List.Forall₂ StoredColumn.Stores t.columns m.columns) {n : String} {c : Column}
    (hc : m.column? n = some c) : ∃ s, t.column? n = some s ∧ s.Stores c := by
  have hrel : Option.Rel StoredColumn.Stores (t.column? n) (m.column? n) :=
    Text.rel_find? (fun s c hs => by rw [hs.name]) h
  rw [hc] at hrel
  exact Text.exists_of_rel_some hrel

/-- Names as the model spells them are spelled so in the table. -/
theorem spell_eq {t : StoredTable} {m : Model} (hm : m.Valid)
    (h : List.Forall₂ StoredColumn.Stores t.columns m.columns) {ns : List String}
    (hns : ∀ n ∈ ns, n ∈ m.columnNames) : t.spell ns = .ok ns := by
  rw [spell]
  induction ns with
  | nil => rfl
  | cons n ns ih =>
    obtain ⟨c, hc, rfl⟩ := List.mem_map.mp (hns n List.mem_cons_self)
    obtain ⟨s, hs, hstores⟩ := exists_column? h (hm.column?_eq_some hc (Text.sameName_refl c.name))
    rw [List.mapM_cons, ih fun x hx => hns x (List.mem_cons_of_mem _ hx), hs]
    simp [hstores.name]

/-- A constraint adds an index, unless there is one that enforces it. -/
theorem addConstraint_cases {t : StoredTable} {origin : IndexOrigin} {columns : List String}
    (h : ∀ i ∈ t.indexes, Text.sameNames i.columns columns = true →
      i.origin = origin ∧ i.columns = columns) :
    (t.addConstraint origin columns = t ∧
        ∃ i ∈ t.indexes, i.origin = origin ∧ i.columns = columns) ∨
      ∃ name, t.addConstraint origin columns =
        { t with indexes := ⟨name, columns, true, origin⟩ :: t.indexes } := by
  rw [addConstraint]
  split
  · next hany =>
    obtain ⟨i, hi, hsame⟩ := List.any_eq_true.mp hany
    refine .inl ⟨?_, i, hi, h i hi hsame⟩
    have hmap : (t.indexes.map fun i =>
        if Text.sameNames i.columns columns && origin == .key then { i with origin := .key }
        else i) = t.indexes := by
      rw [List.map_congr_left (g := id) fun i hi => ?_, List.map_id]
      split
      · next hkey =>
        simp only [Bool.and_eq_true, beq_iff_eq] at hkey
        rw [← hkey.2, ← (h i hi hkey.1).1]
        rfl
      · rfl
    rw [hmap]
  · exact .inr ⟨_, rfl⟩

/-- A table holds what a model declares, and of the indexes of the model the given ones, which were
created in that order. -/
structure Holds (t : StoredTable) (m : Model) (created : List Index) : Prop where
  /-- It has the name. -/
  name : t.name = m.name
  /-- It shows the statement that was written. -/
  sql : t.sql = Dialect.sqlite.createTable m
  /-- It has the columns in order. -/
  columns : List.Forall₂ StoredColumn.Stores t.columns m.columns
  /-- No two of the indexes have one name. -/
  distinct : created.Pairwise fun i j => Text.sameName i.name j.name = false
  /-- Of its indexes those are created by statements. -/
  created : t.indexes.filter (·.origin == .statement) =
    created.reverse.map fun i => ⟨i.name, i.columns, false, .statement⟩
  /-- The others enforce a constraint of the model. -/
  enforces : ∀ i ∈ t.indexes, i.origin ≠ .statement →
    i.unique = true ∧ (i.origin, i.columns) ∈ m.constraints
  /-- Every uniqueness constraint is enforced. -/
  enforced : ∀ k ∈ m.constraints, k.1 = .unique →
    ∃ i ∈ t.indexes, i.origin = k.1 ∧ i.columns = k.2

/-- A table whose indexes enforce the constraints that were added so far. -/
structure Enforces (t bare : StoredTable) (m : Model) (done : List (IndexOrigin × List String)) :
    Prop where
  /-- Only the indexes are new. -/
  bare : t = { bare with indexes := t.indexes }
  /-- Every index enforces a constraint. -/
  enforces : ∀ i ∈ t.indexes, i.unique = true ∧ i.origin ≠ .statement ∧
    (i.origin, i.columns) ∈ m.constraints
  /-- Every uniqueness constraint so far is enforced. -/
  enforced : ∀ k ∈ done, k.1 = .unique → ∃ i ∈ t.indexes, i.origin = k.1 ∧ i.columns = k.2

/-- A constraint that is added is enforced with the earlier ones. -/
theorem Enforces.addConstraint {t bare : StoredTable} {m : Model} (hm : m.Valid)
    {done : List (IndexOrigin × List String)} (h : Enforces t bare m done)
    {k : IndexOrigin × List String} (hk : k ∈ m.constraints) :
    Enforces (t.addConstraint k.1 k.2) bare m (done ++ [k]) := by
  have hsame : ∀ i ∈ t.indexes, Text.sameNames i.columns k.2 = true →
      i.origin = k.1 ∧ i.columns = k.2 := by
    intro i hi hnames
    have hmem := (h.enforces i hi).2.2
    have hcolumns := hm.eq_of_sameNames (hm.constraint_columns hmem) (hm.constraint_columns hk)
      hnames
    exact ⟨hm.constraint_origin hmem hk hcolumns, hcolumns⟩
  have horigin : k.1 ≠ .statement := by
    rcases List.mem_append.mp hk with hk | hk
    · obtain ⟨c, -, hsome⟩ := List.mem_filterMap.mp hk
      rw [Column.constraint?] at hsome
      intro hstatement
      split at hsome
      · simp [← Option.some.inj hsome] at hstatement
      · split at hsome
        · simp [← Option.some.inj hsome] at hstatement
        · simp at hsome
    · obtain ⟨u, -, rfl⟩ := List.mem_map.mp hk
      simp
  rcases addConstraint_cases hsame with ⟨heq, i, hi, hi'⟩ | ⟨name, heq⟩
  · rw [heq]
    refine ⟨h.bare, h.enforces, fun k' hk' hunique => ?_⟩
    rcases List.mem_append.mp hk' with hk' | hk'
    · exact h.enforced k' hk' hunique
    · obtain rfl := List.mem_singleton.mp hk'
      exact ⟨i, hi, hi'⟩
  · rw [heq]
    refine ⟨by rw [h.bare], fun i hi => ?_, fun k' hk' hunique => ?_⟩
    · rcases List.mem_cons.mp hi with rfl | hi
      · exact ⟨rfl, horigin, hk⟩
      · exact h.enforces i hi
    · rcases List.mem_append.mp hk' with hk' | hk'
      · obtain ⟨i, hi, hi'⟩ := h.enforced k' hk' hunique
        exact ⟨i, List.mem_cons_of_mem _ hi, hi'⟩
      · obtain rfl := List.mem_singleton.mp hk'
        exact ⟨_, List.mem_cons_self, rfl, rfl⟩

/-- The columns of a definition are stored as the model declares them. -/
theorem stores_columns {clause : TableClause} {m : Model} (hm : m.Valid) (h : clause.Declares m) :
    List.Forall₂ StoredColumn.Stores
      (clause.columns.map fun column => .ofClause column
        ((clause.keys.flatMap (·.1)).any (Text.sameName column.name))) m.columns := by
  have hkeys : clause.keys.flatMap (·.1) = (m.columns.filter (·.primaryKey)).map (·.name) := by
    rw [h.keys, List.flatMap_map]
    induction m.columns.filter (·.primaryKey) with
    | nil => rfl
    | cons c cs ih => rw [List.flatMap_cons, ih, List.map_cons, List.singleton_append]
  rw [List.forall₂_map_left_iff, hkeys]
  refine (Text.forall₂_mem_right h.columns).imp fun column c hc => ?_
  obtain ⟨hc, hdeclares⟩ := hc
  have hkey : ((m.columns.filter (·.primaryKey)).map (·.name)).any (Text.sameName column.name) =
      c.primaryKey := by
    rw [hdeclares.name, Bool.eq_iff_iff, List.any_eq_true]
    constructor
    · rintro ⟨n, hn, hsame⟩
      obtain ⟨b, hb, rfl⟩ := List.mem_map.mp hn
      obtain ⟨hb, hkey⟩ := List.mem_filter.mp hb
      obtain rfl := hm.eq_of_sameName hc hb hsame
      exact hkey
    · intro hkey
      exact ⟨c.name, List.mem_map_of_mem (List.mem_filter.mpr ⟨hc, hkey⟩), Text.sameName_refl _⟩
  rw [hkey]
  exact stores_ofClause hdeclares

/-- **The table of a definition holds what the model declares.** -/
theorem holds_of_ofClause {clause : TableClause} {m : Model} (hm : m.Valid)
    (h : clause.Declares m) {t : StoredTable} (ht : StoredTable.ofClause clause = .ok t) :
    t.Holds m [] := by
  have hcolumns : List.Forall₂ StoredColumn.Stores (bare clause).columns m.columns :=
    stores_columns hm h
  have hstart : Enforces (bare clause) (bare clause) m [] :=
    ⟨rfl, fun i hi => absurd hi List.not_mem_nil, fun k hk => absurd hk List.not_mem_nil⟩
  have hall : Enforces t (bare clause) m ([] ++ clause.constraints) := by
    refine foldlM_invariant (P := fun done b => Enforces b (bare clause) m done)
      (fun done k hk b b' hb hstep => ?_) hstart (ofClause_cases ht).2
    have hspell : b.spell k.2 = .ok k.2 := by
      refine spell_eq hm ?_ (hm.constraint_columns (h.constraints ▸ hk))
      rw [hb.bare]
      exact hcolumns
    rw [constrain, hspell, Reading.ok_bind] at hstep
    split at hstep
    · next hkey =>
      rw [Bool.and_eq_true, beq_iff_eq] at hkey
      obtain rfl := Except.ok.inj hstep
      refine ⟨hb.bare, hb.enforces, fun k' hk' hunique => ?_⟩
      rcases List.mem_append.mp hk' with hk' | hk'
      · exact hb.enforced k' hk' hunique
      · obtain rfl := List.mem_singleton.mp hk'
        simp [hunique] at hkey
    · obtain rfl := Except.ok.inj hstep
      exact hb.addConstraint hm (h.constraints ▸ hk)
  rw [List.nil_append] at hall
  have hnone : ∀ i ∈ t.indexes, (i.origin == IndexOrigin.statement) = false := fun i hi => by
    simpa using (hall.enforces i hi).2.1
  refine ⟨?_, ?_, ?_, .nil, ?_, fun i hi _ => ⟨(hall.enforces i hi).1, (hall.enforces i hi).2.2⟩,
    fun k hk => hall.enforced k (h.constraints ▸ hk)⟩
  · rw [hall.bare]
    exact h.name
  · rw [hall.bare, ← h.text]
    simp only [sql, bare, List.map_map]
    rfl
  · rw [hall.bare]
    exact hcolumns
  · simpa using hnone

/-- With another index the table holds one more of the indexes. -/
theorem Holds.createIndex {t : StoredTable} {m : Model} {created : List Index}
    (h : t.Holds m created) {i : Index}
    (hnew : ∀ j ∈ t.indexes, Text.sameName j.name i.name = false) :
    { t with indexes := ⟨i.name, i.columns, false, .statement⟩ :: t.indexes }.Holds m
      (created ++ [i]) := by
  refine ⟨h.name, h.sql, h.columns, List.pairwise_append.mpr ⟨h.distinct, by simp, ?_⟩, ?_,
    fun j hj horigin => ?_, fun k hk hunique => ?_⟩
  · intro j hj b hb
    obtain rfl := List.mem_singleton.mp hb
    have hmem : (⟨j.name, j.columns, false, .statement⟩ : StoredIndex) ∈
        t.indexes.filter (·.origin == .statement) := by
      rw [h.created]
      exact List.mem_map_of_mem (List.mem_reverse.mpr hj)
    exact hnew _ (List.mem_filter.mp hmem).1
  · rw [List.filter_cons_of_pos (by rfl), h.created]
    simp
  · rcases List.mem_cons.mp hj with rfl | hj
    · exact absurd rfl horigin
    · exact h.enforces j hj horigin
  · obtain ⟨j, hj, hj'⟩ := h.enforced k hk hunique
    exact ⟨j, List.mem_cons_of_mem _ hj, hj'⟩

end StoredTable

/-! ### Databases -/

namespace Database

/-- The table is in the database, and no other one has its name. -/
def Has (db : Database) (t : StoredTable) : Prop :=
  ∃ before after, db.tables = before ++ t :: after ∧
    ∀ u ∈ before ++ after, Text.sameName u.name t.name = false

variable {db db' : Database} {t : StoredTable}

theorem Has.table? (h : db.Has t) : db.table? t.name = some t := by
  obtain ⟨before, after, htables, hother⟩ := h
  rw [Database.table?, htables, List.find?_append, List.find?_eq_none.mpr, Option.none_or,
    List.find?_cons_of_pos (by simp)]
  intro u hu
  simpa using hother u (List.mem_append_left _ hu)

/-- It is also found by the exact name. -/
theorem Has.find? (h : db.Has t) : db.tables.find? (·.name == t.name) = some t := by
  obtain ⟨before, after, htables, hother⟩ := h
  rw [htables, List.find?_append, List.find?_eq_none.mpr, Option.none_or,
    List.find?_cons_of_pos (by simp)]
  intro u hu heq
  have hfalse := hother u (List.mem_append_left _ hu)
  rw [eq_of_beq heq, Text.sameName_refl] at hfalse
  exact absurd hfalse (by decide)

theorem Has.changeTable (h : db.Has t) {f : StoredTable → StoredTable}
    (hname : (f t).name = t.name) :
    (db.changeTable t.name f).Has (f t) := by
  obtain ⟨before, after, htables, hother⟩ := h
  refine ⟨before, after, ?_, by rwa [hname]⟩
  rw [Database.changeTable, htables, List.map_append, List.map_cons,
    Text.map_of_sameName fun u hu => hother u (List.mem_append_left _ hu),
    Text.map_of_sameName fun u hu => hother u (List.mem_append_right _ hu), Text.sameName_refl]
  rfl

/-- A name that is not reserved is none of those that are. -/
theorem sameName_of_isReservedName {name reserved : String} (h : isReservedName name = false)
    (hreserved : isReservedName reserved = true) : Text.sameName reserved name = false := by
  rw [Bool.eq_false_iff]
  intro hsame
  rw [isReservedName, ← Text.sameName_iff.mp hsame, ← isReservedName, hreserved] at h
  exact absurd h (by decide)

theorem isReservedName_sequenceName : isReservedName sequenceName = true := by decide +kernel

theorem isCatalogName_of_isReservedName {name : String} (h : isReservedName name = false) :
    isCatalogName name = false := by
  have hnot : ∀ n, isReservedName n = true → Text.sameName n name = false :=
    fun n => sameName_of_isReservedName h
  simp [isCatalogName, catalogNames, hnot "sqlite_master" (by decide +kernel),
    hnot "sqlite_schema" (by decide +kernel)]

/-- A table is created where its name is free and not reserved. -/
theorem has_createTable {clause : TableClause} (hmissing : clause.ifMissing = false)
    (h : db.createTable clause = .ok db') :
    ∃ t, StoredTable.ofClause clause = .ok t ∧ (t.name = clause.name → db'.Has t) := by
  obtain ⟨hnot, -⟩ | ⟨hreserved, hnone, t, ht, rfl⟩ := createTable_cases h
  · exact absurd (hmissing.symm.trans hnot) Bool.false_ne_true
  refine ⟨t, ht, fun hname => ⟨db.tables, _, rfl, fun u hu => ?_⟩⟩
  rw [hname]
  rcases List.mem_append.mp hu with hu | hu
  · simpa using List.find?_eq_none.mp hnone u hu
  · -- the table of the last numbers has a name that is reserved
    have hsequences : u = .sequences := by
      split at hu
      · exact List.mem_singleton.mp hu
      · exact absurd hu List.not_mem_nil
    rw [hsequences]
    exact sameName_of_isReservedName hreserved isReservedName_sequenceName

/-- An index is created on a table where no index has its name. -/
theorem has_createIndex {unique : Bool} {name : String} {columns : List String} (ht : db.Has t)
    (h : db.createIndex unique false name t.name columns = .ok db') :
    (∀ i ∈ t.indexes, Text.sameName i.name name = false) ∧
      ∃ spelled, t.spell columns = .ok spelled ∧
      db'.Has { t with indexes := ⟨name, spelled, unique, .statement⟩ :: t.indexes } := by
  obtain ⟨u, hu, -, -, ⟨hfalse, -⟩ | ⟨hnone, spelled, hspelled, rfl⟩⟩ := createIndex_cases h
  · cases hfalse
  obtain rfl : t = u := Option.some.inj (ht.table?.symm.trans hu)
  refine ⟨fun i hi => ?_, spelled, hspelled, ht.changeTable rfl⟩
  obtain ⟨before, after, htables, -⟩ := ht
  have hmem : i ∈ db.tables.flatMap StoredTable.indexes :=
    List.mem_flatMap.mpr ⟨t, by simp [htables], hi⟩
  simpa using List.find?_eq_none.mp hnone i hmem

end Database

end EntitySql
