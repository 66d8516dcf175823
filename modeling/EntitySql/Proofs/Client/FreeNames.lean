import EntitySql.Proofs.Catalog.Report
import EntitySql.Proofs.Client.Carrying
import EntitySql.Proofs.Database.IndexNames

/-!
# Whether the names of new indexes are free

A plan that creates the indexes of its model first drops those that its table has. It knows them
from the report of the table, which lists the indexes that reject no duplicates. A unique index is
reported by its columns, whether it enforces a constraint or a statement has created it, so no plan
drops it: it is still on the table that is altered, or has gone with the table that was moved aside.
The name of an index of the model is therefore taken if a unique index has it, and only then.

## Main definitions

* `Connection.LeavesName`: a text after which a name is that of an index exactly if it was before
* `Rebuild.beforeIndexes`, `Difference.beforeIndexes`: the changes of a plan in front of those that
  create indexes

## Main results

* `Connection.named_execute`: tables and indexes have names of their own whatever is run
* `Connection.Ran.uses_iff_of_drops`: a name behind statements that drop indexes
* `Plan.index_taken_iff`: whether the name of an index is taken when its plan creates it
-/

namespace EntitySql

open Database

namespace Connection

variable {c c' : Connection} {o : Outcome} {n : String}

/-! ### Names of their own -/

/-- **Every text of statements** leaves tables and indexes names of their own, whether or not one of
them is refused. -/
theorem named_execute (hc : c.database.Named) (sql : String) (params : List Value) :
    (c.execute sql params).2.database.Named :=
  execute_invariant (P := fun d => d.database.Named)
    (fun hd hrun => (step_perform (perform_of_run hrun)).named hd) hc sql params

theorem Ran.named {sqls : List String} (h : c.Ran sqls c') (hc : c.database.Named) :
    c'.database.Named := by
  induction h with
  | nil => exact hc
  | @cons c c₁ c₂ sql rest o hfirst _ ih =>
    have hnamed := named_execute hc sql []
    rw [hfirst] at hnamed
    exact ih hnamed

/-! ### Texts that leave a name -/

/-- After the text the name is that of an index exactly if it was before. -/
def LeavesName (n sql : String) : Prop :=
  ∀ (c c' : Connection) (o : Outcome), c.database.Named → c.execute sql [] = (.ok o, c') →
    (c'.database.Uses n ↔ c.database.Uses n)

/-- Texts that run one after the other leave the name if each of them does. -/
theorem Ran.uses_iff {sqls : List String} (h : c.Ran sqls c') (hc : c.database.Named)
    (hsqls : ∀ sql ∈ sqls, LeavesName n sql) : c'.database.Uses n ↔ c.database.Uses n := by
  induction h with
  | nil => exact .rfl
  | @cons c c₁ c₂ sql rest o hfirst hrest ih =>
    have hnamed := named_execute hc sql []
    rw [hfirst] at hnamed
    exact (ih hnamed fun s hs => hsqls s (List.mem_cons_of_mem sql hs)).trans
      (hsqls sql List.mem_cons_self _ _ _ hc hfirst)

theorem leavesName_addColumn {table : String} {k : Column} (hk : k.Unbroken) :
    LeavesName n (Dialect.sqlite.addColumn table k) := by
  intro c c' o hc h
  obtain ⟨b, clause, hadd⟩ := exists_of_execute_addColumn hk h
  exact uses_iff_of_owners_eq (owners_addColumn hc hadd)

theorem leavesName_dropColumn (table column : String) :
    LeavesName n (Dialect.sqlite.dropColumn table column) := by
  intro c c' o hc h
  obtain ⟨written, hdrop⟩ := exists_of_execute_dropColumn h
  exact uses_iff_of_owners_eq (owners_dropColumn hc hdrop)

theorem leavesName_turnOn : LeavesName n "PRAGMA legacy_alter_table = ON" := by
  intro c c' o _ h
  rw [execute_turnOn] at h
  rw [← (Prod.mk.inj h).2]

theorem leavesName_turnOff : LeavesName n "PRAGMA legacy_alter_table = OFF" := by
  intro c c' o _ h
  rw [execute_turnOff] at h
  rw [← (Prod.mk.inj h).2]

section

variable (hn : isReservedName n = false)

include hn

theorem leavesName_renameTable (table name : String) :
    LeavesName n (Dialect.sqlite.renameTable table name) :=
  fun _ _ _ hc h => hc.uses_iff_of_written_eq hn (named_renameTable hc (of_execute_renameTable h))

theorem leavesName_createTable {m : Model} (hm : ∀ k ∈ m.columns, k.Unbroken) :
    LeavesName n (Dialect.sqlite.createTable m) := by
  intro c c' o hc h
  obtain ⟨clause, hcreate, -⟩ := exists_of_execute_createTable hm h
  exact hc.uses_iff_of_written_eq hn (named_createTable hc hcreate)

/-- An index of another name is created. -/
theorem leavesName_createIndex (table : String) {i : Index} (hi : i.columns ≠ [])
    (hne : Text.sameName i.name n = false) :
    LeavesName n (Dialect.sqlite.createIndex table i) := by
  intro c c' o hc h
  obtain ⟨hnamed, hadded⟩ := named_createIndex hc (of_execute_createIndex hi h)
  obtain ⟨-, j, hj, hperm⟩ := hadded rfl
  rw [hc.uses_iff hn, hnamed.uses_iff hn]
  simp only [hperm.mem_iff, List.mem_cons, exists_eq_or_imp, hj, hne, Bool.false_eq_true, false_or]

/-- Indexes of other names are created. -/
theorem Ran.uses_iff_of_creates {table : String} {is : List Index}
    (h : c.Ran (is.map (Dialect.sqlite.createIndex table)) c') (hc : c.database.Named)
    (his : ∀ i ∈ is, i.columns ≠ [] ∧ Text.sameName i.name n = false) :
    c'.database.Uses n ↔ c.database.Uses n := by
  refine h.uses_iff hc fun sql hsql => ?_
  obtain ⟨i, hi, rfl⟩ := List.mem_map.mp hsql
  exact leavesName_createIndex hn table (his i hi).1 (his i hi).2

/-- **Behind statements that drop indexes** a name is that of an index if it was before and is none
of theirs. -/
theorem Ran.uses_iff_of_drops {table : String} {is : List Index}
    (h : c.Ran (is.map fun i => Dialect.sqlite.dropIndex table i.name) c') (hc : c.database.Named) :
    c'.database.Uses n ↔ c.database.Uses n ∧ ∀ i ∈ is, Text.sameName i.name n = false := by
  induction is generalizing c with
  | nil =>
    cases h
    simp
  | cons i is ih =>
    obtain ⟨c₁, o, hdrop, hrest⟩ := h.of_cons
    obtain ⟨hnamed, hwritten⟩ := named_dropIndex hc (of_execute_dropIndex hdrop)
    rw [ih hrest hnamed, hc.uses_iff hn, hnamed.uses_iff hn, hwritten, List.forall_mem_cons]
    simp only [List.mem_filter, Bool.not_eq_true']
    constructor
    · rintro ⟨⟨j, ⟨hj, hdropped⟩, hname⟩, hothers⟩
      refine ⟨⟨j, hj, hname⟩, ?_, hothers⟩
      rw [Bool.eq_false_iff]
      intro hsame
      rw [Text.sameName_comm] at hsame
      rw [Text.sameName_trans hname hsame] at hdropped
      cases hdropped
    · rintro ⟨⟨j, hj, hname⟩, hdropped, hothers⟩
      refine ⟨⟨j, ⟨hj, ?_⟩, hname⟩, hothers⟩
      rw [Bool.eq_false_iff]
      intro hsame
      rw [Text.sameName_comm] at hsame
      rw [Text.sameName_trans hsame hname] at hdropped
      cases hdropped

end

/-- A table that is dropped takes along no name that only another table uses. -/
theorem uses_iff_of_dropTable {table dropped : String}
    (hne : Text.sameName dropped table = false)
    (hothers : ∀ u ∈ c.database.tables, ∀ j ∈ u.indexes, Text.sameName j.name n = true →
      Text.sameName u.name table = true)
    (h : c.execute (Dialect.sqlite.dropTable dropped) [] = (.ok o, c')) :
    c'.database.Uses n ↔ c.database.Uses n := by
  rw [uses_iff_owners, uses_iff_owners, owners_dropTable (of_execute_dropTable h)]
  constructor
  · rintro ⟨x, hx, hi⟩
    exact ⟨x, (List.mem_filter.mp hx).1, hi⟩
  · rintro ⟨x, hx, i, hi, hname⟩
    refine ⟨x, List.mem_filter.mpr ⟨hx, ?_⟩, i, hi, hname⟩
    obtain ⟨u, hu, rfl⟩ := List.mem_map.mp hx
    have htable := hothers u hu i hi hname
    rw [Bool.not_eq_true', Bool.eq_false_iff]
    intro hsame
    rw [Text.sameName_comm] at hsame
    rw [Text.sameName_trans hsame htable] at hne
    cases hne

end Connection

open Connection

/-! ### What a plan knows of the names -/

/-- **A name of a table that its report does not list** is that of a unique index. -/
theorem Database.Named.unique_iff {db : Database} (hdb : db.Named) {t : StoredTable}
    (ht : t ∈ db.tables) {n : String} (hn : isReservedName n = false) :
    ((∃ j ∈ t.indexes, Text.sameName j.name n = true) ∧
        ∀ i ∈ t.live.indexes, Text.sameName i.name n = false) ↔
      ∃ j ∈ t.indexes, j.unique = true ∧ Text.sameName j.name n = true := by
  have horigin : ∀ j ∈ t.indexes, Text.sameName j.name n = true → j.origin = .statement := by
    intro j hj hname
    by_contra hother
    rw [sameName_of_isReservedName hn (hdb.others t ht j hj hother)] at hname
    cases hname
  constructor
  · rintro ⟨⟨j, hj, hname⟩, hreported⟩
    refine ⟨j, hj, ?_, hname⟩
    by_contra hplain
    have hmem : (⟨j.name, j.columns⟩ : Index) ∈ t.live.indexes :=
      StoredTable.mem_indexes_live.mpr
        ⟨j, hj, Bool.eq_false_iff.mpr hplain, by simp [horigin j hj hname], rfl⟩
    rw [hreported _ hmem] at hname
    cases hname
  · rintro ⟨j, hj, hunique, hname⟩
    refine ⟨⟨j, hj, hname⟩, fun i hi => ?_⟩
    obtain ⟨k, hk, hplain, -, rfl⟩ := StoredTable.mem_indexes_live.mp hi
    rw [Bool.eq_false_iff]
    intro hsame
    have hwritten : ∀ x ∈ t.indexes, Text.sameName x.name n = true → x ∈ db.written :=
      fun x hx hxn => List.mem_flatMap.mpr
        ⟨t, ht, List.mem_filter.mpr ⟨hx, by simpa using horigin x hx hxn⟩⟩
    rw [Text.sameName_comm] at hname
    obtain rfl := Text.eq_of_sameName_of_pairwise hdb.written (hwritten k hk hsame)
      (hwritten j hj (by rwa [Text.sameName_comm])) (Text.sameName_trans hsame hname)
    rw [hunique] at hplain
    cases hplain

/-- A plan in place drops an index of the name of an index that it creates exactly if the table has
one. -/
theorem Difference.dropped_iff {d : Dialect} {m : Model} {live : LiveTable}
    (hindexes : m.indexes.Pairwise fun i j => Text.sameName i.name j.name = false) {i : Index}
    (hi : i ∈ (diagnose d m live).alteredIndexes ++ (diagnose d m live).missingIndexes) :
    (∀ x ∈ (diagnose d m live).obsoleteIndexes ++ (diagnose d m live).alteredIndexes,
        Text.sameName x.name i.name = false) ↔
      ∀ x ∈ live.indexes, Text.sameName x.name i.name = false := by
  obtain ⟨hmem, hcreated⟩ := mem_createdIndexes.mp hi
  rw [← index?_eq_none_iff]
  constructor
  · intro hdropped
    refine hcreated.resolve_left fun haltered => ?_
    have hself := hdropped i (List.mem_append_right _ (List.mem_filter.mpr ⟨hmem, haltered⟩))
    rw [Text.sameName_refl] at hself
    cases hself
  · intro hnone x hx
    rw [Bool.eq_false_iff]
    intro hsame
    rcases List.mem_append.mp hx with hobsolete | haltered
    · have hfree := index?_eq_none_iff.mp hnone x (List.mem_filter.mp hobsolete).1
      rw [hsame] at hfree
      cases hfree
    · obtain ⟨hx, haltered⟩ := List.mem_filter.mp haltered
      obtain rfl := Text.eq_of_sameName_of_pairwise hindexes hx hmem hsame
      rw [isAltered, hnone] at haltered
      cases haltered

/-- The changes of a rebuild in front of those that create indexes. -/
def Rebuild.beforeIndexes (r : Rebuild) : List Change :=
  .dropTable r.scratch :: .moveAside r.table r.scratch ::
    (r.difference.live.indexes.map (fun i => .dropIndex r.scratch i.name) ++ [.createTable r.model])

theorem Rebuild.allChanges_eq_append (r : Rebuild) : r.allChanges = r.beforeIndexes ++
    (r.model.indexes.map (.createIndex r.table) ++
      (r.changes .copyData ++ r.changes .dropOld)) := by
  rw [r.allChanges_eq, afterwards, beforeIndexes]
  simp only [changes, Model.creation, List.cons_append, List.append_assoc, List.nil_append]
  rfl

/-- Behind them a rebuild creates none. -/
theorem Rebuild.createIndex_notMem (r : Rebuild) (table : String) (i : Index) :
    .createIndex table i ∉ r.changes .copyData ++ r.changes .dropOld := by
  simp only [changes]
  split <;> simp

/-- The changes of a table in place in front of those that create indexes. -/
def Difference.beforeIndexes (x : Difference) : List Change :=
  x.obsolete.map (fun k => .dropColumn x.table k.name) ++ x.missing.map (.addColumn x.table) ++
    x.altered.map (fun change => .alterColumn x.table change.1) ++
    (x.obsoleteIndexes ++ x.alteredIndexes).map (fun i => .dropIndex x.table i.name)

theorem Difference.inPlaceChanges_eq_append (x : Difference) : x.inPlaceChanges =
    x.beforeIndexes ++ ((x.alteredIndexes ++ x.missingIndexes).map (.createIndex x.table) ++
      x.missingUniques.map (.addUnique x.table)) := by
  rw [inPlaceChanges, beforeIndexes, List.append_assoc (_ ++ _)]

/-- Where a list of changes creates an index, other indexes have been created before. -/
theorem Change.exists_of_createIndex {pre post done rest : List Change} {is : List Index}
    {table : String} {i : Index}
    (h : pre ++ (is.map (.createIndex table) ++ post) = done ++ .createIndex table i :: rest)
    (hpre : .createIndex table i ∉ pre) (hpost : .createIndex table i ∉ post) :
    ∃ before after, is = before ++ i :: after ∧
      done = pre ++ before.map (.createIndex table) := by
  obtain ⟨a, rfl, ha⟩ : ∃ a, done = pre ++ a ∧
      is.map (.createIndex table) ++ post = a ++ .createIndex table i :: rest := by
    rcases List.append_eq_append_iff.mp h with ⟨a, hdone, ha⟩ | ⟨a, hpre', ha⟩
    · exact ⟨a, hdone, ha⟩
    · cases a with
      | nil => exact ⟨[], by simpa using hpre'.symm, by simpa using ha.symm⟩
      | cons x a =>
        obtain ⟨rfl, -⟩ := List.cons.inj ha
        exact absurd (by simp [hpre']) hpre
  rcases List.append_eq_append_iff.mp ha with ⟨b, -, hb⟩ | ⟨b, hmap, hb⟩
  · exact absurd (by simp [hb]) hpost
  · cases b with
    | nil =>
      rw [List.nil_append] at hb
      exact absurd (hb ▸ List.mem_cons_self) hpost
    | cons x b =>
      obtain ⟨rfl, -⟩ := List.cons.inj hb
      obtain ⟨before, after, rfl, rfl, hafter⟩ := List.map_eq_append_iff.mp hmap
      obtain ⟨j, after, rfl, hj, -⟩ := List.map_eq_cons_iff.mp hafter
      cases hj
      exact ⟨before, after, rfl, rfl⟩

theorem Change.statements_dropIndexes (table : String) (is : List Index) :
    (is.map fun i => dropIndex table i.name).flatMap (statements .sqlite) =
      is.map fun i => Dialect.sqlite.dropIndex table i.name := by
  rw [List.flatMap_map, List.map_eq_flatMap]
  rfl

theorem Change.statements_createIndexes (table : String) (is : List Index) :
    (is.map (createIndex table)).flatMap (statements .sqlite) =
      is.map (Dialect.sqlite.createIndex table) := by
  rw [List.flatMap_map, List.map_eq_flatMap]
  rfl

section

variable {n : String} (hn : isReservedName n = false) {c c' : Connection} (hc : c.database.Named)

include hn hc

/-- **A name when a rebuild creates indexes**, if only the table that is rebuilt has an index of
that name: the rebuild has dropped it if it was told of it. -/
theorem Rebuild.uses_iff {r : Rebuild} (hcolumns : ∀ k ∈ r.model.columns, k.Unbroken)
    (hothers : ∀ u ∈ c.database.tables, ∀ j ∈ u.indexes, Text.sameName j.name n = true →
      Text.sameName u.name r.table = true)
    (h : c.Ran (r.beforeIndexes.flatMap (Change.statements .sqlite)) c') :
    c'.database.Uses n ↔
      c.database.Uses n ∧ ∀ i ∈ r.difference.live.indexes, Text.sameName i.name n = false := by
  have hstatements : r.beforeIndexes.flatMap (Change.statements .sqlite) =
      Dialect.sqlite.dropTable r.scratch :: (["PRAGMA legacy_alter_table = ON",
        Dialect.sqlite.renameTable r.table r.scratch, "PRAGMA legacy_alter_table = OFF"] ++
        (r.difference.live.indexes.map (fun i => Dialect.sqlite.dropIndex r.scratch i.name) ++
          [Dialect.sqlite.createTable r.model])) := by
    rw [beforeIndexes, List.flatMap_cons, List.flatMap_cons, List.flatMap_append,
      Change.statements_dropIndexes]
    rfl
  rw [hstatements] at h
  obtain ⟨c₁, o, hdrop, h⟩ := h.of_cons
  obtain ⟨c₂, hmove, h⟩ := h.of_append
  obtain ⟨c₃, hindexes, h⟩ := h.of_append
  have hc₁ : c₁.database.Named := (Connection.Ran.cons hdrop (.nil c₁)).named hc
  have hc₂ := hmove.named hc₁
  have hmoved : c₂.database.Uses n ↔ c₁.database.Uses n := by
    refine hmove.uses_iff hc₁ ?_
    simp only [List.forall_mem_cons, List.not_mem_nil, false_implies, implies_true, and_true]
    exact ⟨leavesName_turnOn, leavesName_renameTable hn _ _, leavesName_turnOff⟩
  have hfresh : c'.database.Uses n ↔ c₃.database.Uses n := by
    refine h.uses_iff (hindexes.named hc₂) ?_
    simpa using leavesName_createTable hn hcolumns
  rw [hfresh, hindexes.uses_iff_of_drops hn hc₂, hmoved,
    uses_iff_of_dropTable r.sameName_scratch hothers hdrop]

/-- **A name when a plan in place creates indexes**: the plan has dropped it if it was told of an
index of that name that the model does not have in this form. -/
theorem Difference.uses_iff {m : Model} (hcolumns : ∀ k ∈ m.columns, k.Unbroken) {live : LiveTable}
    (hplain : (diagnose .sqlite m live).IsPlain)
    (h : c.Ran ((diagnose .sqlite m live).beforeIndexes.flatMap (Change.statements .sqlite)) c') :
    c'.database.Uses n ↔ c.database.Uses n ∧
      ∀ i ∈ (diagnose .sqlite m live).obsoleteIndexes ++ (diagnose .sqlite m live).alteredIndexes,
        Text.sameName i.name n = false := by
  rw [beforeIndexes, hplain.altered, List.map_nil, List.append_nil, List.flatMap_append,
    Change.statements_dropIndexes] at h
  obtain ⟨c₁, hcolumn, hdrop⟩ := h.of_append
  have hkept : c₁.database.Uses n ↔ c.database.Uses n := by
    refine hcolumn.uses_iff hc fun sql hsql => ?_
    obtain ⟨change, hchange, hsql⟩ := List.mem_flatMap.mp hsql
    rcases List.mem_append.mp hchange with hchange | hchange
    · obtain ⟨k, -, rfl⟩ := List.mem_map.mp hchange
      obtain rfl := List.mem_singleton.mp hsql
      exact leavesName_dropColumn _ _
    · obtain ⟨k, hk, rfl⟩ := List.mem_map.mp hchange
      obtain rfl := List.mem_singleton.mp hsql
      exact leavesName_addColumn (hcolumns k (mem_missing.mp hk).1)
  rw [hdrop.uses_iff_of_drops hn (hcolumn.named hc), hkept]

end

/-- Behind statements after which the name of an index is taken, the index is refused. -/
theorem Connection.execute_createIndex_ne_ok {c : Connection} (hc : c.database.Named)
    {table : String} {i : Index} (hi : i.columns ≠ []) (htaken : c.database.Uses i.name)
    (o : Outcome) : (c.execute (Dialect.sqlite.createIndex table i) []).1 ≠ .ok o := by
  intro ho
  generalize hexecute : c.execute (Dialect.sqlite.createIndex table i) [] = r at ho
  obtain ⟨answer, c'⟩ := r
  obtain rfl : answer = .ok o := ho
  exact ((named_createIndex hc (of_execute_createIndex hi hexecute)).2 rfl).1 htaken

/-- **The changes of a plan in front of an index that it creates**, and what the name of the index
is by then. -/
theorem Plan.uses_iff_of_ran {m : Model} (hm : m.Valid) (hcolumns : ∀ k ∈ m.columns, k.Unbroken)
    (hindexes : m.indexes.Pairwise fun i j => Text.sameName i.name j.name = false)
    {c c' : Connection} (hc : c.database.Named) {live : LiveTable} {i : Index}
    (hn : isReservedName i.name = false)
    (hothers : ∀ u ∈ c.database.tables, ∀ j ∈ u.indexes, Text.sameName j.name i.name = true →
      Text.sameName u.name m.name = true)
    {done rest : List Change}
    (hplan : (planTable .sqlite m (some live)).changes = done ++ .createIndex m.name i :: rest)
    (h : c.Ran (done.flatMap (Change.statements .sqlite)) c') :
    i ∈ m.indexes ∧ (c'.database.Uses i.name ↔
      c.database.Uses i.name ∧ ∀ x ∈ live.indexes, Text.sameName x.name i.name = false) := by
  -- the indexes that are created before it have other names
  have hbefore : ∀ {is before after : List Index}, (∀ j ∈ is, j ∈ m.indexes) →
      is.Pairwise (fun i j => Text.sameName i.name j.name = false) → is = before ++ i :: after →
      i ∈ m.indexes ∧ ∀ j ∈ before, j.columns ≠ [] ∧ Text.sameName j.name i.name = false := by
    rintro is before after hsubset hpairwise rfl
    refine ⟨hsubset i (by simp), fun j hj => ⟨hm.index_nonempty j (hsubset j (by simp [hj])), ?_⟩⟩
    exact (List.pairwise_append.mp hpairwise).2.2 j hj i List.mem_cons_self
  rcases planTable_cases m live with hp | hp | ⟨hp, hplain⟩ <;> rw [hp] at hplan
  · simp [changes] at hplan
  · obtain ⟨r, hr⟩ : ∃ r : Rebuild, r = ⟨m, .diagnose .sqlite m live⟩ := ⟨_, rfl⟩
    obtain rfl : r.model = m := by rw [hr]
    have hlive : r.difference.live = live := by rw [hr]; rfl
    rw [← hr, changes, r.allChanges_eq_append] at hplan
    obtain ⟨before, after, his, rfl⟩ := Change.exists_of_createIndex hplan
      (by simp [Rebuild.beforeIndexes]) (r.createIndex_notMem _ i)
    obtain ⟨hi, hnames⟩ := hbefore (fun j hj => hj) hindexes his
    rw [List.flatMap_append, Change.statements_createIndexes] at h
    obtain ⟨c₁, hfirst, hcreate⟩ := h.of_append
    refine ⟨hi, ?_⟩
    rw [hcreate.uses_iff_of_creates hn (hfirst.named hc) hnames,
      Rebuild.uses_iff hn hc hcolumns hothers hfirst, hlive]
  · rw [changes, Difference.inPlaceChanges_eq_append] at hplan
    obtain ⟨before, after, his, rfl⟩ := Change.exists_of_createIndex hplan
      (by simp [Difference.beforeIndexes]) (by simp)
    obtain ⟨hi, hnames⟩ := hbefore (fun j hj => (Difference.mem_createdIndexes.mp hj).1)
      (Difference.pairwise_created hindexes) his
    rw [List.flatMap_append, Change.statements_createIndexes] at h
    obtain ⟨c₁, hfirst, hcreate⟩ := h.of_append
    refine ⟨hi, ?_⟩
    rw [hcreate.uses_iff_of_creates hn (hfirst.named hc) hnames,
      Difference.uses_iff hn hc hcolumns hplain hfirst,
      Difference.dropped_iff hindexes (by rw [his]; simp)]

/-- When a plan has run as far as an index of its model, the name of that index is taken exactly if
a unique index of the table has it, whether the table is altered in place or has been moved aside.
Then the index is refused, and the schema update with it. -/
theorem Plan.index_taken_iff {m : Model} (hm : m.Valid) (hcolumns : ∀ k ∈ m.columns, k.Unbroken)
    (hindexes : m.indexes.Pairwise fun i j => Text.sameName i.name j.name = false)
    {c c' : Connection} (hc : c.database.Named) {t : StoredTable}
    (ht : c.database.table? m.name = some t) {i : Index} (hn : isReservedName i.name = false)
    (hothers : ∀ u ∈ c.database.tables, ∀ j ∈ u.indexes, Text.sameName j.name i.name = true →
      Text.sameName u.name m.name = true)
    {done rest : List Change}
    (hplan : (planTable .sqlite m (some t.live)).changes = done ++ .createIndex m.name i :: rest)
    (h : c.Ran (done.flatMap (Change.statements .sqlite)) c') :
    (c'.database.Uses i.name ↔
      ∃ j ∈ t.indexes, j.unique = true ∧ Text.sameName j.name i.name = true) ∧
    (c'.database.Uses i.name →
      ∀ o, (c'.execute (Dialect.sqlite.createIndex m.name i) []).1 ≠ .ok o) := by
  have hmem : t ∈ c.database.tables := List.mem_of_find?_eq_some ht
  have huses : c.database.Uses i.name ↔ ∃ j ∈ t.indexes, Text.sameName j.name i.name = true := by
    rw [uses_iff_exists]
    constructor
    · rintro ⟨u, hu, j, hj, hname⟩
      obtain rfl : t = u := Option.some.inj
        (ht.symm.trans (hc.table?_eq hu (hothers u hu j hj hname)))
      exact ⟨j, hj, hname⟩
    · exact fun ⟨j, hj, hname⟩ => ⟨t, hmem, j, hj, hname⟩
  obtain ⟨hi, hboth⟩ := uses_iff_of_ran hm hcolumns hindexes hc hn hothers hplan h
  refine ⟨by rw [hboth, huses, hc.unique_iff hmem hn], fun htaken o => ?_⟩
  exact execute_createIndex_ne_ok (h.named hc) (hm.index_nonempty i hi) htaken o

/-- A table with a unique index is rebuilt for a model that has a plain index of the same name. The
index has gone with the table that was moved aside, and that of the model is refused. -/
theorem Plan.index_taken_iff_unique : ∃ (m : Model) (c c' : Connection) (t : StoredTable)
    (i : Index) (done rest : List Change), m.Valid ∧ (∀ k ∈ m.columns, k.Unbroken) ∧
      c.database.Named ∧ c.database.table? m.name = some t ∧ isReservedName i.name = false ∧
      (∀ u ∈ c.database.tables, ∀ j ∈ u.indexes, Text.sameName j.name i.name = true →
        Text.sameName u.name m.name = true) ∧
      (planTable .sqlite m (some t.live)).changes = done ++ .createIndex m.name i :: rest ∧
      c.Ran (done.flatMap (Change.statements .sqlite)) c' ∧
      t.live.indexes = [] ∧ t.live.uniques = [] ∧ c'.database.Uses i.name ∧
      ∀ o, (c'.execute (Dialect.sqlite.createIndex m.name i) []).1 ≠ .ok o := by
  obtain ⟨m, hm⟩ : ∃ m : Model, m = ⟨"t", .table,
      [{ field := "id", name := "id", type := .int64, primaryKey := true },
       { field := "a", name := "a", type := .int64, notNull := true }], [⟨"i", ["a"]⟩], []⟩ :=
    ⟨_, rfl⟩
  obtain ⟨t, ht⟩ : ∃ t : StoredTable, t =
      { name := "t", writtenName := "t"
        columns := [⟨"id", "INTEGER", false, false, true, none, " (", "id INTEGER PRIMARY KEY"⟩,
          ⟨"a", "INTEGER", true, false, false, none, ", ", "a INTEGER NOT NULL"⟩]
        tail := ")", numberColumn := some 0
        indexes := [⟨"i", ["a"], true, .statement⟩] } := ⟨_, rfl⟩
  have hvalid : m.Valid := by
    subst hm
    constructor <;> simp +decide
  have hcolumns : ∀ k ∈ m.columns, k.Unbroken := by
    subst hm
    simp [Column.Unbroken]
  have hnamed : Database.Named { tables := [t] } := by
    subst ht
    constructor <;> simp [StoredTable.NamesOthers, StoredTable.written, Database.written]
  have hfound : Database.table? { tables := [t] } m.name = some t := by
    subst hm ht
    simp [Database.table?]
  have hothers : ∀ u ∈ Database.tables { tables := [t] }, ∀ j ∈ u.indexes,
      Text.sameName j.name "i" = true → Text.sameName u.name m.name = true := by
    subst hm ht
    simp
  obtain ⟨done, hdone⟩ : ∃ done, done = (planTable .sqlite m (some t.live)).changes.take 3 :=
    ⟨_, rfl⟩
  obtain ⟨rest, hrest⟩ : ∃ rest, rest = (planTable .sqlite m (some t.live)).changes.drop 4 :=
    ⟨_, rfl⟩
  have hplan : (planTable .sqlite m (some t.live)).changes =
      done ++ .createIndex m.name ⟨"i", ["a"]⟩ :: rest := by
    rw [hdone, hrest, hm, ht]
    decide +kernel
  have hstatements : done.flatMap (Change.statements .sqlite) =
      ["DROP TABLE IF EXISTS \"__tabula_tmp_t\"",
       "PRAGMA legacy_alter_table = ON",
       "ALTER TABLE \"t\" RENAME TO \"__tabula_tmp_t\"",
       "PRAGMA legacy_alter_table = OFF",
       "CREATE TABLE \"t\" (\n    \"id\" INTEGER PRIMARY KEY,\n    \"a\" INTEGER NOT NULL\n)"] := by
    rw [hdone, hm, ht]
    decide +kernel
  obtain ⟨c', hran⟩ : ∃ c', Connection.Ran { database := { tables := [t] } }
      (done.flatMap (Change.statements .sqlite)) c' := by
    rw [hstatements, ht]
    exact Connection.exists_ran [_, _, _, _, _] rfl (by decide +kernel)
  have hreported : t.live.indexes = [] ∧ t.live.uniques = [] := by
    subst ht
    decide +kernel
  obtain ⟨htaken, hrefused⟩ := Plan.index_taken_iff hvalid hcolumns (by simp [hm]) hnamed hfound
    (i := ⟨"i", ["a"]⟩) (by decide +kernel) hothers hplan hran
  have huses := htaken.mpr ⟨⟨"i", ["a"], true, .statement⟩, by simp [ht], rfl, by simp⟩
  exact ⟨m, _, c', t, ⟨"i", ["a"]⟩, done, rest, hvalid, hcolumns, hnamed, hfound,
    by decide +kernel, hothers, hplan, hran, hreported.1, hreported.2, huses, hrefused huses⟩

end EntitySql
