import EntitySql.Migration.Plan
import EntitySql.Proofs.Model

/-!
# What a plan does to a table

The effect of each change on the one table that is watched, as the statements of the change say.
Creating a table gives the columns and constraints of its model, dropping a column takes the indexes
and constraints over it along, and altering a column sets its type and its nullability. A table that
is moved aside is no longer there under its name, so the watched table of a rebuild is gone until it
is created again. Names are matched ignoring ASCII case, as everywhere in a schema.

The effect is said of every dialect, and of the report that a plan is made of. For SQLite the
statements themselves are read and run, and the table is reported as the effect says
(`Change.IsLegal.reports`, `Plan.reports_of_ran`).

## Main definitions

* `Column.image`, `Model.image`: a column and a table as the database reports them
* `Change.effect`: what a change makes of the watched table
* `Plan.outcome`: what all changes of a plan make of it

## Main results

* `Plan.foldl_creation`, `Plan.outcome_rebuild`: a table that is created or rebuilt is the image of
  its model
* `Difference.foldl_inPlaceChanges`: a table that is altered goes through its changes kind by kind
-/

namespace EntitySql

/-- A column as the database reports it. -/
def Column.image (d : Dialect) (c : Column) : LiveColumn where
  name := c.name
  nativeType := d.nativeType c.type c.size
  primaryKey := c.primaryKey
  autoincrement := c.autoincrement
  unique := c.unique
  notNull := c.notNull
  default := c.default.map d.defaultLiteral

/-- A column with the type and the nullability of the model's column, if that has its name. -/
def LiveColumn.altered (d : Dialect) (e : LiveColumn) (c : Column) : LiveColumn :=
  if Text.sameName c.name e.name then
    { e with nativeType := d.nativeType c.type c.size, notNull := c.requiresValue }
  else e

/-- A table as its statement creates it, without indexes. -/
def Model.bareImage (d : Dialect) (m : Model) : LiveTable :=
  ⟨m.name, m.columns.map (Column.image d), [], m.uniques⟩

/-- A table and its indexes as the database reports them. -/
def Model.image (d : Dialect) (m : Model) : LiveTable := { m.bareImage d with indexes := m.indexes }

namespace LiveTable

/-- Whether columns include the one of that name. -/
def covers (columns : List String) (name : String) : Bool := columns.any (Text.sameName · name)

/-- Without a column, and what covers it. -/
def dropColumn (t : LiveTable) (name : String) : LiveTable :=
  { t with
    columns := t.columns.filter fun c => !Text.sameName c.name name
    indexes := t.indexes.filter fun i => !covers i.columns name
    uniques := t.uniques.filter fun u => !covers u.columns name }

/-- With a column behind the others. -/
def addColumn (t : LiveTable) (c : LiveColumn) : LiveTable := { t with columns := t.columns ++ [c] }

/-- With a column altered. -/
def alterColumn (d : Dialect) (t : LiveTable) (c : Column) : LiveTable :=
  { t with columns := t.columns.map (·.altered d c) }

/-- Without an index. -/
def dropIndex (t : LiveTable) (name : String) : LiveTable :=
  { t with indexes := t.indexes.filter fun i => !Text.sameName i.name name }

/-- With an index behind the others. -/
def addIndex (t : LiveTable) (i : Index) : LiveTable := { t with indexes := t.indexes ++ [i] }

/-- With a constraint behind the others. -/
def addUnique (t : LiveTable) (u : Unique) : LiveTable := { t with uniques := t.uniques ++ [u] }

end LiveTable

namespace Change

/-- The table or view that a change is about. -/
def subject : Change → String
  | createTable m => m.name
  | createIndex table _ | dropIndex table _ | addUnique table _ | addColumn table _
  | dropColumn table _ | alterColumn table _ | moveAside table _ | copyRows _ table _ => table
  | dropTable name | createView name _ | dropView name => name

/-- What a change makes of the table that it is about, none where there is no table. A column that
the dialect cannot alter stays as it is. -/
def effectOnSubject (d : Dialect) : Change → Option LiveTable → Option LiveTable
  | createTable m, _ => some (m.bareImage d)
  | createIndex _ i, t => t.map (·.addIndex i)
  | dropIndex _ name, t => t.map (·.dropIndex name)
  | addUnique _ u, t => t.map (·.addUnique u)
  | addColumn _ c, t => t.map (·.addColumn ((d.withFill c).image d))
  | dropColumn _ name, t => t.map (·.dropColumn name)
  | alterColumn table c, t =>
    if (d.alterColumn? table c).isSome then t.map (LiveTable.alterColumn d · c) else t
  | moveAside _ _, _ | dropTable _, _ => none
  | copyRows .., t | createView .., t | dropView _, t => t

/-- What a change makes of the watched table. -/
def effect (d : Dialect) (watched : String) (t : Option LiveTable) (c : Change) :
    Option LiveTable :=
  if Text.sameName c.subject watched then c.effectOnSubject d t else t

end Change

/-- What the changes of a plan make of the watched table, in order. -/
def Plan.outcome (d : Dialect) (watched : String) (p : Plan) (t : Option LiveTable) :
    Option LiveTable :=
  p.changes.foldl (Change.effect d watched) t

/-! ### What is found by its name -/

namespace LiveTable

variable {t : LiveTable} {name : String}

/-- A column that is found is one of the table and has the name. -/
theorem of_column? {e : LiveColumn} (h : t.column? name = some e) :
    e ∈ t.columns ∧ Text.sameName e.name name = true :=
  Text.of_find?_eq_some h

theorem isSome_column?_of_mem {e : LiveColumn} (he : e ∈ t.columns) :
    (t.column? e.name).isSome = true :=
  List.find?_isSome.mpr ⟨e, he, Text.sameName_refl e.name⟩

/-- An index that is found is one of the table and has the name. -/
theorem of_index? {j : Index} (h : t.index? name = some j) :
    j ∈ t.indexes ∧ Text.sameName j.name name = true :=
  Text.of_find?_eq_some h

end LiveTable

/-! ### Changes of one kind -/

namespace LiveTable

theorem foldl_dropColumn (names : List String) (t : LiveTable) :
    names.foldl dropColumn t =
      { t with
        columns := t.columns.filter fun c => !names.any (Text.sameName c.name)
        indexes := t.indexes.filter fun i => !names.any (covers i.columns)
        uniques := t.uniques.filter fun u => !names.any (covers u.columns) } := by
  induction names generalizing t with
  | nil => simp [List.filter_eq_self.mpr]
  | cons n names ih =>
    rw [List.foldl_cons, ih]
    simp [dropColumn, List.filter_filter, Bool.and_comm]

theorem foldl_addColumn (cs : List LiveColumn) (t : LiveTable) :
    cs.foldl addColumn t = { t with columns := t.columns ++ cs } := by
  induction cs generalizing t with
  | nil => simp
  | cons c cs ih =>
    rw [List.foldl_cons, ih]
    simp [addColumn]

theorem foldl_alterColumn (d : Dialect) (cs : List Column) (t : LiveTable) :
    cs.foldl (alterColumn d) t =
      { t with columns := t.columns.map fun e => cs.foldl (LiveColumn.altered d) e } := by
  induction cs generalizing t with
  | nil => simp
  | cons c cs ih =>
    rw [List.foldl_cons, ih]
    simp [alterColumn, Function.comp_def]

theorem foldl_dropIndex (names : List String) (t : LiveTable) :
    names.foldl dropIndex t =
      { t with indexes := t.indexes.filter fun i => !names.any (Text.sameName i.name) } := by
  induction names generalizing t with
  | nil => simp [List.filter_eq_self.mpr]
  | cons n names ih =>
    rw [List.foldl_cons, ih]
    simp [dropIndex, List.filter_filter, Bool.and_comm]

theorem foldl_addIndex (is : List Index) (t : LiveTable) :
    is.foldl addIndex t = { t with indexes := t.indexes ++ is } := by
  induction is generalizing t with
  | nil => simp
  | cons i is ih =>
    rw [List.foldl_cons, ih]
    simp [addIndex]

theorem foldl_addUnique (us : List Unique) (t : LiveTable) :
    us.foldl addUnique t = { t with uniques := t.uniques ++ us } := by
  induction us generalizing t with
  | nil => simp
  | cons u us ih =>
    rw [List.foldl_cons, ih]
    simp [addUnique]

end LiveTable

/-! ### Runs of changes -/

namespace Change

variable {d : Dialect} {watched : String}

theorem effect_of_subject {c : Change} (h : c.subject = watched) (t : Option LiveTable) :
    c.effect d watched t = c.effectOnSubject d t := by
  simp [effect, h]

/-- Changes of one kind run through the table one after the other. -/
theorem foldl_effect_map {α : Type} {f : α → Change} {step : LiveTable → α → LiveTable}
    {xs : List α} (h : ∀ a ∈ xs, ∀ t, (f a).effect d watched (some t) = some (step t a))
    (t : LiveTable) : (xs.map f).foldl (effect d watched) (some t) = some (xs.foldl step t) := by
  induction xs generalizing t with
  | nil => rfl
  | cons a xs ih =>
    rw [List.map_cons, List.foldl_cons, List.foldl_cons, h a List.mem_cons_self,
      ih fun b hb => h b (List.mem_cons_of_mem a hb)]

/-- Changes of other tables leave the watched one alone. -/
theorem foldl_effect_of_other {cs : List Change}
    (h : ∀ c ∈ cs, Text.sameName c.subject watched = false) (t : Option LiveTable) :
    cs.foldl (effect d watched) t = t := by
  induction cs with
  | nil => rfl
  | cons c cs ih =>
    rw [List.foldl_cons, effect, h c List.mem_cons_self]
    exact ih fun b hb => h b (List.mem_cons_of_mem c hb)

end Change

namespace Plan

variable {d : Dialect}

/-- Creating a table and its indexes gives the image of the model, whatever was there. -/
theorem foldl_creation (m : Model) (t : Option LiveTable) :
    m.creation.foldl (Change.effect d m.name) t = some (m.image d) := by
  have hcreate : Change.effect d m.name t (.createTable m) = some (m.bareImage d) :=
    Change.effect_of_subject rfl t
  have hindex : ∀ i ∈ m.indexes, ∀ s, Change.effect d m.name (some s) (.createIndex m.name i) =
      some (s.addIndex i) := fun i _ s => Change.effect_of_subject rfl (some s)
  rw [Model.creation, List.foldl_cons, hcreate, Change.foldl_effect_map hindex,
    LiveTable.foldl_addIndex]
  rfl

/-- The name that a table has while it is rebuilt is another. -/
theorem sameName_scratch (name : String) : Text.sameName (scratchStart ++ name) name = false := by
  rw [Bool.eq_false_iff, Ne, Text.sameName_iff]
  intro h
  have hlength := congrArg List.length h
  simp [Text.foldCase, scratchStart] at hlength
  omega

/-- **A table that is rebuilt is the image of its model**: it is moved aside, created again, and
the changes of the old table leave it alone. -/
theorem outcome_rebuild (r : Rebuild) (t : Option LiveTable) :
    (Plan.rebuild r).outcome d r.model.name t = some (r.model.image d) := by
  have hscratch : Text.sameName r.scratch r.model.name = false := sameName_scratch r.model.name
  have hcopy : (r.changes .copyData).foldl (Change.effect d r.model.name)
      (some (r.model.image d)) = some (r.model.image d) := by
    simp only [Rebuild.changes]
    split
    · rfl
    · simp [Change.effect, Change.effectOnSubject]
  have hdrop : (r.changes .dropOld).foldl (Change.effect d r.model.name)
      (some (r.model.image d)) = some (r.model.image d) := by
    refine Change.foldl_effect_of_other (fun c hc => ?_) _
    obtain rfl := List.mem_singleton.mp hc
    exact hscratch
  simp only [outcome, changes, Rebuild.allChanges, Rebuild.steps, List.flatMap_cons,
    List.flatMap_nil, List.append_nil, List.foldl_append]
  rw [show r.changes .createNew = r.model.creation from rfl, foldl_creation, hcopy, hdrop]

end Plan

namespace Difference

/-- The names of the columns that only the table has. -/
def obsoleteNames (x : Difference) : List String := x.obsolete.map (·.name)

/-- The names of the indexes that are dropped. -/
def droppedNames (x : Difference) : List String :=
  (x.obsoleteIndexes ++ x.alteredIndexes).map (·.name)

/-- A table with the differences removed in place. -/
def applied (d : Dialect) (x : Difference) (t : LiveTable) : LiveTable where
  name := t.name
  columns :=
    ((t.columns.filter fun e => !x.obsoleteNames.any (Text.sameName e.name)) ++
        x.missing.map fun c => (d.withFill c).image d).map
      fun e => (x.altered.map (·.1)).foldl (LiveColumn.altered d) e
  indexes :=
    ((t.indexes.filter fun i => !x.obsoleteNames.any (LiveTable.covers i.columns)).filter
        fun i => !x.droppedNames.any (Text.sameName i.name)) ++
      (x.alteredIndexes ++ x.missingIndexes)
  uniques :=
    (t.uniques.filter fun u => !x.obsoleteNames.any (LiveTable.covers u.columns)) ++
      x.missingUniques

/-- **A table that is altered in place** goes through its changes kind by kind. -/
theorem foldl_inPlaceChanges {d : Dialect} {x : Difference}
    (h : ∀ change ∈ x.altered, (d.alterColumn? x.table change.1).isSome = true) (t : LiveTable) :
    x.inPlaceChanges.foldl (Change.effect d x.table) (some t) = some (x.applied d t) := by
  have hdrop : ∀ c ∈ x.obsolete, ∀ t,
      Change.effect d x.table (some t) (.dropColumn x.table c.name) =
        some (t.dropColumn c.name) := fun c _ t => Change.effect_of_subject rfl (some t)
  have hadd : ∀ c ∈ x.missing, ∀ t, Change.effect d x.table (some t) (.addColumn x.table c) =
      some (t.addColumn ((d.withFill c).image d)) := fun c _ t =>
    Change.effect_of_subject rfl (some t)
  have halter : ∀ change ∈ x.altered, ∀ t,
      Change.effect d x.table (some t) (.alterColumn x.table change.1) =
        some (t.alterColumn d change.1) := by
    intro change hchange t
    have hsubject := Change.effect_of_subject (d := d) (c := .alterColumn x.table change.1) rfl
      (some t)
    rwa [Change.effectOnSubject, if_pos (h change hchange)] at hsubject
  have hdropIndex : ∀ i ∈ x.obsoleteIndexes ++ x.alteredIndexes, ∀ t,
      Change.effect d x.table (some t) (.dropIndex x.table i.name) = some (t.dropIndex i.name) :=
    fun i _ t => Change.effect_of_subject rfl (some t)
  have hindex : ∀ i ∈ x.alteredIndexes ++ x.missingIndexes, ∀ t,
      Change.effect d x.table (some t) (.createIndex x.table i) = some (t.addIndex i) :=
    fun i _ t => Change.effect_of_subject rfl (some t)
  have hunique : ∀ u ∈ x.missingUniques, ∀ t,
      Change.effect d x.table (some t) (.addUnique x.table u) = some (t.addUnique u) :=
    fun u _ t => Change.effect_of_subject rfl (some t)
  simp only [inPlaceChanges, List.foldl_append]
  rw [Change.foldl_effect_map hdrop, Change.foldl_effect_map hadd, Change.foldl_effect_map halter,
    Change.foldl_effect_map hdropIndex, Change.foldl_effect_map hindex,
    Change.foldl_effect_map hunique]
  -- every run of one kind is a single change of the lists of the table
  have hcolumns : ∀ t : LiveTable, x.obsolete.foldl (fun t c => t.dropColumn c.name) t =
      x.obsoleteNames.foldl LiveTable.dropColumn t := fun t => List.foldl_map.symm
  have hnew : ∀ t : LiveTable,
      x.missing.foldl (fun t c => t.addColumn ((d.withFill c).image d)) t =
        (x.missing.map fun c => (d.withFill c).image d).foldl LiveTable.addColumn t :=
    fun t => List.foldl_map.symm
  have haltered : ∀ t : LiveTable, x.altered.foldl (fun t change => t.alterColumn d change.1) t =
      (x.altered.map (·.1)).foldl (LiveTable.alterColumn d) t := fun t => List.foldl_map.symm
  have hindexes : ∀ t : LiveTable,
      (x.obsoleteIndexes ++ x.alteredIndexes).foldl (fun t i => t.dropIndex i.name) t =
        x.droppedNames.foldl LiveTable.dropIndex t := fun t => List.foldl_map.symm
  rw [hcolumns, hnew, haltered, hindexes, LiveTable.foldl_dropColumn, LiveTable.foldl_addColumn,
    LiveTable.foldl_alterColumn, LiveTable.foldl_dropIndex, LiveTable.foldl_addIndex,
    LiveTable.foldl_addUnique]
  rfl

end Difference

end EntitySql
