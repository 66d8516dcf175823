import EntitySql.Catalog.ViewText
import EntitySql.Migration.Difference
import EntitySql.Sql.Change

/-!
# Plans

A plan is what reconciles a live table or view with its model. A table that does not exist is
created; one that agrees with its model is left alone; differences are removed by altering the table
where the dialect can, and otherwise by a `Rebuild`: the table is moved aside, created again from
the model, its rows are copied over, and the old one is dropped.

Two view bodies are taken for the same when they have the same letters and digits.
-/

namespace EntitySql

/-- The start of the name that a table has while it is rebuilt. -/
def scratchStart : String := "__tabula_tmp_"

/-- The states of a rebuild. -/
inductive RebuildStep where
  /-- The differences are known and nothing is done yet. -/
  | diagnose
  /-- The table is moved aside and its indexes are dropped. -/
  | moveAside
  /-- The new table and its indexes are created. -/
  | createNew
  /-- The rows are copied. -/
  | copyData
  /-- The old table is dropped. -/
  | dropOld
  /-- Nothing is left to do. -/
  | done
deriving DecidableEq, Inhabited, Repr

/-- The state that follows. -/
def RebuildStep.next : RebuildStep → RebuildStep
  | diagnose => moveAside
  | moveAside => createNew
  | createNew => copyData
  | copyData => dropOld
  | dropOld | done => done

/-- A table to rebuild. -/
structure Rebuild where
  /-- The model of the new table. -/
  model : Model
  /-- What forces the rebuild. -/
  difference : Difference
deriving DecidableEq, Inhabited, Repr

/-- The changes that create a table and its indexes. -/
def Model.creation (m : Model) : List Change :=
  .createTable m :: m.indexes.map (.createIndex m.name)

namespace Rebuild

/-- The name of the table. -/
def table (r : Rebuild) : String := r.model.name

/-- The name that the old table has meanwhile. -/
def scratch (r : Rebuild) : String := scratchStart ++ r.table

/-- Where a new column takes its values from: from the old column of that name, where missing values
are filled if the column newly requires one; else, if it requires a value that the database does not
number, from the fill literal. -/
def cell? (live : LiveTable) (c : Column) : Option (String × CopySource) :=
  match live.column? c.name with
  | some old =>
    if c.requiresValue && !old.requiresValue then some (c.name, .columnOrFill old.name c)
    else some (c.name, .column old.name)
  | none => if c.requiresValue && !c.autoincrement then some (c.name, .fill c) else none

/-- The copied columns of the new table, in order. -/
def cells (r : Rebuild) : List (String × CopySource) :=
  r.model.columns.filterMap (cell? r.difference.live)

/-- The changes of a step. -/
def changes (r : Rebuild) : RebuildStep → List Change
  | .moveAside =>
    .dropTable r.scratch :: .moveAside r.table r.scratch ::
      r.difference.live.indexes.map fun i => .dropIndex r.scratch i.name
  | .createNew => r.model.creation
  | .copyData => if r.cells.isEmpty then [] else [.copyRows r.scratch r.table r.cells]
  | .dropOld => [.dropTable r.scratch]
  | .diagnose | .done => []

/-- The steps that change anything, in order. -/
def steps : List RebuildStep := [.moveAside, .createNew, .copyData, .dropOld]

/-- All changes in order. -/
def allChanges (r : Rebuild) : List Change := steps.flatMap r.changes

end Rebuild

/-- What a schema update does. -/
inductive Plan where
  /-- Nothing: model and database agree. -/
  | noOp
  /-- The table is created. -/
  | createTable (m : Model)
  /-- The table is altered. -/
  | inPlace (difference : Difference) (changes : List Change)
  /-- The table is rebuilt. -/
  | rebuild (r : Rebuild)
  /-- The view is created. -/
  | createView (name definition : String)
  /-- The view is dropped and created again. -/
  | replaceView (name definition : String)
deriving DecidableEq, Inhabited, Repr

namespace Plan

/-- The word for the kind of plan. -/
def kind : Plan → String
  | noOp => "no-op"
  | createTable _ => "create-table"
  | inPlace _ _ => "in-place"
  | rebuild _ => "recreate"
  | createView _ _ => "create-view"
  | replaceView _ _ => "replace-view"

/-- Whether there is nothing to do. -/
def isNoOp : Plan → Bool
  | noOp => true
  | _ => false

/-- The changes in order. -/
def changes : Plan → List Change
  | noOp => []
  | createTable m => m.creation
  | inPlace _ changes => changes
  | rebuild r => r.allChanges
  | createView name definition => [.createView name definition]
  | replaceView name definition => [.dropView name, .createView name definition]

/-- The statements in order. -/
def statements (d : Dialect) (p : Plan) : List String := p.changes.flatMap (Change.statements d)

end Plan

namespace Difference

/-- The changes that remove the differences in place. Constraints that only the table has stay. -/
def inPlaceChanges (x : Difference) : List Change :=
  x.obsolete.map (fun c => .dropColumn x.table c.name) ++
    x.missing.map (.addColumn x.table) ++
    x.altered.map (fun change => .alterColumn x.table change.1) ++
    (x.obsoleteIndexes ++ x.alteredIndexes).map (fun i => .dropIndex x.table i.name) ++
    (x.alteredIndexes ++ x.missingIndexes).map (.createIndex x.table) ++
    x.missingUniques.map (.addUnique x.table)

end Difference

/-- Plans the reconciliation of a table, none if it does not exist, with its model. -/
def planTable (d : Dialect) (m : Model) : Option LiveTable → Plan
  | none => .createTable m
  | some live =>
    let x := Difference.diagnose d m live
    if x.isEmpty then .noOp
    else if x.requiresRebuild d then .rebuild ⟨m, x⟩
    else if x.inPlaceChanges.isEmpty then .noOp
    else .inPlace x x.inPlaceChanges

/-- Whether two view bodies have the same letters and digits. -/
def sameDefinition (a b : String) : Bool := ViewText.fingerprint a == ViewText.fingerprint b

/-- Plans the reconciliation of a view, none if it does not exist, with its model. There is nothing
to do for the model of a table. -/
def planView (m : Model) (live : Option LiveView) : Plan :=
  match m.storage, live with
  | .table, _ => .noOp
  | .view definition, none => .createView m.name definition
  | .view definition, some existing =>
    if sameDefinition existing.definition definition then .noOp
    else .replaceView m.name definition

end EntitySql
