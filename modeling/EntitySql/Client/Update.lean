import EntitySql.Client.Entity
import EntitySql.Migration.Plan

/-!
# Schema updates

A schema update brings the table or view of a model in line with it. The live object is looked up,
the plan made and every statement run in one transaction, so a failed update leaves the database as
it was.
-/

namespace EntitySql

/-- What a schema update did. -/
structure SchemaUpdate where
  /-- The table or view. -/
  entity : String
  /-- The plan that was carried out. -/
  plan : Plan
  /-- The number of statements that were run. -/
  executed : Nat
deriving Inhabited, Repr

/-- The plan for a model and the live object of its name. A table is never turned into a view, nor a
view into a table. -/
def planUpdate (m : Model) (live : Option LiveObject) : Except ClientError Plan :=
  match m.isView, live with
  | false, none => .ok (planTable .sqlite m none)
  | false, some (.table t) => .ok (planTable .sqlite m (some t))
  | true, none => .ok (planView m none)
  | true, some (.view v) => .ok (planView m (some v))
  | false, some (.view _) => .error (.kindConflict m.name .view .table)
  | true, some (.table _) => .error (.kindConflict m.name .table .view)

variable {Key : Type}

/-- Brings the table or view of a model in line with it. -/
def Model.updateSchema (m : Model) : Session Key SchemaUpdate :=
  Session.atomically do
    let live ← Session.ofExcept ((← Session.database).liveObject? m.name)
    let plan ← MonadExcept.ofExcept (planUpdate m live)
    let counts ← Session.executeAll (plan.statements .sqlite)
    return ⟨m.name, plan, counts.length⟩

/-- Brings the table or view of an entity type in line with its model. -/
def Entity.updateSchema [DecidableEq Key] (e : Entity Key) : Session Key SchemaUpdate := do
  (← e.model).updateSchema

end EntitySql
