import EntitySql.Database.Definition
import EntitySql.Database.Grammar.Statement
import EntitySql.Database.Writing

/-!
# Connections

A connection runs statements on a database, one after the other. What an open transaction writes is
undone by rolling back, which returns to the database as it was at its beginning. The setting by
which a rename leaves dependent views as they are written belongs to the connection: it is no part
of the database, and rolling back does not return it.

The setting is kept and answered here, and has no effect: `Database.renameTable` renames a table as
SQLite does where it is on. Where it is off, SQLite also writes the new name into the views of the
table, and refuses the rename if a view of the database cannot be read.
-/

namespace EntitySql

/-- What a statement answers. -/
structure Outcome where
  /-- The names of the result columns. -/
  names : List String := []
  /-- The result rows. -/
  rows : List Record := []
  /-- The number of rows that were written. -/
  affected : Nat := 0
deriving DecidableEq, Inhabited, Repr

/-- A connection to a database. -/
structure Connection where
  /-- The database as the connection sees it. -/
  database : Database := {}
  /-- The database at the beginning of the open transaction. -/
  saved : Option Database := none
  /-- Whether a rename leaves dependent views as they are written. The setting is only kept: every
  rename leaves them so. -/
  legacyRename : Bool := false
  /-- Whether nothing may be written. -/
  readOnly : Bool := false
deriving Inhabited, Repr

namespace Connection

/-- Opens a transaction. -/
def begin (c : Connection) : Connection := { c with saved := some c.database }

/-- Keeps what the open transaction has written. -/
def commit (c : Connection) : Connection := { c with saved := none }

/-- Undoes what the open transaction has written. -/
def rollback (c : Connection) : Connection :=
  { c with database := c.saved.getD c.database, saved := none }

/-- The answer to a query. -/
def outcome (r : Relation) : Outcome := { names := r.headings.map Heading.name, rows := r.rows }

/-- The connection after a change of the database, with an answer. -/
def wrote (c : Connection) (written : Database × Nat) : Connection × Outcome :=
  ({ c with database := written.1 }, { affected := written.2 })

/-- The connection after a definition. -/
def defined (c : Connection) (db : Database) : Connection × Outcome :=
  ({ c with database := db }, {})

/-- Performs a statement, whether or not the connection may write. A table is renamed alike with
both settings of `legacyRename`. -/
def perform (c : Connection) (b : Bindings) : Command → Except Fault (Connection × Outcome)
  | .createTable t => c.defined <$> c.database.createTable t
  | .createIndex unique ifMissing name table columns =>
    c.defined <$> c.database.createIndex unique ifMissing name table columns
  | .createView ifMissing name written q sql =>
    c.defined <$> c.database.createView ifMissing name written q sql
  | .drop .table ifExists name => c.defined <$> c.database.dropTable ifExists name
  | .drop .view ifExists name => c.defined <$> c.database.dropView ifExists name
  | .drop .index ifExists name => c.defined <$> c.database.dropIndex ifExists name
  | .renameTable table name => c.defined <$> c.database.renameTable table name
  | .addColumn table column => c.defined <$> c.database.addColumn b table column
  | .dropColumn table column written =>
    c.defined <$> c.database.dropColumn table column written
  | .insert table columns source => c.wrote <$> c.database.insert b table columns source
  | .update table assignments condition =>
    c.wrote <$> c.database.update b table assignments condition
  | .delete table condition => c.wrote <$> c.database.delete b table condition
  | .query q => do return (c, outcome (← c.database.answer b q))
  | .askLegacyRename =>
    .ok (c, { names := ["legacy_alter_table"], rows := [[.ofBool c.legacyRename]] })
  | .setLegacyRename on => .ok ({ c with legacyRename := on }, {})

/-- Runs a statement. A connection that may not write refuses what would write, unless there is
nothing to drop or to create. -/
def run (c : Connection) (b : Bindings) (command : Command) :
    Except Fault (Connection × Outcome) := do
  let (after, o) ← c.perform b command
  if c.readOnly &&
      (command.changesTable || after.database.objectCount != c.database.objectCount) then
    throw .readOnly
  return (after, o)

/-- Runs the statements of a text in order, at most `n`, until one is refused; what the ones before
it have written stays. The rows of all statements are answered, under the names of the last one that
has any. -/
def runAll (c : Connection) (b : Bindings) (u : Unread) (so_far : Outcome) :
    Nat → Except Fault Outcome × Connection
  | 0 => (.ok so_far, c)
  | n + 1 =>
    match Reading.command?.run u with
    | .error fault => (.error fault, c)
    | .ok (none, _) => (.ok so_far, c)
    | .ok (some command, rest) =>
      match c.run b command with
      | .error fault => (.error fault, c)
      | .ok (c, o) =>
        let joined : Outcome := {
          names := if o.names.isEmpty then so_far.names else o.names
          rows := so_far.rows ++ o.rows
          affected := so_far.affected + o.affected }
        c.runAll b rest joined n

/-- Runs a text of statements with bound values. -/
def execute (c : Connection) (sql : String) (params : List Value) :
    Except Fault Outcome × Connection :=
  let tokens := Token.ofText sql
  c.runAll ⟨params.map Datum.ofValue, .epoch⟩ ⟨tokens, 0⟩ {} (tokens.length + 1)

end Connection

end EntitySql
