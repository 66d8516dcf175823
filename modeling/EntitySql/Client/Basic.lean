import EntitySql.Catalog.Snapshot
import EntitySql.Client.Directory
import EntitySql.Client.Options
import EntitySql.Database.Connection
import EntitySql.Model.Registry
import EntitySql.Sql.Change
import EntitySql.Sql.Operation
import EntitySql.Sql.Shipped

/-!
# Clients

A client is a connection to one database, with its options and the models that it has built. A
`Session` is something a client does: it answers or fails, and leaves the client in a new state
either way. A client has a single connection, so while a transaction is open only the tasks of that
transaction reach the database.
-/

namespace EntitySql

/-- The options in the text of a document. -/
def ClientOptions.ofDocument (text : String) : Except ClientError ClientOptions :=
  match ofText? text with
  | some o => .ok o
  | none => .error (.config .document)

/-- A client. -/
structure Client (Key : Type) where
  /-- The options it was opened with. -/
  options : ClientOptions := {}
  /-- Where its database is kept. -/
  place : Place := .memory
  /-- The models built so far. -/
  registry : Registry Key := {}
  /-- The connection. -/
  connection : Connection := {}

/-- What a client does: an answer or an error, and the client afterwards. -/
abbrev Session (Key α : Type) := ExceptT ClientError (StateM (Client Key)) α

/-- Whether a statement belongs to the open transaction. -/
inductive Reach where
  /-- It waits until no transaction is open. -/
  | outside
  /-- It runs in the open transaction. -/
  | inside
deriving DecidableEq, Inhabited, Repr

namespace Client

variable {Key : Type}

/-- Opens the database of the options, and creates its file if it is missing and may be created. -/
def connect (o : ClientOptions) (d : Directory) : Except ClientError (Client Key × Directory) :=
  match Address.ofUrl o.url with
  | .error fault => .error (.config fault)
  | .ok a =>
    match d.databaseAt (o.createIfMissing && !a.readOnly) a.place with
    | .error source => .error (.database source)
    | .ok db =>
      let connection : Connection := { database := db, readOnly := a.readOnly }
      .ok ({ options := o, place := a.place, connection := connection },
        d.keep a.place db)

/-- The directory after the client has been left; an open transaction is undone. -/
def leave (c : Client Key) (d : Directory) : Directory :=
  d.keep c.place c.connection.rollback.database

end Client

namespace Session

variable {Key α : Type}

/-- Does a task: the answer or the error, and the client afterwards. -/
def runOn (t : Session Key α) (c : Client Key) : Except ClientError α × Client Key :=
  StateT.run (ExceptT.run t) c

/-- Answers for a result of the layers that build statements. -/
def ofExcept (r : Except Error α) : Session Key α :=
  match r with
  | .ok a => pure a
  | .error e => throw (.core e)

/-- Whether the connection is taken by a transaction that the task does not belong to. -/
def isBlocked (reach : Reach) : Session Key Bool := do
  return reach = .outside && (← get).connection.saved.isSome

/-- Waits for the connection. -/
def acquire : Session Key Unit := do
  if ← isBlocked .outside then throw (.database .busy)

/-- Runs a statement. -/
def send (s : Statement) (reach : Reach := .outside) : Session Key Outcome := do
  if ← isBlocked reach then throw (.statement s.sql s.params .busy)
  let c ← get
  let (result, connection) := c.connection.execute s.sql s.params
  set { c with connection }
  match result with
  | .ok o => return o
  | .error fault => throw (.statement s.sql s.params (.ofFault fault))

/-- Runs a statement for the number of rows that it writes. -/
def execute (s : Statement) (reach : Reach := .outside) : Session Key Nat := do
  return (← send s reach).affected

/-- Opens a transaction. -/
def begin : Session Key Unit := do
  acquire
  modify fun c => { c with connection := c.connection.begin }

/-- Keeps what the open transaction has written. -/
def commit : Session Key Unit := modify fun c => { c with connection := c.connection.commit }

/-- Undoes what the open transaction has written. -/
def rollback : Session Key Unit := modify fun c => { c with connection := c.connection.rollback }

/-- Runs a task in a transaction of its own, which is undone when the task fails. -/
def atomically (t : Session Key α) : Session Key α := do
  begin
  try
    let a ← t
    commit
    return a
  catch e =>
    rollback
    throw e

/-- The database as the connection sees it. -/
def database : Session Key Database := do return (← get).connection.database

/-- Whether a table of exactly that name exists. -/
def tableExists (name : String) : Session Key Bool := do
  acquire
  return (← database).hasTable name

/-- The table or view of exactly that name. -/
def schema (name : String) : Session Key (Option LiveObject) := do
  acquire
  ofExcept ((← database).liveObject? name)

/-- Drops a table if it exists. -/
def dropTable (name : String) : Session Key Unit := do
  let _ ← send ⟨Dialect.sqlite.dropTable name, []⟩

/-- Drops a view if it exists. -/
def dropView (name : String) : Session Key Unit := do
  let _ ← send ⟨Dialect.sqlite.dropView name, []⟩

/-- Runs statements of the open transaction in order, and answers how many rows each has written. -/
def executeAll : List String → Session Key (List Nat)
  | [] => return []
  | sql :: rest => do
    let n ← execute ⟨sql, []⟩ .inside
    return n :: (← executeAll rest)

/-- Deletes all rows of a table, and restarts its numbering if asked to; answers how many rows there
were. In a database that numbers no table there is no numbering to restart. -/
def truncate (table : String) (resetSequence : Bool) : Session Key Nat := do
  let restarts ← if resetSequence then tableExists Database.sequenceName else pure false
  atomically do
    let counts ← executeAll (Dialect.sqlite.truncate table restarts)
    return counts.headD 0

end Session

/-- A transaction as it is shown. -/
structure OpenTransaction where
  /-- The time that each of its commands may take. -/
  limit : Option Duration

/-- The text that shows a transaction. -/
def OpenTransaction.text (t : OpenTransaction) : String :=
  let limit := match t.limit with
    | some d => s!"Some({d.text})"
    | none => "None"
  "Transaction \x7b timeout: " ++ limit ++ ", .. \x7d"

end EntitySql
