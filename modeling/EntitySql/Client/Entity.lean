import EntitySql.Client.Answer
import EntitySql.Client.Basic
import EntitySql.Query.Rows

/-!
# Entities of a client

The tasks on the rows of one entity type. The model of the type is built when the client first needs
it, and kept from then on.
-/

namespace EntitySql

/-- An entity type: the key by which a client tells it apart, and its mapping. -/
structure Entity (Key : Type) where
  /-- Tells the type apart. -/
  key : Key
  /-- The mapping, as it is now. -/
  mapping : Mapping

/-- The statement of an operation for a list of arguments. -/
def Session.bind {Key : Type} (o : Except Error Operation) (args : List Argument) :
    Session Key Statement :=
  Session.ofExcept (o.bind fun o => o.statement args)

/-- The rows that an answer counts. -/
def Outcome.counted (o : Outcome) (sql : String) : Except ClientError Int64 :=
  match o.scalar with
  | .int n => .ok n
  | v => .error (.unexpectedValue sql "an integer count" v)

namespace Entity

variable {Key : Type} [DecidableEq Key]

/-- The model that the client keeps for the type, or builds now. -/
def model (e : Entity Key) : Session Key Model := do
  let c ← get
  let (result, registry, _) := c.registry.get e.key e.mapping
  set { c with registry }
  Session.ofExcept result

/-- The commands on the rows of the type. -/
def rows (e : Entity Key) : Session Key Rows := do
  let m ← e.model
  return ⟨m, .sqlite, (← get).options.ignoreCase⟩

/-- The operation of an expression over the type. -/
def prepare (e : Entity Key) (x : Expr) : Session Key Operation := do
  let r ← e.rows
  Session.ofExcept ((⟨r.model, r.ignoreCase, none⟩ : Scope).prepare r.dialect x)

/-- Inserts a row; answers how many rows were inserted. -/
def insert (e : Entity Key) (values : RowValues) : Session Key Nat := do
  let r ← e.rows
  Session.execute (← Session.bind r.insert (r.insertArguments values))

/-- Updates the row with the key of the given one; answers how many rows were found. -/
def update (e : Entity Key) (values : RowValues) : Session Key Nat := do
  let r ← e.rows
  Session.execute (← Session.bind r.update (r.updateArguments values))

/-- Deletes the row with the key of the given one; answers how many rows were found. -/
def delete (e : Entity Key) (values : RowValues) : Session Key Nat := do
  let r ← e.rows
  Session.execute (← Session.bind r.delete (r.deleteArguments values))

/-- Deletes the rows with the given keys; answers how many rows were found. -/
def deleteMany (e : Entity Key) (keys : List Value) : Session Key Nat := do
  let r ← e.rows
  Session.execute (← Session.bind r.deleteMany [.list keys])

/-- The rows that meet a condition. -/
def load (e : Entity Key) (filter : Option Expr) : Session Key (List NamedRow) := do
  let r ← e.rows
  return (← Session.send (← Session.bind (r.load filter) [])).namedRows

/-- The number of rows that meet a condition. -/
def count (e : Entity Key) (filter : Option Expr) : Session Key Int64 := do
  let r ← e.rows
  let s ← Session.bind (r.count filter) []
  let o ← Session.send s
  MonadExcept.ofExcept (o.counted s.sql)

end Entity

end EntitySql
