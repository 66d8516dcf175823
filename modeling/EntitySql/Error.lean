/-!
# Errors

What can go wrong before any statement reaches a database. Each error is a cause with the data that
explains it; `Error.message` words it.
-/

namespace EntitySql

/-- What is inconsistent in a mapping. -/
inductive ModelFault where
  /-- More than one column is the primary key. -/
  | severalKeys (columns : List String)
  /-- Two columns have the same name. -/
  | duplicateColumn (name : String)
  /-- A column that is not the primary key is auto-incremented. -/
  | autoincrementOffKey (name : String)
deriving DecidableEq, Inhabited, Repr

/-- The command on a row that was asked for. -/
inductive RowCommand where
  | insert
  | update
  | delete
deriving DecidableEq, Inhabited, Repr

/-- Why an entity cannot support a command. -/
inductive Misuse where
  /-- The entity is a view. -/
  | readOnly
  /-- No column takes a value on insertion. -/
  | nothingToInsert
  /-- The entity has no primary key. -/
  | noKey
  /-- The entity has no column besides its key. -/
  | onlyKey
deriving DecidableEq, Inhabited, Repr

/-- How the arguments of a call differ from the slots of the operation. -/
inductive ArgumentFault where
  /-- There are more or fewer arguments than slots. -/
  | count (expected got : Nat)
  /-- A list was given for a scalar slot. -/
  | listForScalar (position : Nat)
  /-- A single value was given for a list slot. -/
  | scalarForList (position : Nat)
deriving DecidableEq, Inhabited, Repr

/-- An error of the mapping, compiling or planning layers. -/
inductive Error where
  /-- An expression names a property that no column is mapped from. -/
  | propertyNotFound (property entity : String) (known : List String)
  /-- An expression calls a function that is not known with that many arguments. -/
  | unsupportedCall (function : String) (arity : Nat)
  /-- The shape of the entity does not support the command. -/
  | misuse (command : RowCommand) (entity : String) (reason : Misuse)
  /-- The mapping is inconsistent. -/
  | invalidModel (entity : String) (fault : ModelFault)
  /-- The arguments do not fit the operation. -/
  | argumentMismatch (fault : ArgumentFault)
  /-- A catalog holds an object that is neither a table nor a view. -/
  | unknownKind (kind : String)
deriving DecidableEq, Inhabited, Repr

/-- The reason that a model fault gives. -/
def ModelFault.reason : ModelFault → String
  | severalKeys columns => "multiple primary key columns: " ++ ", ".intercalate columns
  | duplicateColumn name => s!"duplicate column '{name}'"
  | autoincrementOffKey name => s!"column '{name}' is autoincrement but not the primary key"

/-- The name of a command. -/
def RowCommand.name : RowCommand → String
  | insert => "insert"
  | update => "update"
  | delete => "delete"

/-- The reason that a misuse gives. -/
def Misuse.reason : Misuse → String
  | readOnly => "views are read-only"
  | nothingToInsert => "no insertable columns"
  | noKey => "entity has no primary key"
  | onlyKey => "no columns besides the primary key"

/-- The reason that an argument fault gives. -/
def ArgumentFault.reason : ArgumentFault → String
  | count expected got => s!"expected {expected} argument(s), got {got}"
  | listForScalar position => s!"argument {position} is an array but the slot is scalar"
  | scalarForList position => s!"argument {position} is scalar but the slot is an array"

/-- The wording of an error. -/
def Error.message : Error → String
  | propertyNotFound property entity known =>
    s!"Property '{property}' not found on '{entity}'; known columns: " ++ ", ".intercalate known
  | unsupportedCall function arity =>
    s!"Unsupported construct: function '{function}' with {arity} argument(s)"
  | misuse command entity reason =>
    s!"Cannot build {command.name} for '{entity}': {reason.reason}"
  | invalidModel entity fault => s!"Invalid model '{entity}': {fault.reason}"
  | argumentMismatch fault => s!"Argument mismatch: {fault.reason}"
  | unknownKind kind => s!"Unknown schema descriptor kind '{kind}'"

end EntitySql
