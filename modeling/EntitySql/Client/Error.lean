import EntitySql.Catalog.Live
import EntitySql.Database.Fault
import EntitySql.Time.Duration

/-!
# Client errors

What can go wrong when a client connects or runs a statement. Each error is a cause;
`ClientError.message` words it, and `ClientError.causes` lists what lies behind it.
-/

namespace EntitySql

/-- A failure that the database driver reports. -/
inductive DriverError where
  /-- A query gave no row where one was expected. -/
  | noRow
  /-- The only connection is taken by a transaction. -/
  | busy
  /-- The database refused a statement or a connection, with its code and text. -/
  | database (code : Nat) (text : String)
deriving DecidableEq, Inhabited, Repr

namespace DriverError

/-- The code and text of the database. -/
def detail (code : Nat) (text : String) : String := s!"(code: {code}) {text}"

/-- The wording of a driver's error. -/
def message : DriverError → String
  | noRow => "no rows returned by a query that expected to return at least one row"
  | busy => "pool timed out while waiting for an open connection"
  | database code text => "error returned from database: " ++ detail code text

/-- The messages from this error inwards. -/
def chain : DriverError → List String
  | database code text => [(database code text).message, detail code text]
  | e => [e.message]

/-- The refusal of a statement. -/
def ofFault (f : Fault) : DriverError := database f.code f.message

/-- The refusal to open a file. -/
def cannotOpen : DriverError := database 14 "unable to open database file"

/-- The refusal of a file that holds something else. -/
def notDatabase : DriverError := database 26 "file is not a database"

end DriverError

/-- What is wrong with the configuration of a client. -/
inductive ConfigFault where
  /-- The document is no valid set of options. -/
  | document
  /-- The file does not exist. -/
  | missingFile (path : String)
  /-- A parameter of the database url has a value that is not known. -/
  | unknownSetting (url parameter value : String)
  /-- The database url has a parameter that is not known. -/
  | unknownParameter (url parameter : String)
  /-- Another reason, in words. -/
  | other (reason : String)
deriving DecidableEq, Inhabited, Repr

namespace ConfigFault

/-- A word between backquotes. -/
def inBackquotes (word : String) : String := "\x60" ++ word ++ "\x60"

/-- What is said of a url that cannot be read. -/
def invalidUrl (url reason : String) : String :=
  s!"invalid database url '{url}': error with configuration: {reason}"

/-- The reason that a configuration fault gives. -/
def reason : ConfigFault → String
  | document => "invalid options"
  | missingFile path => s!"{path}: No such file or directory (os error 2)"
  | unknownSetting url parameter value =>
    invalidUrl url s!"unknown value {Text.showText value} for {inBackquotes parameter}"
  | unknownParameter url parameter =>
    invalidUrl url
      s!"unknown query parameter {inBackquotes parameter} while parsing connection URL"
  | other reason => reason

end ConfigFault

/-- An error of a client. -/
inductive ClientError where
  /-- A statement failed. -/
  | statement (sql : String) (params : List Value) (source : DriverError)
  /-- The database failed otherwise. -/
  | database (source : DriverError)
  /-- A statement took too long. -/
  | timeout (sql : String) (limit : Duration)
  /-- A query gave a value of the wrong kind. -/
  | unexpectedValue (sql expected : String) (v : Value)
  /-- A table exists where a view is mapped, or the other way round. -/
  | kindConflict (name : String) (live model : ObjectKind)
  /-- The statement could not be built. -/
  | core (e : Error)
  /-- The configuration is not valid. -/
  | config (fault : ConfigFault)
deriving DecidableEq, Inhabited, Repr

namespace ClientError

/-- The wording of a client's error. -/
def message : ClientError → String
  | statement sql params source =>
    s!"Statement failed: {source.message}\n  sql: {sql}\n  params: {Value.shownList params}"
  | database source => s!"Database error: {source.message}"
  | timeout sql limit => s!"Statement timed out after {limit.text}: {sql}"
  | unexpectedValue sql expected v =>
    s!"Expected {expected} from query, got {v.shown}\n  sql: {sql}"
  | kindConflict name live model =>
    s!"'{name}' exists as a {live.word} but is mapped as a {model.word}"
  | core e => e.message
  | config fault => s!"Invalid configuration: {fault.reason}"

/-- The messages of what lies behind the error, from the outside inwards. -/
def causes : ClientError → List String
  | statement _ _ source => source.chain
  | database source => source.chain
  | _ => []

end ClientError

end EntitySql
