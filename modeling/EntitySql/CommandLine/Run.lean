import EntitySql.Catalog.Json
import EntitySql.Client.Basic
import EntitySql.CommandLine.Arguments

/-!
# Running the program

The program looks after the schema of one database. Its database is the one that the arguments name,
else the one that the environment names, else the one of the options, else `db.sqlite3`. It answers
with what it prints, or with an error and what lies behind it.
-/

namespace EntitySql

/-- How the program ends. -/
inductive Exit where
  /-- Well, with what it printed. -/
  | done (output : String)
  /-- With an error. -/
  | failed (error : String)
  /-- The arguments were wrong. -/
  | misused
deriving DecidableEq, Inhabited, Repr

namespace Exit

/-- The exit code. -/
def code : Exit → UInt32
  | done _ => 0
  | failed _ => 1
  | misused => 2

end Exit

namespace CommandLine

/-- A cause on lines of its own; further lines stand under its first word. -/
def causeText (position : Nat) (cause : String) : String :=
  let indented := cause.toList.flatMap fun c =>
    if c = '\n' then '\n' :: List.replicate 7 ' ' else [c]
  "\n    " ++ toString position ++ ": " ++ String.ofList indented

/-- An error with what lies behind it. -/
def errorText (message : String) (causes : List String) : String :=
  "Error: " ++ message ++
    (if causes.isEmpty then ""
      else "\n\nCaused by:" ++ String.join (causes.mapIdx causeText)) ++ "\n"

/-- The end with a client's error. -/
def failure (e : ClientError) : Exit := .failed (errorText e.message e.causes)

/-- The options in a document, or those of the default database. -/
def options (d : Directory) : Option String → Except ClientError ClientOptions
  | none => .ok { url := "sqlite:db.sqlite3" }
  | some path =>
    match d.file? path with
    | none => .error (.config (.missingFile path))
    | some (.document text) => ClientOptions.ofDocument text
    | some (.database _) => .error (.config .document)

/-- The options of a call. -/
def optionsFor (i : Invocation) (environment : Option String) (d : Directory) :
    Except ClientError ClientOptions := do
  let o ← options d i.config
  return match i.database.or environment with
    | some url => { o with url := url }
    | none => o

/-- Does what is asked for. -/
def perform : Request → Session Unit Exit
  | .tableExists name => do
    return .done (if ← Session.tableExists name then "true\n" else "false\n")
  | .inspect name => do
    match ← Session.schema name with
    | some o => return .done (o.toJson.pretty ++ "\n")
    | none => return .failed (errorText s!"No table or view named '{name}'" [])
  | .drop name isView => do
    if isView then Session.dropView name else Session.dropTable name
    return .done ""
  | .truncate table resetSequence => do
    let _ ← Session.truncate table resetSequence
    return .done ""

/-- Runs the program in a directory. -/
def run (args : List String) (environment : Option String) (d : Directory) : Exit × Directory :=
  match Invocation.read? args with
  | none => (.misused, d)
  | some i =>
    match (optionsFor i environment d).bind fun o => Client.connect o d with
    | .error e => (failure e, d)
    | .ok (c, d) =>
      match (perform i.request).runOn c with
      | (.ok exit, c) => (exit, c.leave d)
      | (.error e, c) => (failure e, c.leave d)

end CommandLine

end EntitySql
