import EntitySql.CommandLine.Run
import EntitySql.Database.Script

/-!
# The program

Reads the files that a call needs, runs it, prints its answer, and writes the database back. A
database file holds the script of its database.
-/

open EntitySql

/-- The text of a file, none if it cannot be read. -/
def readText (path : String) : IO (Option String) := do
  try
    return some (← IO.FS.readFile path)
  catch _ =>
    return none

/-- Adds a document to a directory, if it can be read. -/
def loadDocument (d : Directory) (path : String) : IO Directory := do
  let d := { d with folders := Directory.folder path :: d.folders }
  return match ← readText path with
    | some text => d.write path (.document text)
    | none => d

/-- Adds a database to a directory, or the place for it if it can be created. -/
def loadDatabase (d : Directory) (create : Bool) (path : String) : IO Directory := do
  let there := { d with folders := Directory.folder path :: d.folders }
  match ← readText path with
  | some text =>
    return there.write path ((Database.ofScript? text).elim (.document text) .database)
  | none =>
    if !create then return d
    try
      IO.FS.writeFile path ""
      return there
    catch _ =>
      return d

/-- Adds the files that a call needs. -/
def loadFiles (i : Invocation) (environment : Option String) : IO (Directory × Option String) := do
  let d ← match i.config with
    | some path => loadDocument {} path
    | none => pure {}
  match CommandLine.optionsFor i environment d with
  | .error _ => return (d, none)
  | .ok o =>
    match Address.ofUrl o.url with
    | .ok ⟨.file path, _⟩ => return (← loadDatabase d o.createIfMissing path, some path)
    | _ => return (d, none)

def main (args : List String) : IO UInt32 := do
  let environment ← IO.getEnv "DATABASE_URL"
  let (d, path) ← match Invocation.read? args with
    | some i => loadFiles i environment
    | none => pure ({}, none)
  let (exit, after) := CommandLine.run args environment d
  if let some path := path then
    if let some (.database db) := after.file? path then
      IO.FS.writeFile path db.script
  match exit with
  | .done output => IO.print output
  | .failed error => IO.eprint error
  | .misused =>
    IO.eprintln ("usage: [-d URL] [-c FILE] [-v] exists TABLE | inspect NAME | " ++
      "drop NAME [--view] | truncate TABLE [--reset-sequence]")
  return exit.code
