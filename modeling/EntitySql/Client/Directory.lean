import EntitySql.Client.Address
import EntitySql.Database.Catalog

/-!
# Directories

The files that a client can reach: databases, and documents with options. A file is named by its
path from the working directory; a path through a folder that does not exist reaches nothing.
-/

namespace EntitySql

/-- What a file holds. -/
inductive FileContent where
  | document (text : String)
  | database (db : Database)
deriving Inhabited, Repr

/-- The files that can be reached. -/
structure Directory where
  /-- The files, by path. -/
  files : List (String × FileContent) := []
  /-- The folders that exist besides the working directory. -/
  folders : List String := []
deriving Inhabited, Repr

namespace Directory

/-- The parts of a path, without those that stay where they are. -/
def parts (path : String) : List (List Char) :=
  match path.toList.splitOn '/' with
  | [] => []
  | first :: rest =>
    (if first = ['.'] then [] else [first]) ++ rest.filter fun p => p != [] && p != ['.']

/-- The one spelling of a path. -/
def path (written : String) : String :=
  String.ofList (['/'].intercalate (parts written))

/-- The folder that a path leads through, empty for the working directory. -/
def folder (written : String) : String :=
  String.ofList (['/'].intercalate (parts written).dropLast)

/-- Whether a file can be at the path. -/
def reaches (d : Directory) (written : String) : Bool :=
  let name := ((parts written).getLast?).getD []
  name != [] && name != ['.', '.'] &&
    (folder written == "" && (parts written).length == 1 || d.folders.contains (folder written))

/-- The file at a path. -/
def file? (d : Directory) (written : String) : Option FileContent :=
  if d.reaches written then d.files.lookup (path written) else none

/-- The directory with a file written. -/
def write (d : Directory) (written : String) (content : FileContent) : Directory :=
  { d with files := (path written, content) :: d.files.filter fun f => f.1 != path written }

/-- The database at an address, none yet in a file that is to be created. -/
def databaseAt (d : Directory) (create : Bool) (place : Place) : Except DriverError Database :=
  match place with
  | .memory | .file "" => .ok {}
  | .file written =>
    match d.file? written with
    | some (.database db) => .ok db
    | some (.document "") => .ok {}
    | some (.document _) => .error .notDatabase
    | none => if create && d.reaches written then .ok {} else .error .cannotOpen

/-- The directory after a client of the place has left a database. -/
def keep (d : Directory) (place : Place) (db : Database) : Directory :=
  match place with
  | .memory | .file "" => d
  | .file written => d.write written (.database db)

end Directory

end EntitySql
