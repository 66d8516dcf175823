import EntitySql.Client.Error
import EntitySql.Text.Percent

/-!
# Addresses of databases

A database url is a path, with or without the scheme `sqlite:` in front, and optional parameters
behind a question mark. The path `:memory:` stands for a fresh database that ends with its client,
and so does any other path when the mode says so.
-/

namespace EntitySql

/-- Where a database is kept. -/
inductive Place where
  /-- In memory, for one client. -/
  | memory
  /-- In a file. -/
  | file (path : String)
deriving DecidableEq, Inhabited, Repr

/-- What a database url stands for. -/
structure Address where
  /-- Where the database is kept. -/
  place : Place
  /-- Whether it can only be read. -/
  readOnly : Bool := false
deriving DecidableEq, Inhabited, Repr

namespace Address

/-- Takes a start off the front as often as it stands there. -/
def dropStarts (start : List Char) (cs : List Char) : List Char :=
  if _ : start ≠ [] ∧ start.isPrefixOf cs = true then dropStarts start (cs.drop start.length)
  else cs
termination_by cs.length
decreasing_by
  have h : start ≠ [] ∧ start.isPrefixOf cs = true := by assumption
  have hs : 0 < start.length := List.length_pos_iff.2 h.1
  have hp : start.length ≤ cs.length := (List.isPrefixOf_iff_prefix.1 h.2).length_le
  simp only [List.length_drop]
  omega

/-- The characters before and after the first one that is given; nothing after it without one. -/
def cut (mark : Char) (cs : List Char) : List Char × List Char :=
  (cs.takeWhile (· != mark), (cs.dropWhile (· != mark)).tail)

/-- The name or value that is written in a parameter. -/
def parameterText (cs : List Char) : String :=
  let spaced := cs.map fun c => if c = '+' then ' ' else c
  (Text.Percent.decode? spaced).getD (String.ofList spaced)

/-- The parameters in order, by name. -/
def parameters (cs : List Char) : List (String × String) :=
  ((cs.splitOn '&').filter (!·.isEmpty)).map fun pair =>
    let (name, value) := cut '=' pair
    (parameterText name, parameterText value)

/-- Follows a parameter of a url. -/
def withParameter (url : String) (a : Address) : String × String → Except ConfigFault Address
  | ("mode", value) =>
    match value with
    | "ro" => .ok { a with readOnly := true }
    | "rw" | "rwc" => .ok a
    | "memory" => .ok { a with place := .memory }
    | _ => .error (.unknownSetting url "mode" value)
  | ("cache", value) =>
    if value = "shared" ∨ value = "private" then .ok a
    else .error (.unknownSetting url "cache" value)
  | ("immutable", value) =>
    if ["true", "1", "false", "0"].contains value then .ok a
    else .error (.unknownSetting url "immutable" value)
  | ("vfs", _) => .ok a
  | (name, _) => .error (.unknownParameter url name)

/-- Reads a database url. -/
def ofUrl (url : String) : Except ConfigFault Address :=
  let rest := dropStarts "sqlite:".toList (dropStarts "sqlite://".toList url.toList)
  let (path, query) := cut '?' rest
  let place :=
    if path = ":memory:".toList then Place.memory
    else .file ((Text.Percent.decode? path).getD (String.ofList path))
  (parameters query).foldlM (withParameter url) { place := place }

end Address

end EntitySql
