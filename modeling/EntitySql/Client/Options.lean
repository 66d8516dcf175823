import EntitySql.Json.Reader
import EntitySql.Json.Writer
import EntitySql.Time.Duration

/-!
# Client options

The options of a client, and their JSON form. In a document every option may be left out and then
has its default; an option that is not known is ignored. The options may also stand in an array, in
the order in which they are declared.
-/

namespace EntitySql

/-- The options of a client. -/
structure ClientOptions where
  /-- The database. -/
  url : String := "sqlite::memory:"
  /-- Whether a database file that does not exist is created. -/
  createIfMissing : Bool := true
  /-- The seconds to wait for a connection. -/
  acquireSeconds : UInt64 := 30
  /-- The milliseconds that a command may take, if they are limited. -/
  commandMilliseconds : Option UInt64 := none
  /-- Whether filters find properties ignoring case. -/
  ignoreCase : Bool := false
deriving DecidableEq, Inhabited, Repr

namespace ClientOptions

/-- Limits the wait for a connection, in whole seconds. -/
def acquireTimeout (o : ClientOptions) (d : Duration) : ClientOptions :=
  { o with acquireSeconds := UInt64.ofNat d.seconds }

/-- Limits the time of a command, in whole milliseconds of at most 64 bits. -/
def commandTimeout (o : ClientOptions) (d : Duration) : ClientOptions :=
  { o with commandMilliseconds := some (UInt64.ofNat (min d.milliseconds 0xFFFFFFFFFFFFFFFF)) }

/-- The wait for a connection. -/
def acquireDuration (o : ClientOptions) : Duration := .ofSeconds o.acquireSeconds.toNat

/-- The time that a command may take. -/
def commandDuration (o : ClientOptions) : Option Duration :=
  o.commandMilliseconds.map fun n => .ofMilliseconds n.toNat

/-- The document of the options. -/
def toJson (o : ClientOptions) : Json :=
  .object
    [("url", .string o.url), ("create_if_missing", .bool o.createIfMissing),
      ("acquire_timeout_secs", .number o.acquireSeconds.toNat),
      ("command_timeout_ms", match o.commandMilliseconds with
        | some n => .number n.toNat
        | none => .null),
      ("case_insensitive_properties", .bool o.ignoreCase)]

/-- A 64-bit number. -/
def number? : Parsed → Option UInt64
  | .natural n => if n < 0x10000000000000000 then some (UInt64.ofNat n) else none
  | _ => none

/-- The names of the options, in order. -/
def keys : List String :=
  ["url", "create_if_missing", "acquire_timeout_secs", "command_timeout_ms",
    "case_insensitive_properties"]

/-- Sets the option of a name, and refuses a value of the wrong kind. An option that is not known
has no effect. -/
def set? (o : ClientOptions) (key : String) (value : Parsed) : Option ClientOptions :=
  match key with
  | "url" => match value with
    | .string (some s) => some { o with url := s }
    | _ => none
  | "create_if_missing" => match value with
    | .bool b => some { o with createIfMissing := b }
    | _ => none
  | "acquire_timeout_secs" => (number? value).map fun n => { o with acquireSeconds := n }
  | "command_timeout_ms" => match value with
    | .null => some { o with commandMilliseconds := none }
    | value => (number? value).map fun n => { o with commandMilliseconds := some n }
  | "case_insensitive_properties" => match value with
    | .bool b => some { o with ignoreCase := b }
    | _ => none
  | _ => some o

/-- Sets the options of an object, each at most once; a key that is no text is refused. -/
def setMembers? (o : ClientOptions) (seen : List String) :
    List (Option String × Parsed) → Option ClientOptions
  | [] => some o
  | (none, _) :: _ => none
  | (some key, value) :: rest =>
    if seen.contains key then none
    else (o.set? key value).bind fun o =>
      setMembers? o (if keys.contains key then key :: seen else seen) rest

/-- Sets the options of an array, in order. -/
def setItems? (o : ClientOptions) : List String → List Parsed → Option ClientOptions
  | _, [] => some o
  | [], _ :: _ => none
  | key :: keys, value :: rest => (o.set? key value).bind fun o => setItems? o keys rest

/-- The options of a JSON document. -/
def ofParsed? : Parsed → Option ClientOptions
  | .object members => setMembers? {} [] members
  | .array items => setItems? {} keys items
  | _ => none

/-- The options of a JSON text. -/
def ofText? (text : String) : Option ClientOptions := (Parsed.read text).bind ofParsed?

end ClientOptions

end EntitySql
