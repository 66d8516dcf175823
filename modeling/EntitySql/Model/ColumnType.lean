import EntitySql.Text.Blank
import EntitySql.Value

/-!
# Column types

A column has one of a small set of types that every database can store. A field says its type by
the spelling of the program that declares it, such as `Option<i64>` or `NaiveDateTime`;
`ColumnType.ofSpelling` reduces that spelling to a column type and says whether the field may be
absent. Blanks and module paths do not matter, and a spelling that is not known is kept by name.
-/

namespace EntitySql

/-- The type of a column, independent of any database. -/
inductive ColumnType where
  | bool
  | int8
  | int16
  | int32
  | int64
  | uint8
  | uint16
  | uint32
  | uint64
  | float32
  | float64
  | decimal
  | text
  | char
  | bytes
  | dateTime
  | date
  | time
  | uuid
  /-- A type of the declaring program, by name. -/
  | custom (name : String)
deriving DecidableEq, Inhabited, Repr

/-- The type a field declares: the type of its column, and whether a value may be absent. -/
structure FieldType where
  /-- The type of the column. -/
  type : ColumnType
  /-- Whether the field may hold no value. -/
  nullable : Bool
deriving DecidableEq, Inhabited, Repr

namespace ColumnType

/-- The type that a spelling without path, generic arguments and reference denotes. -/
def ofBase : String → Option ColumnType
  | "bool" => some bool
  | "i8" => some int8
  | "i16" => some int16
  | "i32" => some int32
  | "i64" | "isize" => some int64
  | "u8" => some uint8
  | "u16" => some uint16
  | "u32" => some uint32
  | "u64" | "usize" => some uint64
  | "f32" => some float32
  | "f64" => some float64
  | "Decimal" => some decimal
  | "String" | "str" => some text
  | "char" => some char
  | "NaiveDateTime" | "DateTime" => some dateTime
  | "NaiveDate" => some date
  | "NaiveTime" => some time
  | "Uuid" => some uuid
  | _ => none

/-- The characters after the last double colon, if there is one. -/
def afterLastPath? : List Char → Option (List Char)
  | [] => none
  | c :: rest =>
    (afterLastPath? rest).or <|
      match c, rest with
      | ':', ':' :: tail => some tail
      | _, _ => none

/-- The last segment of a path. -/
def lastSegment (cs : List Char) : List Char := (afterLastPath? cs).getD cs

/-- The type of a spelling that has no blanks and is not optional. A leading reference sign is
ignored; only byte vectors and date-times may have generic arguments. -/
def ofPlain (cs : List Char) : ColumnType :=
  let cs := if cs.head? = some '&' then cs.tail else cs
  let base := String.ofList (lastSegment (cs.takeWhile (· != '<')))
  let generics := String.ofList (cs.dropWhile (· != '<'))
  let unknown := custom (base ++ generics)
  if generics = "" then (ofBase base).getD unknown
  else if base = "DateTime" then dateTime
  else if base = "Vec" ∧ generics = "<u8>" then bytes
  else unknown

/-- The ways to spell the opening of an optional type. -/
def optionOpenings : List (List Char) :=
  ["Option<".toList, "std::option::Option<".toList, "core::option::Option<".toList]

/-- The inside of an optional type. -/
def insideOption? (cs : List Char) : Option (List Char) := do
  let inner ← optionOpenings.findSome? fun opening => opening.isPrefixOf? cs
  if inner.getLast? = some '>' then some inner.dropLast else none

/-- Reads the spelling of a field's type. -/
def ofSpelling (spelling : String) : FieldType :=
  let compact := spelling.toList.filter fun c => !Text.isBlank c
  match insideOption? compact with
  | some inner => ⟨ofPlain inner, true⟩
  | none => ⟨ofPlain compact, false⟩

/-- The name of the type, the same for every database. -/
def name : ColumnType → String
  | bool => "bool"
  | int8 => "i8"
  | int16 => "i16"
  | int32 => "i32"
  | int64 => "i64"
  | uint8 => "u8"
  | uint16 => "u16"
  | uint32 => "u32"
  | uint64 => "u64"
  | float32 => "f32"
  | float64 => "f64"
  | decimal => "decimal"
  | text => "text"
  | char => "char"
  | bytes => "bytes"
  | dateTime => "datetime"
  | date => "date"
  | time => "time"
  | uuid => "uuid"
  | custom name => name

/-- The types with a fixed name. -/
def builtIn : List ColumnType :=
  [bool, int8, int16, int32, int64, uint8, uint16, uint32, uint64, float32, float64, decimal, text,
    char, bytes, dateTime, date, time, uuid]

/-- Whether a field of this type that is not optional always holds a value. Texts, byte strings and
unknown types are held by reference and stay nullable unless a mapping says otherwise. -/
def isValueType : ColumnType → Bool
  | text | bytes | custom _ => false
  | _ => true

/-- Whether the type is one of the integer types. -/
def isInteger : ColumnType → Bool
  | int8 | int16 | int32 | int64 | uint8 | uint16 | uint32 | uint64 => true
  | _ => false

/-- The value that fills a new required column without a default. -/
def zeroValue : ColumnType → Value
  | bool => .bool false
  | int8 | int16 | int32 | int64 | uint8 | uint16 | uint32 | uint64 => .int 0
  | float32 | float64 | decimal => .float .zero
  | text | char => .text ""
  | bytes => .blob []
  | dateTime => .timestamp .epoch
  | date => .text "1970-01-01"
  | time => .text "00:00:00"
  | uuid => .text "00000000-0000-0000-0000-000000000000"
  | custom _ => .null

end ColumnType

end EntitySql
