import EntitySql.Number.Shortest
import EntitySql.Text.Hex
import EntitySql.Text.Printable
import EntitySql.Text.Quoted
import EntitySql.Time.Timestamp

/-!
# Values and defaults

`Value` is what is bound to a statement or read from a row, `Default` what a column declares for
rows that leave it out. Each has a literal form for statements that cannot bind parameters: text is
quoted with every quote doubled, bytes are written in hexadecimal, and numbers so that they read
back exactly.
-/

namespace EntitySql

/-- A value of a statement parameter or a result column. -/
inductive Value where
  /-- No value. -/
  | null
  /-- A truth value. -/
  | bool (b : Bool)
  /-- A 64-bit integer. -/
  | int (n : Int64)
  /-- A double-precision number. -/
  | float (x : Double)
  /-- A text. -/
  | text (s : String)
  /-- A byte string. -/
  | blob (bytes : List UInt8)
  /-- A date and time of day. -/
  | timestamp (t : Timestamp)
deriving DecidableEq, Inhabited, Repr

/-- A default that a column declares. -/
inductive Default where
  /-- No value. -/
  | null
  /-- A truth value. -/
  | bool (b : Bool)
  /-- An integer. -/
  | int (n : Int64)
  /-- A double-precision number. -/
  | float (x : Double)
  /-- A text. -/
  | text (s : String)
  /-- An expression, written as it stands. -/
  | expression (sql : String)
deriving DecidableEq, Inhabited, Repr

/-- A text literal: single quotes around, single quotes inside doubled. -/
def textLiteral (s : String) : String := Text.Quoted.enclose '\'' '\'' s

/-- The decimal digits of an integer, with a minus sign in front when it is negative. -/
def intLiteral (n : Int64) : String := toString n.toInt

/-- A byte literal: the capital hexadecimal digits in single quotes after an `X`. -/
def blobLiteral (bytes : List UInt8) : String :=
  String.ofList ('X' :: '\'' :: Text.Hex.encode bytes ++ ['\''])

namespace Value

/-- Whether there is no value. -/
def isNull : Value → Bool
  | null => true
  | _ => false

/-- The value as a literal. -/
def literal : Value → String
  | null => "NULL"
  | bool true => "TRUE"
  | bool false => "FALSE"
  | int n => intLiteral n
  | float x => x.text
  | text s => textLiteral s
  | blob bytes => blobLiteral bytes
  | timestamp t => textLiteral t.text

/-- A value without truth values of its own kind: these become 1 and 0. -/
def boolAsInt : Value → Value
  | bool b => int (if b then 1 else 0)
  | v => v

/-- An unsigned 64-bit integer: what exceeds the signed range is kept exact as decimal text. -/
def ofUInt64 (n : UInt64) : Value :=
  if n.toNat < 0x8000000000000000 then int (Int64.ofNat n.toNat) else text (toString n.toNat)

/-- A value that may be absent. -/
def ofOption : Option Value → Value
  | some v => v
  | none => null

/-- The value as a message shows it. -/
def shown : Value → String
  | null => "Null"
  | bool b => s!"Bool({b})"
  | int n => s!"Int({intLiteral n})"
  | float x => s!"Float({x.text})"
  | text s => s!"Text({Text.showText s})"
  | blob bytes => "Blob([" ++ ", ".intercalate (bytes.map fun b => toString b.toNat) ++ "])"
  | timestamp t => "Timestamp(" ++ t.textWith 'T' ++ ")"

/-- A list of values as a message shows it. -/
def shownList (vs : List Value) : String := "[" ++ ", ".intercalate (vs.map shown) ++ "]"

end Value

namespace Default

/-- The default as a literal that every database reads; a truth value is 1 or 0. -/
def literal : Default → String
  | null => "NULL"
  | bool b => if b then "1" else "0"
  | int n => intLiteral n
  | float x => x.text
  | text s => textLiteral s
  | expression sql => sql

/-- The default as a literal of a database that has truth values of its own. -/
def literalWithBool : Default → String
  | bool true => "TRUE"
  | bool false => "FALSE"
  | d => d.literal

end Default

end EntitySql
