import EntitySql.Text.Ascii
import EntitySql.Text.Blank

/-!
# Column affinity

SQLite sorts declared types into five affinities, by words that occur in them. The affinity of a
column decides how the values stored in it are converted, and two declared types store the same
exactly when they have the same affinity.
-/

namespace EntitySql

/-- Whether a text occurs in another. -/
def occursIn (part whole : List Char) : Bool :=
  match whole with
  | [] => part.isEmpty
  | c :: rest => part.isPrefixOf (c :: rest) || occursIn part rest

/-- How the values of a column are converted when they are stored. -/
inductive Affinity where
  | integer
  | text
  | blob
  | real
  | numeric
deriving DecidableEq, Inhabited, Repr

namespace Affinity

/-- The name of an affinity. -/
def name : Affinity → String
  | integer => "INTEGER"
  | text => "TEXT"
  | blob => "BLOB"
  | real => "REAL"
  | numeric => "NUMERIC"

/-- The affinity of a declared type. The first rule that applies decides: `INT` is INTEGER; `CHAR`,
`CLOB` or `TEXT` is TEXT; `BLOB` or nothing is BLOB; `REAL`, `FLOA` or `DOUB` is REAL; everything
else is NUMERIC. -/
def ofType (native : String) : Affinity :=
  let upper := (Text.upperAscii native).toList
  let mentions (part : String) : Bool := occursIn part.toList upper
  if mentions "INT" then integer
  else if mentions "CHAR" || mentions "CLOB" || mentions "TEXT" then text
  else if mentions "BLOB" || upper.all Text.isBlank then blob
  else if mentions "REAL" || mentions "FLOA" || mentions "DOUB" then real
  else numeric

/-- Whether a column of the affinity prefers numbers. -/
def isNumeric : Affinity → Bool
  | integer | real | numeric => true
  | text | blob => false

end Affinity

end EntitySql
