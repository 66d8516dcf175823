import EntitySql.Database.Connection

/-!
# Reading answers

What a client reads from the answer of a statement: its first value, its rows as values under the
names of the result columns, or a single column.
-/

namespace EntitySql

/-- A row as it is read: each value under the name of its column. -/
abbrev NamedRow := List (String × Value)

namespace Outcome

/-- The first value of the first row, absent without one. -/
def scalar (o : Outcome) : Value :=
  ((o.rows.head?.bind List.head?).map Datum.toValue).getD .null

/-- The rows with the names of the columns. -/
def namedRows (o : Outcome) : List NamedRow :=
  o.rows.map fun r => o.names.zip (r.map Datum.toValue)

/-- The value of one column in each row, none where a row has no such column. -/
def column (o : Outcome) (position : Nat) : List (Option Value) :=
  o.rows.map fun r => (r[position]?).map Datum.toValue

end Outcome

end EntitySql
