import EntitySql.Client.Answer
import EntitySql.Client.Basic

/-!
# Cursors

A cursor reads the rows of a statement one by one. The statement is run when the first row is asked
for; a cursor is closed once a row was asked for and there was none. An error is read like a row,
and no row follows it.
-/

namespace EntitySql

/-- What a cursor reads: a row, or the error that ends the rows. -/
abbrev CursorItem := Except ClientError NamedRow

/-- The state of a cursor. -/
inductive Cursor where
  /-- The statement has not been run. -/
  | unread (s : Statement) (reach : Reach)
  /-- What is still to be read. -/
  | reading (items : List CursorItem)
  /-- Everything has been read. -/
  | closed
deriving Inhabited

namespace Cursor

variable {Key : Type}

/-- Whether there may be more to read. -/
def isOpen : Cursor → Bool
  | closed => false
  | _ => true

/-- What a statement gives to read. -/
def items (s : Statement) (reach : Reach) : Session Key (List CursorItem) := do
  try
    return (← Session.send s reach).namedRows.map .ok
  catch e =>
    return [.error e]

/-- What is still to be read, running the statement if it has not been. -/
def remaining : Cursor → Session Key (List CursorItem)
  | unread s reach => items s reach
  | reading rest => pure rest
  | closed => pure []

/-- Reads at most `n` items, one after the other. -/
def take (c : Cursor) (n : Nat) : Session Key (List CursorItem × Cursor) := do
  if n = 0 then return ([], c)
  let all ← c.remaining
  return (all.take n, if all.length < n then closed else reading (all.drop n))

/-- Reads everything. -/
def drain (c : Cursor) : Session Key (List CursorItem × Cursor) := do
  return (← c.remaining, closed)

/-- The text that shows a cursor. -/
def text (c : Cursor) : String := s!"Rows \x7b open: {c.isOpen}, .. \x7d"

end Cursor

/-- A transaction of a blocking client as it is shown. -/
def blockingTransactionText (active : Bool) : String :=
  s!"BlockingTransaction \x7b active: {active}, .. \x7d"

end EntitySql
