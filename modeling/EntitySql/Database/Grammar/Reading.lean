import EntitySql.Database.Fault
import EntitySql.Database.Token

/-!
# Reading tokens

A reading takes tokens off the front of a statement. It either succeeds, or names the first token
that does not fit. Parameter markers are numbered in the order in which they are read.
-/

namespace EntitySql

/-- What is left of a statement, and the number of markers read so far. -/
structure Unread where
  /-- The tokens that are left. -/
  tokens : List Token
  /-- The greatest number of a marker so far. -/
  markers : Nat := 0
deriving Inhabited, Repr

/-- A step that takes tokens off the front. -/
abbrev Reading := StateT Unread (Except Fault)

namespace Reading

/-- The tokens that are left. -/
def left : Reading (List Token) := return (← get).tokens

/-- The next token, if there is one. -/
def peek? : Reading (Option Token) := return (← left).head?

/-- The token after the next, if there is one. -/
def peekSecond? : Reading (Option Token) := return (← left)[1]?

/-- Passes over the next token. -/
def skip : Reading Unit := modify fun u => { u with tokens := u.tokens.tail }

/-- Refuses the next token. -/
def refuse {α : Type} : Reading α := do
  match ← peek? with
  | none => throw .unfinished
  | some t =>
    if t.lexeme = .illegal then throw (.illegalToken (String.ofList t.text))
    else throw (.unexpectedToken (String.ofList t.text))

/-- Whether the next token is the keyword. -/
def sees (keyword : String) : Reading Bool :=
  return ((← peek?).map (Token.isWord · keyword)).getD false

/-- Whether the next token is the symbol. -/
def seesSymbol (symbol : String) : Reading Bool :=
  return ((← peek?).map (Token.isSymbol · symbol)).getD false

/-- Takes the keyword if it comes next, and says whether it did. -/
def accept (keyword : String) : Reading Bool := do
  if ← sees keyword then
    skip
    return true
  else return false

/-- Takes the symbol if it comes next, and says whether it did. -/
def acceptSymbol (symbol : String) : Reading Bool := do
  if ← seesSymbol symbol then
    skip
    return true
  else return false

/-- Takes the keyword, which must come next. -/
def expect (keyword : String) : Reading Unit := do
  if !(← accept keyword) then refuse

/-- Takes the symbol, which must come next. -/
def expectSymbol (symbol : String) : Reading Unit := do
  if !(← acceptSymbol symbol) then refuse

/-- The words that are never names. -/
def reserved : List String :=
  ["ADD", "ALL", "ALTER", "AND", "AS", "AUTOINCREMENT", "BETWEEN", "CASE", "CHECK", "COLLATE",
    "COMMIT", "CONSTRAINT", "CREATE", "DEFAULT", "DEFERRABLE", "DELETE", "DISTINCT", "DROP", "ELSE",
    "ESCAPE", "EXCEPT", "EXISTS", "FOREIGN", "FROM", "GROUP", "HAVING", "IN", "INDEX", "INSERT",
    "INTERSECT", "INTO", "IS", "ISNULL", "JOIN", "LIMIT", "NOT", "NOTHING", "NOTNULL", "NULL", "ON",
    "OR", "ORDER", "PRIMARY", "REFERENCES", "RETURNING", "SELECT", "SET", "TABLE", "THEN", "TO",
    "TRANSACTION", "UNION", "UNIQUE", "UPDATE", "USING", "VALUES", "WHEN", "WHERE"]

/-- The name that a token stands for, if it can be one. -/
def nameOf? (t : Token) : Option String :=
  match t.lexeme with
  | .word =>
    if reserved.contains (String.ofList (t.text.map Char.toUpper)) then none
    else some (String.ofList t.text)
  | .quoted name | .bracketed name | .text name => some name
  | _ => none

/-- Takes a name. -/
def name : Reading String := do
  match (← peek?).bind nameOf? with
  | some s =>
    skip
    return s
  | none => refuse

/-- Takes a name, with the quotes that it is written with. -/
def nameAsWritten : Reading (String × String) := do
  let token ← peek?
  let s ← name
  return (s, (token.map fun t => String.ofList t.text).getD s)

/-- Takes what a step takes, along with the tokens that it took. -/
def taken {α : Type} (step : Reading α) : Reading (α × List Token) := do
  let before ← left
  let a ← step
  let after ← left
  return (a, before.take (before.length - after.length))

/-- Takes one item or more, divided by commas; at most `n` commas. -/
def separated {α : Type} (item : Reading α) : Nat → Reading (List α)
  | 0 => return [← item]
  | n + 1 => do
    let a ← item
    if ← acceptSymbol "," then return a :: (← separated item n) else return [a]

/-- Takes items in parentheses, divided by commas. -/
def inParens {α : Type} (item : Reading α) : Reading (List α) := do
  expectSymbol "("
  let items ← separated item (← left).length
  expectSymbol ")"
  return items

end Reading

end EntitySql
