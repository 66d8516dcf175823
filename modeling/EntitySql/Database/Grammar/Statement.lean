import EntitySql.Database.Grammar.Expression

/-!
# Reading statements

The statements of a database: queries over one table, the definitions of tables, indexes and views,
their removal and alteration, and the commands that write rows. `Reading.command?` takes one
statement and the semicolon behind it, if there is one.
-/

namespace EntitySql.Reading

/-- Takes a step behind a keyword, if the keyword comes next. -/
def behind {α : Type} (keyword : String) (step : Reading α) : Reading (Option α) := do
  if ← accept keyword then some <$> step else return none

/-- Takes the name of an object; the name of the main schema in front of it is passed over. There is
no other schema. -/
def objectName : Reading (String × String) := do
  let first ← nameAsWritten
  if ← acceptSymbol "." then
    if Text.sameName first.1 "main" then nameAsWritten else refuse
  else return first

/-- Takes an alias, with or without its keyword. -/
def givenName? : Reading (Option String) := do
  if ← accept "AS" then some <$> name
  else match (← peek?).bind nameOf? with
    | some s => do
      skip
      return some s
    | none => return none

/-- Takes what a query selects. -/
def selected : Reading Selected := do
  if ← acceptSymbol "*" then return .all none
  let tokens ← left
  match tokens with
  | t :: point :: star :: _ =>
    if (nameOf? t).isSome && point.isSymbol "." && star.isSymbol "*" then
      skip; skip; skip
      return .all (nameOf? t)
  | _ => pure ()
  let (p, tokens) ← taken phrase
  return .phrase p (← givenName?) (Token.written tokens)

/-- Takes expressions, divided by commas. -/
def phrases : Reading (List Phrase) := do separated phrase (← left).length

/-- Takes an order term and its direction. -/
def orderTerm : Reading (Phrase × Bool) := do
  let p ← phrase
  if ← accept "DESC" then return (p, true)
  let _ ← accept "ASC"
  return (p, false)

/-- Takes a query behind its `SELECT`. -/
def query : Reading Query := do
  let distinct ← accept "DISTINCT"
  if !distinct then let _ ← accept "ALL"
  let items ← separated selected (← left).length
  let source ← behind "FROM" do
    let (table, _) ← objectName
    return (table, ← givenName?)
  let condition ← behind "WHERE" phrase
  let groups ← behind "GROUP" do
    expect "BY"
    phrases
  let having ← behind "HAVING" phrase
  let order ← behind "ORDER" do
    expect "BY"
    separated orderTerm (← left).length
  let limit ← behind "LIMIT" phrase
  let offset ← if limit.isSome then behind "OFFSET" phrase else pure none
  return {
    distinct := distinct
    selected := items
    source := source
    condition := condition
    groups := groups.getD []
    having := having
    order := order.getD []
    limit := limit
    offset := offset }

/-- Takes the value of a default, with the characters that the catalog shows for it. -/
def defaultValue : Reading ColumnRule := do
  if ← acceptSymbol "(" then
    let (p, tokens) ← taken phrase
    expectSymbol ")"
    return .default p (Token.written tokens)
  let (p, tokens) ← taken do
    match ← peek? with
    | none => refuse
    | some t =>
      match t.lexeme with
      | .number | .text _ | .blob _ => operand 4
      | .symbol => do
        let negative := t.isSymbol "-"
        if !(negative || t.isSymbol "+") then refuse
        skip
        match ← peek? with
        | some number =>
          if number.lexeme = .number then
            skip
            return .datum (numberDatum negative number.text)
          else refuse
        | none => refuse
      | .word =>
        if t.isWord "NULL" || t.isWord "CURRENT_TIMESTAMP" || t.isWord "CURRENT_DATE" ||
            t.isWord "CURRENT_TIME" then operand 4
        else do
          let s ← name
          if Text.sameName s "true" then return .datum (.ofBool true)
          else if Text.sameName s "false" then return .datum (.ofBool false)
          else return .datum (.text s)
      | _ => return .datum (.text (← name))
  return .default p (Token.written tokens)

/-- Takes a rule of a column, if one follows. -/
def columnRule? : Reading (Option ColumnRule) := do
  if ← accept "CONSTRAINT" then let _ ← name
  if ← accept "PRIMARY" then
    expect "KEY"
    if !(← accept "ASC") then let _ ← accept "DESC"
    return some (.key (← accept "AUTOINCREMENT"))
  else if ← accept "NOT" then
    expect "NULL"
    return some .required
  else if ← accept "UNIQUE" then return some .unique
  else if ← accept "DEFAULT" then some <$> defaultValue
  else return none

/-- Takes the rules of a column, at most `n`. -/
def columnRules : Nat → Reading (List ColumnRule)
  | 0 => return []
  | n + 1 => do
    match ← columnRule? with
    | some rule => return rule :: (← columnRules n)
    | none => return []

/-- Takes the definition of a column. Its lead is completed by the caller. -/
def columnClause : Reading ColumnClause := do
  let gap := ((← peek?).map Token.gap).getD []
  let (clause, tokens) ← taken do
    return (← name, ← typeName, ← columnRules (← left).length)
  return {
    name := clause.1
    type := clause.2.1
    rules := clause.2.2
    lead := String.ofList gap
    written := Token.written tokens }

/-- Takes the columns of an index or a constraint; their direction is passed over. -/
def columnNames : Reading (List String) := inParens do
  let s ← name
  if !(← accept "ASC") then let _ ← accept "DESC"
  return s

/-- Takes a constraint of a table. -/
def tableRule : Reading TableRule := do
  if ← accept "CONSTRAINT" then let _ ← name
  if ← accept "PRIMARY" then
    expect "KEY"
    expectSymbol "("
    let columns ← separated name (← left).length
    let numbered ← accept "AUTOINCREMENT"
    expectSymbol ")"
    return .key columns numbered
  else if ← accept "UNIQUE" then return .unique (← columnNames)
  else refuse

/-- Whether a constraint of a table comes next. -/
def seesTableRule : Reading Bool := do
  return (← sees "CONSTRAINT") || (← sees "PRIMARY") || (← sees "UNIQUE")

/-- Takes the columns and then the constraints of a table, at most `n`. The text between a column
and the token before it becomes its lead. -/
def tableItems (lead : String) : Nat → Reading (List ColumnClause × List TableRule)
  | 0 => refuse
  | n + 1 => do
    let clause ← columnClause
    let clause := { clause with lead := lead ++ clause.lead }
    let gap := ((← peek?).map Token.gap).getD []
    if ← acceptSymbol "," then
      if ← seesTableRule then return ([clause], ← separated tableRule n)
      let (columns, rules) ← tableItems (String.ofList gap ++ ",") n
      return (clause :: columns, rules)
    else return ([clause], [])

/-- Takes a statement that creates a table behind its `TABLE`. -/
def tableClause : Reading TableClause := do
  let ifMissing ← ifNot
  let (name, writtenName) ← objectName
  let ((columns, rules), tokens) ← taken do
    let gap := ((← peek?).map Token.gap).getD []
    expectSymbol "("
    let items ← tableItems (String.ofList gap ++ "(") ((← left).length + 1)
    expectSymbol ")"
    return items
  let whole := tokens.flatMap fun t => t.gap ++ t.text
  let shown := columns.flatMap fun c => (c.lead ++ c.written).toList
  return {
    name := name
    writtenName := writtenName
    ifMissing := ifMissing
    columns := columns
    rules := rules
    tail := String.ofList (whole.drop shown.length) }
where
  /-- Takes `IF NOT EXISTS`, and says whether it stands there. -/
  ifNot : Reading Bool := do
    if ← accept "IF" then
      expect "NOT"
      expect "EXISTS"
      return true
    else return false

/-- Takes `IF EXISTS`, and says whether it stands there. -/
def ifExists : Reading Bool := do
  if ← accept "IF" then
    expect "EXISTS"
    return true
  else return false

/-- Takes a statement that creates an object behind its `CREATE`. -/
def create : Reading Command := do
  if ← accept "TABLE" then return .createTable (← tableClause)
  else if ← accept "VIEW" then
    let ifMissing ← tableClause.ifNot
    let ((name, writtenName, q), tokens) ← taken do
      let (name, writtenName) ← objectName
      expect "AS"
      expect "SELECT"
      return (name, writtenName, ← query)
    return .createView ifMissing name writtenName q ("CREATE VIEW " ++ Token.written tokens)
  else
    let unique ← accept "UNIQUE"
    expect "INDEX"
    let ifMissing ← tableClause.ifNot
    let (name, _) ← objectName
    expect "ON"
    return .createIndex unique ifMissing name (← Reading.name) (← columnNames)

/-- Takes a statement that drops an object behind its `DROP`. -/
def drop : Reading Command := do
  let kind ←
    if ← accept "TABLE" then pure DropKind.table
    else if ← accept "VIEW" then pure DropKind.view
    else do
      expect "INDEX"
      pure DropKind.index
  return .drop kind (← ifExists) (← objectName).1

/-- Takes a statement that alters a table behind its `ALTER`. -/
def alter : Reading Command := do
  expect "TABLE"
  let (table, _) ← objectName
  if ← accept "RENAME" then
    expect "TO"
    return .renameTable table (← name)
  else if ← accept "ADD" then
    let _ ← accept "COLUMN"
    return .addColumn table { (← columnClause) with lead := ", " }
  else
    expect "DROP"
    let _ ← accept "COLUMN"
    let (column, written) ← nameAsWritten
    return .dropColumn table column written

/-- Takes a statement that inserts rows behind its `INSERT`. -/
def insert : Reading Command := do
  expect "INTO"
  let (table, _) ← objectName
  let columns ← if ← seesSymbol "(" then some <$> inParens name else pure none
  if ← accept "VALUES" then
    return .insert table columns (.listed (← separated (inParens phrase) (← left).length))
  else if ← accept "DEFAULT" then
    expect "VALUES"
    return .insert table columns .defaults
  else
    expect "SELECT"
    return .insert table columns (.query (← query))

/-- Takes an assignment. -/
def assignment : Reading (String × Phrase) := do
  let column ← name
  expectSymbol "="
  return (column, ← phrase)

/-- Takes a statement about the settings of a connection behind its `PRAGMA`. -/
def setting : Reading Command := do
  let s ← name
  if !Text.sameName s "legacy_alter_table" then refuse
  if ← acceptSymbol "=" then
    if ← accept "ON" then return .setLegacyRename true
    let value ← match ← peek? with
      | some t => do
        skip
        pure (String.ofList t.text)
      | none => refuse
    return .setLegacyRename (["1", "yes", "true", "on"].contains (Text.lowerAscii value))
  else return .askLegacyRename

/-- Takes a statement. -/
def command : Reading Command := do
  if ← accept "SELECT" then return .query (← query)
  else if ← accept "CREATE" then create
  else if ← accept "DROP" then drop
  else if ← accept "ALTER" then alter
  else if ← accept "INSERT" then insert
  else if ← accept "UPDATE" then
    let (table, _) ← objectName
    expect "SET"
    let assignments ← separated assignment (← left).length
    return .update table assignments (← behind "WHERE" phrase)
  else if ← accept "DELETE" then
    expect "FROM"
    let (table, _) ← objectName
    return .delete table (← behind "WHERE" phrase)
  else if ← accept "PRAGMA" then setting
  else refuse

/-- Takes the next statement, if there is one, with the semicolons around it. -/
def command? : Reading (Option Command) := do
  modify fun u => { u with tokens := u.tokens.dropWhile (·.isSymbol ";") }
  if (← left).isEmpty then return none
  let c ← command
  if (← left).isEmpty || (← acceptSymbol ";") then return some c else refuse

end EntitySql.Reading
