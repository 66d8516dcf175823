import EntitySql.Database.Command
import EntitySql.Database.Grammar.Reading

/-!
# Reading expressions

How expressions are grouped when they are read. From the loosest operator to the tightest: `OR`;
`AND`; `NOT`; equality, `IS`, `IN` and `LIKE`; the order comparisons; bits and shifts; sums;
products; signs. Operators of one level group to the left. `Reading.binding` is that table, and the
recursion follows it: an operand is read, and then every operator that binds at least as tightly as
the context asks for.
-/

namespace EntitySql.Reading

/-- How tightly a binary operator binds when it is read; higher is tighter. -/
def binding : Operator → Nat
  | .or => 1
  | .and => 2
  | .equal | .notEqual | .is | .isNot | .isIn | .like => 4
  | .less | .lessOrEqual | .greater | .greaterOrEqual => 5
  | .bitAnd | .bitOr | .bitXor | .shiftLeft | .shiftRight => 6
  | .add | .subtract => 7
  | .multiply | .divide | .modulo => 8

/-- How tightly `NOT` binds. -/
def notBinding : Nat := 3

/-- How tightly a sign binds. -/
def signBinding : Nat := 9

/-- The operators that are symbols. -/
def symbolOperators : List (String × Operator) :=
  [("*", .multiply), ("/", .divide), ("%", .modulo), ("+", .add), ("-", .subtract), ("=", .equal),
    ("==", .equal), ("<>", .notEqual), ("!=", .notEqual), ("<", .less), ("<=", .lessOrEqual),
    (">", .greater), (">=", .greaterOrEqual), ("&", .bitAnd), ("|", .bitOr), ("<<", .shiftLeft),
    (">>", .shiftRight)]

/-- The operators that are words. -/
def wordOperators : List (String × Operator) :=
  [("AND", .and), ("OR", .or), ("LIKE", .like), ("IS", .is), ("IN", .isIn)]

/-- The binary operator at the front of tokens, whether it is negated, and the number of tokens that
it takes. -/
def operator? : List Token → Option (Operator × Bool × Nat)
  | [] => none
  | t :: rest =>
    match symbolOperators.find? fun s => t.isSymbol s.1 with
    | some (_, op) => some (op, false, 1)
    | none =>
      let second (keyword : String) : Bool := (rest.head?.map (Token.isWord · keyword)).getD false
      if t.isWord "IS" then
        if second "NOT" then some (.isNot, false, 2) else some (.is, false, 1)
      else if t.isWord "NOT" then
        if second "IN" then some (.isIn, true, 2)
        else if second "LIKE" then some (.like, true, 2) else none
      else (wordOperators.find? fun w => t.isWord w.1).map fun w => (w.2, false, 1)

/-- The datum of a numeral, with the sign in front of it. -/
def numberDatum (negative : Bool) (text : List Char) : Datum :=
  match text with
  | '0' :: x :: rest =>
    if x == 'x' || x == 'X' then
      let n : Int := rest.foldl (fun n c => 16 * n + ((Text.Hex.value? c).getD 0 : Int)) 0
      .int (Int64.ofInt (if negative then -n else n))
    else decimal
  | _ => decimal
where
  /-- The datum of a decimal numeral. -/
  decimal : Datum :=
    match Numeral.readUnsigned negative text with
    | some (n, _) => .ofNumeral n
    | none => .null

/-- The spelling of a declared type: the six common types are written in capitals. -/
def standardType (s : String) : String :=
  let upper := Text.upperAscii s
  if ["ANY", "BLOB", "INT", "INTEGER", "REAL", "TEXT"].contains upper then upper else s

/-- Takes a number with or without a sign. -/
def signedNumber : Reading Unit := do
  if !(← acceptSymbol "-") then let _ ← acceptSymbol "+"
  match (← peek?).map Token.lexeme with
  | some .number => skip
  | _ => refuse

/-- Takes the words of a declared type, at most `n`, and the numbers in parentheses behind them. -/
def typeWords : Nat → Reading Unit
  | 0 => return ()
  | n + 1 => do
    if ((← peek?).bind nameOf?).isSome then
      skip
      if ← seesSymbol "(" then let _ ← inParens signedNumber
      else typeWords n

/-- Takes a declared type, empty if there is none. -/
def typeName : Reading String := do
  let (_, tokens) ← taken (typeWords (← left).length)
  match tokens with
  | [t] => return standardType ((nameOf? t).getD "")
  | tokens => return Token.written tokens

mutual

/-- Takes an expression whose operators bind at least as tightly as `least`. -/
def expression (fuel : Nat) (least : Nat) : Reading Phrase :=
  match fuel with
  | 0 => refuse
  | fuel + 1 => do climb fuel least (← operand fuel)

/-- Takes the operators behind an operand that bind at least as tightly as `least`. -/
def climb (fuel : Nat) (least : Nat) (left : Phrase) : Reading Phrase :=
  match fuel with
  | 0 => refuse
  | fuel + 1 => do
    if least ≤ binding .is then
      if ← accept "ISNULL" then
        return ← climb fuel least (.binary left .is (.datum .null))
      if ← accept "NOTNULL" then
        return ← climb fuel least (.binary left .isNot (.datum .null))
    match operator? (← Reading.left) with
    | none => return left
    | some (op, negated, count) =>
      if binding op < least then return left
      else
        modify fun u => { u with tokens := u.tokens.drop count }
        let joined ←
          if op = .isIn then do
            expectSymbol "("
            if ← acceptSymbol ")" then pure (left.isAmong [])
            else
              let members ← expressions fuel
              expectSymbol ")"
              if left.width ≠ 1 then
                match members.find? fun m => m.width ≠ left.width with
                | some m => throw (.memberWidth m.width left.width)
                | none => pure ()
              pure (left.isAmong members)
          else do pure (left.join op (← expression fuel (binding op + 1)))
        climb fuel least (if negated then .unary .not joined else joined)

/-- Takes an operand: a literal, a marker, a name, a call, a choice, a conversion, a signed operand,
or an expression in parentheses. -/
def operand (fuel : Nat) : Reading Phrase :=
  match fuel with
  | 0 => refuse
  | fuel + 1 => do
    match ← peek? with
    | none => refuse
    | some t =>
      match t.lexeme with
      | .illegal => refuse
      | .number => do
        skip
        return .datum (numberDatum false t.text)
      | .text s => do
        skip
        return .datum (.text s)
      | .blob bytes => do
        skip
        return .datum (.blob bytes)
      | .marker number => do
        skip
        let u ← get
        let n := number.getD (u.markers + 1)
        set { u with markers := max n u.markers }
        return .parameter (n - 1)
      | .symbol => symbolOperand fuel t
      | .quoted name => do
        skip
        if ← acceptSymbol "." then return .column (some name) (← Reading.name)
        else return .quoted name
      | .bracketed name => do
        skip
        if ← acceptSymbol "." then return .column (some name) (← Reading.name)
        else return .column none name
      | .word => wordOperand fuel t

/-- Takes an operand that begins with a symbol. -/
def symbolOperand (fuel : Nat) (t : Token) : Reading Phrase :=
  match fuel with
  | 0 => refuse
  | fuel + 1 => do
    if t.isSymbol "(" then
      skip
      let items ← expressions fuel
      expectSymbol ")"
      match items with
      | [item] => return item
      | items => return .row items
    else if t.isSymbol "-" then
      skip
      match ← peek? with
      | some number =>
        if number.lexeme = .number then
          skip
          return .datum (numberDatum true number.text)
        else return (← expression fuel signBinding).negation
      | none => refuse
    else if t.isSymbol "+" then
      skip
      expression fuel signBinding
    else refuse

/-- Takes an operand that begins with a word. -/
def wordOperand (fuel : Nat) (t : Token) : Reading Phrase :=
  match fuel with
  | 0 => refuse
  | fuel + 1 => do
    if ← accept "NULL" then return .datum .null
    else if ← accept "NOT" then return .unary .not (← expression fuel notBinding)
    else if ← accept "CURRENT_TIMESTAMP" then return .now .both
    else if ← accept "CURRENT_DATE" then return .now .date
    else if ← accept "CURRENT_TIME" then return .now .time
    else if ← accept "CASE" then
      let operand ← if ← sees "WHEN" then pure none else some <$> expression fuel 0
      let branches ← branches fuel
      let otherwise ← if ← accept "ELSE" then some <$> expression fuel 0 else pure none
      expect "END"
      return .case operand branches otherwise
    else
      let follows (symbol : String) : Reading Bool :=
        return ((← peekSecond?).map (Token.isSymbol · symbol)).getD false
      if t.isWord "CAST" && (← follows "(") then
        skip
        skip
        let a ← expression fuel 0
        expect "AS"
        let type ← typeName
        expectSymbol ")"
        return .cast a type
      else
        let name ← Reading.name
        if ← acceptSymbol "(" then
          if ← acceptSymbol "*" then
            expectSymbol ")"
            return .call name false []
          else if ← acceptSymbol ")" then
            if Phrase.isNumbering name && (← accept "OVER") then
              expectSymbol "("
              let parts ← if ← accept "PARTITION" then
                expect "BY"
                expressions fuel
              else pure []
              let order ← if ← accept "ORDER" then
                expect "BY"
                orderTerms fuel
              else pure []
              expectSymbol ")"
              return .rowNumber name parts order
            else return .call name false []
          else
            let distinct ← accept "DISTINCT"
            let args ← expressions fuel
            expectSymbol ")"
            return .call name distinct args
        else if ← acceptSymbol "." then return .column (some name) (← Reading.name)
        else return .column none name

/-- Takes one expression or more, divided by commas. -/
def expressions (fuel : Nat) : Reading (List Phrase) :=
  match fuel with
  | 0 => refuse
  | fuel + 1 => do
    let first ← expression fuel 0
    if ← acceptSymbol "," then return first :: (← expressions fuel) else return [first]

/-- Takes one order term or more, divided by commas, each with its direction. -/
def orderTerms (fuel : Nat) : Reading (List (Phrase × Bool)) :=
  match fuel with
  | 0 => refuse
  | fuel + 1 => do
    let p ← expression fuel 0
    let descending ← accept "DESC"
    if !descending then let _ ← accept "ASC"
    if ← acceptSymbol "," then return (p, descending) :: (← orderTerms fuel)
    else return [(p, descending)]

/-- Takes one branch of a choice or more. -/
def branches (fuel : Nat) : Reading (List (Phrase × Phrase)) :=
  match fuel with
  | 0 => refuse
  | fuel + 1 => do
    expect "WHEN"
    let condition ← expression fuel 0
    expect "THEN"
    let result ← expression fuel 0
    if ← sees "WHEN" then return (condition, result) :: (← branches fuel)
    else return [(condition, result)]

end

/-- Takes an expression. Reading takes at most four steps for each token. -/
def phrase : Reading Phrase := do expression (4 * (← Reading.left).length + 4) 0

end EntitySql.Reading
