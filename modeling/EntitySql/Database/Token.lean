import EntitySql.Number.Numeral
import EntitySql.Text.Ascii
import EntitySql.Text.Hex
import EntitySql.Text.Quoted

/-!
# Tokens

The tokens of a statement: words, quoted names and literals, numbers, parameter markers and
punctuation. A token keeps the characters that it is written with and the blanks and comments in
front of it, so that the tokens of a statement hold its whole text: the name of a result column and
the text of a stored definition are cut out of it with `Token.written`.
-/

namespace EntitySql

/-- What a token is. -/
inductive Lexeme where
  /-- A name or a keyword. -/
  | word
  /-- A name in double quotes. -/
  | quoted (name : String)
  /-- A name in brackets or backquotes. -/
  | bracketed (name : String)
  /-- A text literal. -/
  | text (s : String)
  /-- A byte literal. -/
  | blob (bytes : List UInt8)
  /-- A numeral. -/
  | number
  /-- A parameter marker, with its number if it has one. -/
  | marker (number : Option Nat)
  /-- An operator or a punctuation mark. -/
  | symbol
  /-- Characters that form no token. -/
  | illegal
deriving DecidableEq, Inhabited, Repr

/-- A token of a statement. -/
structure Token where
  /-- The blanks and comments in front. -/
  gap : List Char
  /-- The characters of the token. -/
  text : List Char
  /-- What the token is. -/
  lexeme : Lexeme
deriving DecidableEq, Inhabited, Repr

namespace Token

/-- Whether a character is blank between tokens. -/
def isGap (c : Char) : Bool :=
  c == ' ' || c == '\t' || c == '\n' || c == '\r' || c == '\x0c'

/-- Whether a character can begin a name. -/
def beginsName (c : Char) : Bool := c.isAlpha || c == '_' || 128 ≤ c.toNat

/-- Whether a character can stand in a name. -/
def continuesName (c : Char) : Bool := beginsName c || c.isDigit || c == '$'

/-- What follows a comment that `*/` closes. -/
def afterComment : List Char → List Char
  | '*' :: '/' :: rest => rest
  | _ :: rest => afterComment rest
  | [] => []

/-- What follows the blanks and comments at the front, of which there are at most `n`. -/
def afterGap : Nat → List Char → List Char
  | n + 1, '-' :: '-' :: rest => afterGap n (rest.dropWhile (· != '\n'))
  | n + 1, '/' :: '*' :: rest => afterGap n (afterComment rest)
  | n + 1, c :: rest => if isGap c then afterGap n rest else c :: rest
  | _, cs => cs

/-- A name or text between quotes; without an end it is illegal. -/
def readQuoted (close : Char) (make : String → Lexeme) (rest : List Char) : Lexeme × List Char :=
  match Text.Quoted.decode close rest with
  | some (s, rest) => (make (String.ofList s), rest)
  | none => (.illegal, [])

/-- A byte literal behind its `x` and quote. -/
def readBlob (rest : List Char) : Lexeme × List Char :=
  let digits := rest.takeWhile fun c => (Text.Hex.value? c).isSome
  match rest.dropWhile (fun c => (Text.Hex.value? c).isSome), Text.Hex.decode? digits with
  | '\'' :: rest, some bytes => (.blob bytes, rest)
  | _, _ => (.illegal, (rest.dropWhile (· != '\'')).drop 1)

/-- A numeral at the front, illegal when a name follows it directly. -/
def readNumber (cs : List Char) : Lexeme × List Char :=
  let rest := match cs with
    | '0' :: x :: d :: rest =>
      if (x == 'x' || x == 'X') && (Text.Hex.value? d).isSome then
        rest.dropWhile fun c => (Text.Hex.value? c).isSome
      else ((Numeral.readUnsigned false cs).map (·.2)).getD cs
    | cs => ((Numeral.readUnsigned false cs).map (·.2)).getD cs
  match rest with
  | c :: _ => if continuesName c then (.illegal, rest.dropWhile continuesName) else (.number, rest)
  | [] => (.number, rest)

/-- The symbols of two characters. -/
def pairs : List (Char × Char) :=
  [('<', '>'), ('<', '='), ('<', '<'), ('>', '='), ('>', '>'), ('=', '='), ('!', '='), ('|', '|')]

/-- The symbols of one character. -/
def singles : List Char :=
  ['(', ')', ',', ';', '.', '+', '-', '*', '/', '%', '&', '|', '<', '>', '=', '~']

/-- A symbol at the front. -/
def readSymbol (c : Char) (rest : List Char) : Lexeme × List Char :=
  match rest with
  | d :: after =>
    if pairs.contains (c, d) then (.symbol, after)
    else if singles.contains c then (.symbol, rest) else (.illegal, rest)
  | [] => if singles.contains c then (.symbol, rest) else (.illegal, rest)

/-- The first token behind the gap, and what follows it. -/
def readLexeme (c : Char) (rest : List Char) : Lexeme × List Char :=
  if c == '"' then readQuoted '"' .quoted rest
  else if c == '[' then
    match rest.dropWhile (· != ']') with
    | _ :: after => (.bracketed (String.ofList (rest.takeWhile (· != ']'))), after)
    | [] => (.illegal, [])
  else if c == '\x60' then readQuoted '\x60' .bracketed rest
  else if c == '\'' then readQuoted '\'' .text rest
  else if c == '?' then
    let digits := rest.takeWhile Char.isDigit
    (.marker (if digits.isEmpty then none else some (Numeral.ofDigits digits)),
      rest.dropWhile Char.isDigit)
  else if (c == 'x' || c == 'X') && rest.head? == some '\'' then readBlob rest.tail
  else if beginsName c then (.word, rest.dropWhile continuesName)
  else if c.isDigit || (c == '.' && (rest.head?.map Char.isDigit).getD false) then
    readNumber (c :: rest)
  else readSymbol c rest

/-- The tokens at the front of a text, at most `n` of them. -/
def readMany : Nat → List Char → List Token
  | 0, _ => []
  | n + 1, cs =>
    match afterGap cs.length cs with
    | [] => []
    | c :: rest =>
      let (lexeme, after) := readLexeme c rest
      { gap := cs.take (cs.length - (rest.length + 1))
        text := (c :: rest).take (rest.length + 1 - after.length)
        lexeme := lexeme } :: readMany n after

/-- The tokens of a text. Each has a character at least. -/
def ofText (sql : String) : List Token :=
  let cs := sql.toList
  readMany cs.length cs

/-- The text of tokens as they are written, without what stands in front of the first. -/
def written : List Token → String
  | [] => ""
  | t :: ts => String.ofList (t.text ++ ts.flatMap fun t => t.gap ++ t.text)

/-- Whether the token is the keyword, which is given in capitals. -/
def isWord (t : Token) (keyword : String) : Bool :=
  t.lexeme == .word && t.text.map Char.toUpper == keyword.toList

/-- Whether the token is the symbol. -/
def isSymbol (t : Token) (symbol : String) : Bool :=
  t.lexeme == .symbol && t.text == symbol.toList

end Token

end EntitySql
