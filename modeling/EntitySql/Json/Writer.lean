import EntitySql.Text.Hex

/-!
# Writing JSON

A JSON document as a tree, and its two texts: the compact one without blanks, and the pretty one
with two spaces for each level. Strings escape the quote, the backslash and the characters below
U+0020, and write every other character as it is.
-/

namespace EntitySql

/-- A JSON document. -/
inductive Json where
  | null
  | bool (b : Bool)
  | number (n : Nat)
  | string (s : String)
  | array (items : List Json)
  | object (members : List (String × Json))
deriving Inhabited, Repr

namespace Json

/-- A text, or null for none. -/
def ofOption : Option String → Json
  | some s => string s
  | none => null

/-- A list of texts. -/
def strings (ss : List String) : Json := array (ss.map string)

/-- A character inside a string. -/
def escapeChar (c : Char) : List Char :=
  match c with
  | '"' => ['\\', '"']
  | '\\' => ['\\', '\\']
  | '\x08' => ['\\', 'b']
  | '\x0c' => ['\\', 'f']
  | '\n' => ['\\', 'n']
  | '\r' => ['\\', 'r']
  | '\t' => ['\\', 't']
  | c =>
    if c.toNat < 0x20 then
      let digits := Text.Hex.lowerDigits c.toNat
      ['\\', 'u'] ++ List.replicate (4 - digits.length) '0' ++ digits
    else [c]

/-- A string with its quotes. -/
def stringChars (s : String) : List Char := '"' :: s.toList.flatMap escapeChar ++ ['"']

mutual

/-- The text without blanks. -/
def compactChars : Json → List Char
  | null => ['n', 'u', 'l', 'l']
  | bool true => ['t', 'r', 'u', 'e']
  | bool false => ['f', 'a', 'l', 's', 'e']
  | number n => Nat.toDigits 10 n
  | string s => stringChars s
  | array items => '[' :: compactItems items ++ [']']
  | object members => '\x7b' :: compactMembers members ++ ['\x7d']

/-- Items divided by commas. -/
def compactItems : List Json → List Char
  | [] => []
  | [j] => compactChars j
  | j :: rest => compactChars j ++ ',' :: compactItems rest

/-- Members divided by commas. -/
def compactMembers : List (String × Json) → List Char
  | [] => []
  | [(key, j)] => stringChars key ++ ':' :: compactChars j
  | (key, j) :: rest => stringChars key ++ ':' :: compactChars j ++ ',' :: compactMembers rest

end

/-- The text without blanks. -/
def compact (j : Json) : String := String.ofList (compactChars j)

/-- A new line with the indentation of a level. -/
def newLine (level : Nat) : List Char := '\n' :: List.replicate (2 * level) ' '

mutual

/-- The text with one item or member on each line, inside the given level. -/
def prettyChars (level : Nat) : Json → List Char
  | array (j :: rest) => '[' :: prettyItems (level + 1) (j :: rest) ++ newLine level ++ [']']
  | object (m :: rest) =>
    '\x7b' :: prettyMembers (level + 1) (m :: rest) ++ newLine level ++ ['\x7d']
  | j => compactChars j

/-- Items, each on a line of the level. -/
def prettyItems (level : Nat) : List Json → List Char
  | [] => []
  | [j] => newLine level ++ prettyChars level j
  | j :: rest => newLine level ++ prettyChars level j ++ ',' :: prettyItems level rest

/-- Members, each on a line of the level. -/
def prettyMembers (level : Nat) : List (String × Json) → List Char
  | [] => []
  | [(key, j)] => newLine level ++ stringChars key ++ ':' :: ' ' :: prettyChars level j
  | (key, j) :: rest =>
    newLine level ++ stringChars key ++ ':' :: ' ' :: prettyChars level j ++
      ',' :: prettyMembers level rest

end

/-- The text with one item or member on each line. -/
def pretty (j : Json) : String := String.ofList (prettyChars 0 j)

end Json

end EntitySql
