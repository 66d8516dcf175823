import EntitySql.Text.Hex

/-!
# Reading JSON

`Parsed.read` reads a JSON text. The grammar is the strict one: no trailing commas, no leading
zeros, no control characters in strings, and nothing but blanks around the document. Of a number
only its value as a natural number is kept, if it is written as one; of a string with half a
surrogate pair, which is no text, only that it was there.
-/

namespace EntitySql

/-- A JSON document as it is read. -/
inductive Parsed where
  | null
  | bool (b : Bool)
  /-- A number without sign, fraction and exponent. -/
  | natural (n : Nat)
  /-- Any other number. -/
  | otherNumber
  /-- A string, none when it is no text. -/
  | string (s : Option String)
  | array (items : List Parsed)
  | object (members : List (Option String × Parsed))
deriving Inhabited, Repr

namespace Parsed

/-- The characters after the blanks of JSON. -/
def skipBlanks (cs : List Char) : List Char :=
  cs.dropWhile fun c => c == ' ' || c == '\t' || c == '\n' || c == '\r'

/-- The number that four hexadecimal digits stand for. -/
def hexUnit? : List Char → Option (Nat × List Char)
  | a :: b :: c :: d :: rest => do
    let w ← Text.Hex.value? a
    let x ← Text.Hex.value? b
    let y ← Text.Hex.value? c
    let z ← Text.Hex.value? d
    return (((w * 16 + x) * 16 + y) * 16 + z, rest)
  | _ => none

/-- The character that a short escape stands for. -/
def shortEscape? : Char → Option Char
  | '"' => some '"'
  | '\\' => some '\\'
  | '/' => some '/'
  | 'b' => some '\x08'
  | 'f' => some '\x0c'
  | 'n' => some '\n'
  | 'r' => some '\r'
  | 't' => some '\t'
  | _ => none

/-- The code units of a string: a character as it stands, or a number from an escape. -/
abbrev StringUnit := Char ⊕ Nat

/-- Reads the units of a string up to its closing quote. -/
def readUnits : Nat → List Char → Option (List StringUnit × List Char)
  | 0, _ => none
  | fuel + 1, cs =>
    match cs with
    | [] => none
    | '"' :: rest => some ([], rest)
    | '\\' :: 'u' :: rest => do
      let (unit, rest) ← hexUnit? rest
      let (units, rest) ← readUnits fuel rest
      return (.inr unit :: units, rest)
    | '\\' :: c :: rest => do
      let escaped ← shortEscape? c
      let (units, rest) ← readUnits fuel rest
      return (.inl escaped :: units, rest)
    | c :: rest =>
      if c.toNat < 0x20 then none
      else do
        let (units, rest) ← readUnits fuel rest
        return (.inl c :: units, rest)

/-- The text of units, none when a surrogate stands alone. -/
def joinUnits : List StringUnit → Option (List Char)
  | [] => some []
  | .inl c :: rest => (joinUnits rest).map (c :: ·)
  | .inr unit :: rest =>
    if 0xD800 ≤ unit ∧ unit < 0xDC00 then
      match rest with
      | .inr low :: rest =>
        if 0xDC00 ≤ low ∧ low < 0xE000 then
          (joinUnits rest).map
            (Char.ofNat (0x10000 + (unit - 0xD800) * 0x400 + (low - 0xDC00)) :: ·)
        else none
      | _ => none
    else if 0xDC00 ≤ unit ∧ unit < 0xE000 then none
    else (joinUnits rest).map (Char.ofNat unit :: ·)

/-- Reads a string behind its opening quote. -/
def readString (cs : List Char) : Option (Option String × List Char) := do
  let (units, rest) ← readUnits (cs.length + 1) cs
  return ((joinUnits units).map String.ofList, rest)

/-- The value of decimal digits. -/
def digitsValue (ds : List Char) : Nat := ds.foldl (fun n d => n * 10 + (d.toNat - 48)) 0

/-- Takes one or more digits off the front. -/
def someDigits? (cs : List Char) : Option (List Char × List Char) :=
  let digits := cs.takeWhile Char.isDigit
  if digits.isEmpty then none else some (digits, cs.dropWhile Char.isDigit)

/-- Takes a fraction off the front, and says whether there was one. -/
def fraction? : List Char → Option (Bool × List Char)
  | '.' :: rest => (someDigits? rest).map fun r => (true, r.2)
  | cs => some (false, cs)

/-- Takes an exponent off the front, and says whether there was one. -/
def exponent? : List Char → Option (Bool × List Char)
  | e :: rest =>
    if e = 'e' ∨ e = 'E' then
      let unsigned := match rest with
        | '+' :: r => r
        | '-' :: r => r
        | r => r
      (someDigits? unsigned).map fun r => (true, r.2)
    else some (false, e :: rest)
  | [] => some (false, [])

/-- Reads a number. -/
def readNumber (cs : List Char) : Option (Parsed × List Char) := do
  let negative := cs.head? = some '-'
  let (digits, rest) ← someDigits? (if negative then cs.tail else cs)
  if digits.head? = some '0' ∧ 1 < digits.length then none
  else
    let (hasFraction, rest) ← fraction? rest
    let (hasExponent, rest) ← exponent? rest
    if negative ∨ hasFraction ∨ hasExponent then return (otherNumber, rest)
    else return (natural (digitsValue digits), rest)

/-- Reads a word with a fixed meaning. -/
def readWord (word : String) (meaning : Parsed) (cs : List Char) : Option (Parsed × List Char) :=
  (word.toList.isPrefixOf? cs).map fun rest => (meaning, rest)

mutual

/-- Reads a value, behind blanks. -/
def readValue : Nat → List Char → Option (Parsed × List Char)
  | 0, _ => none
  | fuel + 1, cs =>
    match skipBlanks cs with
    | 'n' :: rest => readWord "ull" null rest
    | 't' :: rest => readWord "rue" (bool true) rest
    | 'f' :: rest => readWord "alse" (bool false) rest
    | '"' :: rest => (readString rest).map fun r => (string r.1, r.2)
    | '[' :: rest =>
      match skipBlanks rest with
      | ']' :: rest => some (array [], rest)
      | rest => (readItems fuel rest).map fun r => (array r.1, r.2)
    | '\x7b' :: rest =>
      match skipBlanks rest with
      | '\x7d' :: rest => some (object [], rest)
      | rest => (readMembers fuel rest).map fun r => (object r.1, r.2)
    | rest => readNumber rest

/-- Reads the items of an array, of which there is at least one, and its end. -/
def readItems : Nat → List Char → Option (List Parsed × List Char)
  | 0, _ => none
  | fuel + 1, cs => do
    let (item, rest) ← readValue fuel cs
    match skipBlanks rest with
    | ',' :: rest => do
      let (items, rest) ← readItems fuel rest
      return (item :: items, rest)
    | ']' :: rest => some ([item], rest)
    | _ => none

/-- Reads the members of an object, of which there is at least one, and its end. -/
def readMembers : Nat → List Char → Option (List (Option String × Parsed) × List Char)
  | 0, _ => none
  | fuel + 1, cs =>
    match skipBlanks cs with
    | '"' :: rest => do
      let (key, rest) ← readString rest
      match skipBlanks rest with
      | ':' :: rest => do
        let (value, rest) ← readValue fuel rest
        match skipBlanks rest with
        | ',' :: rest => do
          let (members, rest) ← readMembers fuel rest
          return ((key, value) :: members, rest)
        | '\x7d' :: rest => some ([(key, value)], rest)
        | _ => none
      | _ => none
    | _ => none

end

/-- Reads a whole text. Every step consumes a character or descends into what follows one, so twice
the length bounds the number of steps. -/
def read (s : String) : Option Parsed := do
  let cs := s.toList
  let (value, rest) ← readValue (2 * cs.length + 2) cs
  if (skipBlanks rest).isEmpty then some value else none

end Parsed

end EntitySql
