import EntitySql.Number.Nearest

/-!
# Numerals

A numeral is an optional sign, digits with an optional point among them, and an optional power of
ten after an `e`. Blanks in front of it are skipped. `Numeral.readPrefix` reads the longest numeral
at the front of a text, `Numeral.readAll` a text that is one numeral between blanks.
-/

namespace EntitySql

/-- A decimal `± digits * 10 ^ power`. -/
structure Numeral where
  /-- Whether a minus sign stands in front. -/
  negative : Bool
  /-- All digits, read as one number. -/
  digits : Nat
  /-- The power of ten. -/
  power : Int
  /-- Whether there is neither a point nor a power of ten. -/
  isWhole : Bool
deriving DecidableEq, Inhabited, Repr

namespace Numeral

/-- The blanks of numerals: the space and the ASCII controls from tab to carriage return. -/
def isSpace (c : Char) : Bool := c == ' ' || (9 ≤ c.toNat && c.toNat ≤ 13)

/-- The number that decimal digits stand for. -/
def ofDigits (cs : List Char) : Nat := cs.foldl (fun n c => 10 * n + (c.toNat - 48)) 0

/-- Takes a sign off the front, and says whether it is a minus sign. -/
def readSign : List Char → Bool × List Char
  | '-' :: rest => (true, rest)
  | '+' :: rest => (false, rest)
  | cs => (false, cs)

/-- Takes a point and the digits after it off the front. -/
def readFraction : List Char → Option (List Char × List Char)
  | '.' :: rest => some (rest.takeWhile Char.isDigit, rest.dropWhile Char.isDigit)
  | _ => none

/-- Takes a power of ten off the front; an `e` without digits is none. -/
def readPower : List Char → Option (Int × List Char)
  | c :: rest =>
    if c == 'e' || c == 'E' then
      let (negative, rest) := readSign rest
      let digits := rest.takeWhile Char.isDigit
      if digits.isEmpty then none
      else
        let n : Int := ofDigits digits
        some (if negative then -n else n, rest.dropWhile Char.isDigit)
    else none
  | [] => none

/-- Takes a numeral without a sign off the front. -/
def readUnsigned (negative : Bool) (cs : List Char) : Option (Numeral × List Char) :=
  let whole := cs.takeWhile Char.isDigit
  let rest := cs.dropWhile Char.isDigit
  let (fraction, rest, pointed) := match readFraction rest with
    | some (fraction, rest) => (fraction, rest, true)
    | none => ([], rest, false)
  if whole.isEmpty && fraction.isEmpty then none
  else
    let (power, rest, scaled) := match readPower rest with
      | some (power, rest) => (power, rest, true)
      | none => (0, rest, false)
    some (⟨negative, ofDigits (whole ++ fraction), power - fraction.length, !pointed && !scaled⟩,
      rest)

/-- Takes blanks and the longest numeral off the front. -/
def readPrefix (cs : List Char) : Option (Numeral × List Char) :=
  let (negative, rest) := readSign (cs.dropWhile isSpace)
  readUnsigned negative rest

/-- Reads a text that is one numeral between blanks. -/
def readAll (cs : List Char) : Option Numeral :=
  match readPrefix cs with
  | some (n, rest) => if rest.all isSpace then some n else none
  | none => none

/-- The integer that a whole numeral stands for. -/
def toInt (n : Numeral) : Int := if n.negative then -(n.digits : Int) else n.digits

/-- The absolute value of a numeral, rounded. Numbers that are far outside the doubles are settled
by their number of digits. -/
def size (n : Numeral) : Double :=
  let length : Int := (Nat.toDigits 10 n.digits).length
  if n.digits = 0 || n.power + length < -330 then .zero
  else if 310 < n.power + length then .infinity
  else if 0 ≤ n.power then .nearest (n.digits * Nat.pow 10 n.power.toNat) 1
  else .nearest n.digits (Nat.pow 10 (-n.power).toNat)

/-- The double nearest to a numeral. -/
def toDouble (n : Numeral) : Double := if n.negative then n.size.negate else n.size

end Numeral

end EntitySql
