import EntitySql.Number.Numeral
import EntitySql.Number.Rounded
import EntitySql.Sql.Affinity
import EntitySql.Value

/-!
# Stored data

What a cell of a table holds: nothing, an integer, a real number, a text or bytes. A datum has a
type of its own, whatever the column declares; the affinity of the column only says into which type
it is converted when the conversion is exact. `Affinity.store` is that conversion, `Datum.compare`
the order by which data are sorted, grouped and told apart.
-/

namespace EntitySql

/-- What a cell holds. -/
inductive Datum where
  | null
  | int (n : Int64)
  | real (x : Double)
  | text (s : String)
  | blob (bytes : List UInt8)
deriving DecidableEq, Inhabited, Repr

namespace Datum

/-- Whether there is nothing. -/
def isNull : Datum → Bool
  | null => true
  | _ => false

/-- A truth value is one or zero. -/
def ofBool (b : Bool) : Datum := int (if b then 1 else 0)

/-- A real number; what is no number is nothing. -/
def ofDouble (x : Double) : Datum := if x.isNaN then null else real x

/-- A bound value. -/
def ofValue : Value → Datum
  | .null => null
  | .bool b => ofBool b
  | .int n => int n
  | .float x => ofDouble x
  | .text s => text s
  | .blob bytes => blob bytes
  | .timestamp t => text t.text

/-- The value that is read from a cell. -/
def toValue : Datum → Value
  | null => .null
  | int n => .int n
  | real x => .float x
  | text s => .text s
  | blob bytes => .blob bytes

/-- The integer, if 64 bits hold it. -/
def int64? (n : Int) : Option Int64 :=
  if -0x8000000000000000 ≤ n ∧ n < 0x8000000000000000 then some (Int64.ofInt n) else none

/-- The integer nearest to a number among those that 64 bits hold. -/
def clampInt (n : Int) : Int64 :=
  Int64.ofInt (max (-0x8000000000000000) (min n 0x7FFFFFFFFFFFFFFF))

/-- The number that a numeral stands for: an integer if it is written and fits as one. -/
def ofNumeral (n : Numeral) : Datum :=
  if n.isWhole then
    match int64? n.toInt with
    | some i => int i
    | none => real n.toDouble
  else real n.toDouble

/-- A text as the number that it spells, everything else as it is. -/
def readNumber : Datum → Datum
  | text s =>
    match Numeral.readAll s.toList with
    | some n => ofNumeral n
    | none => text s
  | d => d

/-- A real number as the integer that equals it, everything else as it is. The two outermost
integers are left out, because a real number near them may have been rounded. -/
def preferInt : Datum → Datum
  | real x =>
    match x.integer? with
    | some n =>
      if -0x8000000000000000 < n ∧ n < 0x7FFFFFFFFFFFFFFF then int (Int64.ofInt n) else real x
    | none => real x
  | d => d

/-- An integer as a real number, everything else as it is. -/
def widen : Datum → Datum
  | int n => real (.ofInt n.toInt)
  | d => d

/-- A number as its text, everything else as it is. -/
def spell : Datum → Datum
  | int n => text (intLiteral n)
  | real x => text x.fifteenDigits
  | d => d

/-- The text that a datum is taken for where a text is needed. -/
def toText : Datum → String
  | null => ""
  | int n => intLiteral n
  | real x => x.fifteenDigits
  | text s => s
  | blob bytes => (String.fromUTF8? ⟨bytes.toArray⟩).getD ""

/-- The number at the front of a text, zero without one. -/
def leadingNumber (s : String) : Datum :=
  match Numeral.readPrefix s.toList with
  | some (n, _) => ofNumeral n
  | none => int 0

/-- The number that a datum is taken for where a number is needed. -/
def toNumber : Datum → Datum
  | text s => leadingNumber s
  | blob bytes => leadingNumber (blob bytes).toText
  | d => d

/-- The number at the front of a text as a real number, a zero without digits; either has the sign
that is written. -/
def leadingDouble (s : String) : Double :=
  let (negative, rest) := Numeral.readSign (s.toList.dropWhile Numeral.isSpace)
  match Numeral.readUnsigned negative rest with
  | some (n, _) => n.toDouble
  | none => if negative then Double.zero.negate else .zero

/-- The real number that a datum is taken for. -/
def toDouble : Datum → Double
  | null => .zero
  | int n => .ofInt n.toInt
  | real x => x
  | text s => leadingDouble s
  | blob bytes => leadingDouble (blob bytes).toText

/-- The part of a real number before the point, as near as 64 bits hold it. -/
def truncate (x : Double) : Int64 :=
  if x.isFinite then clampInt x.truncate
  else if x.isNegative then clampInt (-0x8000000000000000) else clampInt 0x8000000000000000

/-- The digits at the front of a text as an integer. -/
def leadingInt (s : String) : Int64 :=
  let (negative, rest) := Numeral.readSign (s.toList.dropWhile Numeral.isSpace)
  let n : Int := Numeral.ofDigits (rest.takeWhile Char.isDigit)
  clampInt (if negative then -n else n)

/-- The integer that a datum is taken for. -/
def toInt64 : Datum → Int64
  | null => 0
  | int n => n
  | real x => truncate x
  | text s => leadingInt s
  | blob bytes => leadingInt (blob bytes).toText

/-- Whether a datum counts as true; nothing is neither true nor false. -/
def truth? : Datum → Option Bool
  | null => none
  | int n => some (n != 0)
  | d => some (!d.toDouble.isZero)

/-- Whether a datum counts as true. -/
def isTrue (d : Datum) : Bool := d.truth? == some true

/-- The result of a condition that may be undecided. -/
def ofTruth : Option Bool → Datum
  | some b => ofBool b
  | none => null

/-- The class that a datum is sorted by first: nothing, numbers, texts, bytes. -/
def rank : Datum → Nat
  | null => 0
  | int _ | real _ => 1
  | text _ => 2
  | blob _ => 3

/-- Compares bytes from the left; what ends first is smaller. -/
def compareBytes : List UInt8 → List UInt8 → Ordering
  | [], [] => .eq
  | [], _ :: _ => .lt
  | _ :: _, [] => .gt
  | a :: as, b :: bs => (Ord.compare a.toNat b.toNat).then (compareBytes as bs)

/-- Compares characters from the left; what ends first is smaller. -/
def compareChars : List Char → List Char → Ordering
  | [], [] => .eq
  | [], _ :: _ => .lt
  | _ :: _, [] => .gt
  | a :: as, b :: bs => (Ord.compare a.toNat b.toNat).then (compareChars as bs)

/-- Compares two data. Numbers are compared by value, whether integer or real. -/
def compare : Datum → Datum → Ordering
  | int a, int b => Ord.compare a.toInt b.toInt
  | int a, real b => (b.compareInt a.toInt).swap
  | real a, int b => a.compareInt b.toInt
  | real a, real b => Ord.compare a.order b.order
  | text a, text b => compareChars a.toList b.toList
  | blob a, blob b => compareBytes a b
  | a, b => Ord.compare a.rank b.rank

/-- Whether two data are the same where rows are grouped or told apart. -/
def same (a b : Datum) : Bool := a.compare b == .eq

end Datum

namespace Affinity

/-- The datum that a column of the affinity stores. -/
def store : Affinity → Datum → Datum
  | text, d => d.spell
  | blob, d => d
  | integer, d | numeric, d => d.readNumber.preferInt
  | real, d => d.readNumber.preferInt.widen

/-- The datum in the form in which it is compared with a column of the affinity. -/
def adjust : Affinity → Datum → Datum
  | text, d => d.spell
  | blob, d => d
  | _, d => d.readNumber

/-- The datum after an explicit conversion. -/
def cast : Affinity → Datum → Datum
  | _, .null => .null
  | text, d => .text d.toText
  | blob, .blob bytes => .blob bytes
  | blob, d => .blob d.toText.toUTF8.toList
  | integer, d => .int d.toInt64
  | real, d => .real d.toDouble
  | numeric, .int n => .int n
  | numeric, .real x => .real x
  | numeric, d => d.toNumber.preferInt

end Affinity

end EntitySql
