import EntitySql.Number.Double

/-!
# Shortest decimal of a double

A finite double that is not zero is written with the fewest decimal digits that read back as the
same double; of several texts with that many digits, with the nearest one. `Decimal.shortest` finds
those digits in exact arithmetic: the numbers that round to the double form an interval, and for one
digit, two digits and so on the two neighbours of the double on that decimal grid are tested against
it. `Double.text` lays the digits out.
-/

namespace EntitySql

/-- The digits of a positive number: `0.d₁d₂d₃… * 10 ^ point`. -/
structure Decimal where
  /-- The digits, from the most significant one. -/
  digits : List Char
  /-- The number of digits before the decimal point, negative for leading zeros after it. -/
  point : Int
deriving DecidableEq, Repr, Inhabited

namespace Decimal

/-- The number of decimal digits of a natural number. -/
def length (n : Nat) : Nat := (Nat.toDigits 10 n).length

/-- The least `k` with `num / den < 10 ^ k`, for a positive fraction. -/
def pointOf (num den : Nat) : Int :=
  if den ≤ num then length (num / den) else 1 - length ((den + num - 1) / num - 1)

/-- A fraction divided by a power of ten. -/
def scaleDown (num den : Nat) (power : Int) : Nat × Nat :=
  if 0 ≤ power then (num, den * Nat.pow 10 power.toNat)
  else (num * Nat.pow 10 (-power).toNat, den)

/-- The decimal `digits * 10 ^ power` without trailing zeros. -/
def ofScaled (digits : Nat) (power : Int) : Decimal :=
  let all := Nat.toDigits 10 digits
  ⟨(all.reverse.dropWhile (· == '0')).reverse, power + all.length⟩

/-- The numbers that round to a double, as fractions over one denominator. -/
structure Interval where
  /-- Numerator of the double itself. -/
  value : Nat
  /-- Numerator of the lower end. -/
  low : Nat
  /-- Numerator of the upper end. -/
  high : Nat
  /-- The common denominator. -/
  den : Nat
  /-- Whether the ends round to the double too. -/
  closed : Bool

/-- The numbers that round to `m * 2 ^ q`. Below a power of two the doubles lie twice as dense. -/
def Interval.of (m : Nat) (q : Int) : Interval :=
  let halfBelow := if m = 0x10000000000000 ∧ -1074 < q then 1 else 2
  let scale := Nat.pow 2 (q - 2).toNat
  { value := 4 * m * scale
    low := (4 * m - halfBelow) * scale
    high := (4 * m + 2) * scale
    den := Nat.pow 2 (2 - q).toNat
    closed := m % 2 = 0 }

/-- The best decimal with `count` digits that lies in the interval, if there is one: the nearer of
the two neighbours, the upper one at equal distance. -/
def Interval.nearest? (i : Interval) (point : Int) (count : Nat) : Option Decimal :=
  let power := point - count
  let (num, den) := scaleDown i.value i.den power
  let (low, _) := scaleDown i.low i.den power
  let (high, _) := scaleDown i.high i.den power
  let below := num / den
  let above := below + 1
  let lowFits := if i.closed then low ≤ below * den else low < below * den
  let highFits := if i.closed then above * den ≤ high else above * den < high
  if lowFits ∧ highFits then
    some (ofScaled (if 2 * (num - below * den) < den then below else above) power)
  else if lowFits then some (ofScaled below power)
  else if highFits then some (ofScaled above power)
  else none

/-- The shortest decimal that reads back as `m * 2 ^ q`; seventeen digits always suffice. -/
def shortest (m : Nat) (q : Int) : Decimal :=
  let i := Interval.of m q
  let point := pointOf i.value i.den
  ((List.range' 1 17).findSome? (i.nearest? point)).getD (ofScaled 0 0)

/-- A number of zeros. -/
def zeros (n : Nat) : List Char := List.replicate n '0'

/-- The decimal with a point and at least one digit on either side of it. -/
def positional (d : Decimal) : List Char :=
  if d.point ≤ 0 then '0' :: '.' :: zeros (-d.point).toNat ++ d.digits
  else
    let point := d.point.toNat
    if d.digits.length ≤ point then d.digits ++ zeros (point - d.digits.length) ++ ['.', '0']
    else d.digits.take point ++ '.' :: d.digits.drop point

/-- The decimal with its first digit before the point and the power of ten after an `e`. -/
def scientific (d : Decimal) : List Char :=
  let exponent := (toString (d.point - 1)).toList
  match d.digits with
  | [] => []
  | [c] => c :: 'e' :: exponent
  | c :: rest => c :: '.' :: rest ++ 'e' :: exponent

end Decimal

/-- A double as text: the shortest digits that read back, positional from 1e-4 up to 1e16 and with
an exponent outside. -/
def Double.text (x : Double) : String :=
  if x.isNaN then "NaN"
  else
    let sign := if x.isNegative then ['-'] else []
    String.ofList <|
      if ¬ x.isFinite then sign ++ ['i', 'n', 'f']
      else if x.isZero then sign ++ ['0', '.', '0']
      else
        let d := Decimal.shortest x.magnitude.1 x.magnitude.2
        sign ++ if -4 < d.point ∧ d.point ≤ 16 then d.positional else d.scientific

end EntitySql
