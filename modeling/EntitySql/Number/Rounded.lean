import EntitySql.Number.Shortest

/-!
# Fifteen digits

The text that a database gives a number stored as text: at most fifteen significant digits, a half
rounded up, always with a digit after the point. Numbers from 1e-4 up to 1e15 are positional; others
have a power of ten with a sign and at least two digits.
-/

namespace EntitySql

namespace Decimal

/-- The decimal of fifteen digits nearest to a positive fraction. -/
def fifteen (num den : Nat) : Decimal :=
  let power := pointOf num den - 15
  let (n, d) := scaleDown num den power
  ofScaled ((2 * n + d) / (2 * d)) power

/-- The power of ten with its sign and at least two digits. -/
def signedPower (power : Int) : List Char :=
  let digits := (toString power.natAbs).toList
  (if power < 0 then '-' else '+') :: if digits.length < 2 then '0' :: digits else digits

/-- The decimal with one digit before the point and at least one after it. -/
def pointedScientific (d : Decimal) : List Char :=
  let fraction := d.digits.drop 1
  d.digits.take 1 ++ '.' :: (if fraction.isEmpty then ['0'] else fraction) ++
    'e' :: signedPower (d.point - 1)

end Decimal

/-- A double as text of at most fifteen digits. A zero has no sign. -/
def Double.fifteenDigits (x : Double) : String :=
  let sign := if x.isNegative then ['-'] else []
  String.ofList <|
    if x.isZero then ['0', '.', '0']
    else if ¬ x.isFinite then sign ++ ['I', 'n', 'f']
    else
      let (m, q) := x.magnitude
      let d := Decimal.fifteen (m * Nat.pow 2 q.toNat) (Nat.pow 2 (-q).toNat)
      sign ++ if -4 < d.point ∧ d.point ≤ 15 then d.positional else d.pointedScientific

end EntitySql
