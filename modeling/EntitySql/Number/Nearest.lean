import EntitySql.Number.Double

/-!
# Nearest double

Every fraction rounds to one double: the nearest, and of two at the same distance the one with an
even last bit. `Double.nearest` computes it in exact arithmetic, beyond the largest double infinity.
The other direction is exact: `signedMagnitude` reads a finite double as `m * 2 ^ q` with its sign
in `m`, `truncate` drops what stands after its binary point, and `order` is an integer key by which
doubles are ordered like the numbers that they stand for.
-/

namespace EntitySql.Double

/-- Positive infinity. -/
def infinity : Double := ⟨0x7FF0000000000000⟩

/-- The double of the opposite sign. -/
def negate (x : Double) : Double := ⟨x.bits ^^^ 0x8000000000000000⟩

/-- A quotient rounded to the nearest integer, a half to the even neighbour. -/
def roundHalfEven (num den : Nat) : Nat :=
  let q := num / den
  let twice := 2 * (num % den)
  if twice < den then q else if den < twice then q + 1 else q + q % 2

/-- A fraction divided by a power of two, as numerator and denominator. -/
def scaleBinary (num den : Nat) (power : Int) : Nat × Nat :=
  if 0 ≤ power then (num, den * Nat.pow 2 power.toNat)
  else (num * Nat.pow 2 (-power).toNat, den)

/-- The power of two that the last bit of the double nearest to a positive fraction stands for,
unless rounding carries. -/
def lastBit (num den : Nat) : Int :=
  let low := max ((Nat.log2 num : Int) - Nat.log2 den - 53) (-1074)
  let (n, d) := scaleBinary num den low
  if n / d < 0x20000000000000 then low else low + 1

/-- The double nearest to a fraction that is not negative. -/
def nearest (num den : Nat) : Double :=
  if num = 0 then zero
  else
    let power := lastBit num den
    let (n, d) := scaleBinary num den power
    let bits := roundHalfEven n d + (power + 1074).toNat * 0x10000000000000
    if bits < 0x7FF0000000000000 then ⟨UInt64.ofNat bits⟩ else infinity

/-- The double nearest to an integer. -/
def ofInt (n : Int) : Double :=
  if n < 0 then (nearest n.natAbs 1).negate else nearest n.natAbs 1

/-- A finite double as `m * 2 ^ q`, with its sign in `m`. -/
def signedMagnitude (x : Double) : Int × Int :=
  let (m, q) := x.magnitude
  (if x.isNegative then -(m : Int) else m, q)

/-- The integer part of a finite double. -/
def truncate (x : Double) : Int :=
  let (m, q) := x.signedMagnitude
  if 0 ≤ q then m * Int.pow 2 q.toNat else Int.tdiv m (Int.pow 2 (-q).toNat)

/-- The value of a double that is an integer. -/
def integer? (x : Double) : Option Int :=
  let (m, q) := x.signedMagnitude
  if ¬ x.isFinite then none
  else if 0 ≤ q then some (m * Int.pow 2 q.toNat)
  else if m % Int.pow 2 (-q).toNat = 0 then some (m / Int.pow 2 (-q).toNat)
  else none

/-- The key by which doubles are ordered; both zeros have the same. -/
def order (x : Double) : Int :=
  let size := (x.bits &&& 0x7FFFFFFFFFFFFFFF).toNat
  if x.isNegative then -(size : Int) else size

/-- Compares a double that is a number with an integer. -/
def compareInt (x : Double) (n : Int) : Ordering :=
  if x.isFinite then
    let (m, q) := x.signedMagnitude
    if 0 ≤ q then compare (m * Int.pow 2 q.toNat) n
    else compare m (n * Int.pow 2 (-q).toNat)
  else if x.isNegative then .lt else .gt

end EntitySql.Double
