/-!
# Hexadecimal bytes

A byte is written as two hexadecimal digits, the high half first.
-/

namespace EntitySql.Text.Hex

/-- The capital digit of a number below 16. -/
def digit (n : Nat) : Char := if n < 10 then Char.ofNat (48 + n) else Char.ofNat (55 + n)

/-- The two capital digits of a byte. -/
def byteDigits (b : UInt8) : List Char := [digit (b.toNat / 16), digit (b.toNat % 16)]

/-- The capital digits of all bytes, in order. -/
def encode (bytes : List UInt8) : List Char := bytes.flatMap byteDigits

/-- The value of a hexadecimal digit of either case. -/
def value? (c : Char) : Option Nat :=
  let n := c.toNat
  if 48 ≤ n && n ≤ 57 then some (n - 48)
  else if 65 ≤ n && n ≤ 70 then some (n - 55)
  else if 97 ≤ n && n ≤ 102 then some (n - 87)
  else none

/-- Reads pairs of digits of either case. -/
def decode? : List Char → Option (List UInt8)
  | [] => some []
  | [_] => none
  | a :: b :: rest => do
    let high ← value? a
    let low ← value? b
    let bytes ← decode? rest
    return UInt8.ofNat (16 * high + low) :: bytes

/-- The digits of a number in lower case, without leading zeros. -/
def lowerDigits (n : Nat) : List Char := Nat.toDigits 16 n

end EntitySql.Text.Hex
