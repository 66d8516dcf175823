import EntitySql.Time.Timestamp

/-!
# Durations

A duration is a number of whole seconds and a rest below a second. It is shown in the largest of the
units `s`, `ms`, `µs` and `ns` in which it is at least one, the rest as a decimal fraction without
trailing zeros.
-/

namespace EntitySql

/-- A span of time. -/
structure Duration where
  /-- Whole seconds. -/
  seconds : Nat
  /-- The rest, below a billion. -/
  nanoseconds : Nat
deriving DecidableEq, Inhabited, Repr

namespace Duration

/-- A number of whole seconds. -/
def ofSeconds (n : Nat) : Duration := ⟨n, 0⟩

/-- A number of whole milliseconds. -/
def ofMilliseconds (n : Nat) : Duration := ⟨n / 1000, n % 1000 * 1000000⟩

/-- The whole milliseconds in a duration. -/
def milliseconds (d : Duration) : Nat := d.seconds * 1000 + d.nanoseconds / 1000000

/-- A whole part and a fraction of `width` digits, without trailing zeros. -/
def decimalChars (whole fraction width : Nat) : List Char :=
  let digits := (paddedDigits width fraction).reverse.dropWhile (· == '0') |>.reverse
  Nat.toDigits 10 whole ++ if digits.isEmpty then [] else '.' :: digits

/-- The text of a duration. -/
def text (d : Duration) : String :=
  String.ofList <|
    if 0 < d.seconds then decimalChars d.seconds d.nanoseconds 9 ++ ['s']
    else if 1000000 ≤ d.nanoseconds then
      decimalChars (d.nanoseconds / 1000000) (d.nanoseconds % 1000000) 6 ++ ['m', 's']
    else if 1000 ≤ d.nanoseconds then
      decimalChars (d.nanoseconds / 1000) (d.nanoseconds % 1000) 3 ++ ['µ', 's']
    else decimalChars d.nanoseconds 0 0 ++ ['n', 's']

end Duration

end EntitySql
