/-!
# Timestamps

A timestamp is a calendar date and a time of day without a time zone. A nanosecond count from 10 ^ 9
on marks a leap second, which is shown as second 60. The text of a timestamp has a year of at least
four digits, signed outside 0 to 9999, and a fraction of three, six or nine digits only when there
is one.
-/

namespace EntitySql

/-- A date and a time of day. -/
structure Timestamp where
  /-- The year; zero is the year before 1. -/
  year : Int
  /-- The month, from 1. -/
  month : Nat
  /-- The day of the month, from 1. -/
  day : Nat
  /-- The hour, from 0. -/
  hour : Nat
  /-- The minute, from 0. -/
  minute : Nat
  /-- The second, from 0. -/
  second : Nat
  /-- The nanoseconds; a billion or more lie inside a leap second. -/
  nanosecond : Nat
deriving DecidableEq, Inhabited, Repr

/-- The decimal digits of a number, with zeros in front up to the given width. -/
def paddedDigits (width n : Nat) : List Char :=
  let digits := Nat.toDigits 10 n
  List.replicate (width - digits.length) '0' ++ digits

namespace Timestamp

/-- Midnight of the first of January 1970. -/
def epoch : Timestamp := ⟨1970, 1, 1, 0, 0, 0, 0⟩

/-- The year, signed unless it has at most four digits and is not negative. -/
def yearChars (year : Int) : List Char :=
  if year < 0 then '-' :: paddedDigits 4 year.natAbs
  else if 9999 < year then '+' :: paddedDigits 4 year.natAbs
  else paddedDigits 4 year.natAbs

/-- The fraction of a second with its point, by the fewest of 0, 3, 6 and 9 digits that are
exact. -/
def fractionChars (nanoseconds : Nat) : List Char :=
  if nanoseconds = 0 then []
  else if nanoseconds % 1000000 = 0 then '.' :: paddedDigits 3 (nanoseconds / 1000000)
  else if nanoseconds % 1000 = 0 then '.' :: paddedDigits 6 (nanoseconds / 1000)
  else '.' :: paddedDigits 9 nanoseconds

/-- The text of a timestamp with the given character between date and time. -/
def textWith (separator : Char) (t : Timestamp) : String :=
  let leap := 1000000000 ≤ t.nanosecond
  let second := if leap then t.second + 1 else t.second
  String.ofList <|
    yearChars t.year ++ '-' :: paddedDigits 2 t.month ++ '-' :: paddedDigits 2 t.day ++
      separator :: paddedDigits 2 t.hour ++ ':' :: paddedDigits 2 t.minute ++
      ':' :: paddedDigits 2 second ++ fractionChars (t.nanosecond % 1000000000)

/-- The text of a timestamp as it is stored. -/
def text (t : Timestamp) : String := t.textWith ' '

end Timestamp

end EntitySql
