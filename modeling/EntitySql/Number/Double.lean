/-!
# Double-precision numbers

A double is kept as its 64 bits, so that two of them are equal exactly when they are the same
number with the same sign of zero, and so that a NaN equals itself. `magnitude` reads a finite
double as `m * 2 ^ q`; `ofSingle` widens a single-precision number without changing its value.
-/

namespace EntitySql

/-- A double-precision number, by its bits. -/
structure Double where
  /-- The sign, the exponent and the fraction, from the highest bit down. -/
  bits : UInt64
deriving DecidableEq, Inhabited, Repr

namespace Double

/-- The double with the value of a machine number. -/
def ofFloat (x : Float) : Double := ⟨x.toBits⟩

/-- The machine number with the value of a double. -/
def toFloat (x : Double) : Float := Float.ofBits x.bits

/-- Positive zero. -/
def zero : Double := ⟨0⟩

/-- Whether the sign bit is set. -/
def isNegative (x : Double) : Bool := x.bits >>> 63 == 1

/-- The biased exponent, a number below 2048. -/
def exponentField (x : Double) : Nat := ((x.bits >>> 52) &&& 0x7FF).toNat

/-- The fraction, a number below 2 ^ 52. -/
def fractionField (x : Double) : Nat := (x.bits &&& 0xFFFFFFFFFFFFF).toNat

/-- Whether the double is neither infinite nor a NaN. -/
def isFinite (x : Double) : Bool := x.exponentField != 2047

/-- Whether the double stands for no number. -/
def isNaN (x : Double) : Bool := x.exponentField == 2047 && x.fractionField != 0

/-- Whether the double is a zero of either sign. -/
def isZero (x : Double) : Bool := x.exponentField == 0 && x.fractionField == 0

/-- The absolute value of a finite double as `m * 2 ^ q`. -/
def magnitude (x : Double) : Nat × Int :=
  if x.exponentField = 0 then (x.fractionField, -1074)
  else (x.fractionField + 0x10000000000000, (x.exponentField : Int) - 1075)

/-- The position of the highest bit of a 23-bit fraction that is not zero. -/
def highestBit (fraction : UInt64) : Nat := Nat.log2 fraction.toNat

/-- The double with the value of the single-precision number that the bits stand for. A NaN keeps
its sign and payload and becomes quiet. -/
def ofSingle (bits : UInt32) : Double :=
  let sign := (bits >>> 31).toUInt64 <<< 63
  let exponent := ((bits >>> 23) &&& 0xFF).toUInt64
  let fraction := (bits &&& 0x7FFFFF).toUInt64
  if exponent = 255 then
    let quiet : UInt64 := if fraction = 0 then 0 else 0x8000000000000
    ⟨sign ||| (0x7FF0000000000000 : UInt64) ||| quiet ||| (fraction <<< 29)⟩
  else if exponent = 0 then
    if fraction = 0 then ⟨sign⟩
    else
      let top := highestBit fraction
      let shifted := (fraction <<< (52 - top).toUInt64) &&& 0xFFFFFFFFFFFFF
      ⟨sign ||| ((top + 874).toUInt64 <<< 52) ||| shifted⟩
  else ⟨sign ||| ((exponent + 896) <<< 52) ||| (fraction <<< 29)⟩

end Double

end EntitySql
