import EntitySql.Number.Double

/-!
# Arithmetic of doubles

Sum, difference, product and quotient, each rounded once.
-/

namespace EntitySql.Double

/-- The sum of two doubles. -/
def add (x y : Double) : Double := .ofFloat (x.toFloat + y.toFloat)

/-- The difference of two doubles. -/
def subtract (x y : Double) : Double := .ofFloat (x.toFloat - y.toFloat)

/-- The product of two doubles. -/
def multiply (x y : Double) : Double := .ofFloat (x.toFloat * y.toFloat)

/-- The quotient of two doubles. -/
def divide (x y : Double) : Double := .ofFloat (x.toFloat / y.toFloat)

/-- The absolute value of a double. -/
def magnitudeOf (x : Double) : Double := ⟨x.bits &&& 0x7FFFFFFFFFFFFFFF⟩

end EntitySql.Double
