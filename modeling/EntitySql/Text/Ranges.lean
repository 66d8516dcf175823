/-!
# Sets of characters as bounds

A set of code points is given by its bounds in increasing order: the first bound begins a range,
the second ends it (exclusively), the third begins the next, and so on. A last bound without an end
stands for a range that goes to the end.

The sets and mappings that the other modules give for Unicode properties are those of Unicode 17.
-/

namespace EntitySql.Text

/-- Whether a number lies in the set that the bounds describe. -/
def inside : List Nat → Nat → Bool
  | [], _ => false
  | [first], n => first ≤ n
  | first :: stop :: rest, n => if n < first then false else n < stop || inside rest n

end EntitySql.Text
