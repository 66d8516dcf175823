/-!
# ASCII case and ASCII classes

Names in a catalog are compared after folding the case of ASCII letters only, so `ID` and `id` are
one name while `É` and `é` are two. `foldCase` is the key of that comparison, `sameName` the
comparison itself, and the lemmas say that it is an equivalence.
-/

namespace EntitySql.Text

/-- The comparison key of a name: its characters with ASCII capitals made small. -/
def foldCase (s : String) : List Char := s.toList.map Char.toLower

/-- The text with ASCII capitals made small, everything else as it is. -/
def lowerAscii (s : String) : String := String.ofList (s.toList.map Char.toLower)

/-- The text with ASCII small letters made capital, everything else as it is. -/
def upperAscii (s : String) : String := String.ofList (s.toList.map Char.toUpper)

/-- Two names are the same when they differ at most in the case of ASCII letters. -/
def sameName (a b : String) : Bool := foldCase a == foldCase b

theorem sameName_iff {a b : String} : sameName a b = true ↔ foldCase a = foldCase b := by
  simp [sameName]

@[simp] theorem sameName_refl (a : String) : sameName a a = true := by simp [sameName]

theorem sameName_comm (a b : String) : sameName a b = sameName b a := by
  simp only [sameName, Bool.beq_comm]

theorem sameName_trans {a b c : String} (hab : sameName a b = true) (hbc : sameName b c = true) :
    sameName a c = true := by
  rw [sameName_iff] at *
  exact hab.trans hbc

/-- Two lists of names that agree position by position. -/
def sameNames (xs ys : List String) : Bool := xs.map foldCase == ys.map foldCase

/-- An ASCII letter, an ASCII digit or an underscore. -/
def isWordChar (c : Char) : Bool := c.isAlphanum || c == '_'

/-- The characters of a word compared with a keyword given in capitals. -/
def isKeyword (keyword : List Char) (word : List Char) : Bool := word.map Char.toUpper == keyword

end EntitySql.Text
