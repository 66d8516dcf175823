import EntitySql.Text.Hex

/-!
# Percent encoding

In a url a percent sign and two hexadecimal digits stand for a byte, and the bytes together are
UTF-8. A percent sign that no two digits follow stands for itself.
-/

namespace EntitySql.Text.Percent

/-- The bytes of a character. -/
def bytesOf (c : Char) : List UInt8 := (String.singleton c).toUTF8.toList

/-- The bytes that characters stand for. -/
def bytes : List Char → List UInt8
  | [] => []
  | '%' :: a :: b :: rest =>
    match Hex.value? a, Hex.value? b with
    | some high, some low => UInt8.ofNat (16 * high + low) :: bytes rest
    | _, _ => bytesOf '%' ++ bytes (a :: b :: rest)
  | c :: rest => bytesOf c ++ bytes rest

/-- The text that characters stand for, none if the bytes are not UTF-8. -/
def decode? (cs : List Char) : Option String := String.fromUTF8? ⟨(bytes cs).toArray⟩

end EntitySql.Text.Percent
