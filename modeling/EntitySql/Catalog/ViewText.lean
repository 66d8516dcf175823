import EntitySql.Catalog.Live
import EntitySql.Text.Alphanumeric

/-!
# The text of a view

A database keeps the statement that created a view. `LiveView.ofStatement` finds the body in it:
what follows the first word `AS` that stands outside quotes. `fingerprint` reduces a body to its
letters and digits, by which two bodies are compared.
-/

namespace EntitySql

namespace ViewText

/-- The character that closes what the given one opens, if it opens a quoted name or literal. -/
def closing? : Char → Option Char
  | '"' => some '"'
  | '\x60' => some '\x60'
  | '\'' => some '\''
  | '[' => some ']'
  | _ => none

/-- Whether the characters begin with the word `AS`, with the rest behind it. -/
def afterAs? : List Char → Option (List Char)
  | a :: s :: rest =>
    if a.toLower = 'a' ∧ s.toLower = 's' ∧ (rest.head?.map Text.isWordChar).getD false = false then
      some rest
    else none
  | _ => none

/-- Whether the scanner stands in plain text, with the character before, or inside quotes that the
given character closes. -/
inductive Place where
  | plain (before : Option Char)
  | quoted (close : Char)
deriving DecidableEq, Inhabited, Repr

/-- What follows the first word `AS` outside quotes, for a scanner in the given place. -/
def bodyFrom? (place : Place) : List Char → Option (List Char)
  | [] => none
  | c :: rest =>
    match place with
    | .quoted close => bodyFrom? (if c = close then .plain (some c) else .quoted close) rest
    | .plain before =>
      match closing? c with
      | some close => bodyFrom? (.quoted close) rest
      | none =>
        if (before.map Text.isWordChar).getD false then bodyFrom? (.plain (some c)) rest
        else (afterAs? (c :: rest)).or (bodyFrom? (.plain (some c)) rest)

/-- Whether the characters begin with `CREATE` in any ASCII case. -/
def beginsWithCreate (cs : List Char) : Bool :=
  Text.isKeyword ['C', 'R', 'E', 'A', 'T', 'E'] (cs.take 6)

/-- The body in the text of a view: the text itself, unless it is a statement that creates one. -/
def body (sql : String) : String :=
  let cs := Text.trimChars sql.toList
  String.ofList <|
    if beginsWithCreate cs then
      match bodyFrom? (.plain none) cs with
      | some rest => Text.trimLeft rest
      | none => cs
    else cs

/-- The letters and digits of a body, in order. -/
def fingerprint (definition : String) : List Char :=
  definition.toList.filter Text.isAlphanumeric

end ViewText

/-- The view of a name and the text that the database keeps of it. -/
def LiveView.ofStatement (name sql : String) : LiveView := ⟨name, ViewText.body sql⟩

end EntitySql
