/-!
# Quoted text

A quoted name or literal is its text between an opening and a closing character, with every
closing character inside written twice. `encode` writes the inside, `enclose` the whole, and
`read` takes a quoted text off the front of a longer one: a doubled closing character stands for
one, a single one ends the text. The main lemma, `read_enclose`, says that reading gives back what
was written and leaves what follows, provided that does not begin with the closing character.
-/

namespace EntitySql.Text.Quoted

/-- The inside of a quoted text: each closing character is written twice. -/
def encode (close : Char) : List Char → List Char
  | [] => []
  | c :: rest => if c = close then close :: close :: encode close rest else c :: encode close rest

/-- Reads the inside of a quoted text up to the single closing character that ends it, and
returns the text and what follows; a text that does not end is refused. -/
def decode (close : Char) : List Char → Option (List Char × List Char)
  | [] => none
  | [c] => if c = close then some ([], []) else none
  | c :: d :: rest =>
    if c = close then
      if d = close then (decode close rest).map fun r => (close :: r.1, r.2)
      else some ([], d :: rest)
    else (decode close (d :: rest)).map fun r => (c :: r.1, r.2)

/-- The text between its two quote characters. -/
def encloseChars (opening close : Char) (cs : List Char) : List Char :=
  opening :: encode close cs ++ [close]

/-- The text between its two quote characters. -/
def enclose (opening close : Char) (s : String) : String :=
  String.ofList (encloseChars opening close s.toList)

/-- Takes a quoted text off the front. -/
def read (opening close : Char) : List Char → Option (List Char × List Char)
  | c :: rest => if c = opening then decode close rest else none
  | [] => none

theorem decode_encode {close : Char} (cs rest : List Char) (h : rest.head? ≠ some close) :
    decode close (encode close cs ++ close :: rest) = some (cs, rest) := by
  induction cs with
  | nil =>
    cases rest with
    | nil => simp [encode, decode]
    | cons d rest =>
      have hd : d ≠ close := by simpa using h
      simp [encode, decode, hd]
  | cons c cs ih =>
    by_cases hc : c = close
    · subst hc
      simp [encode, decode, ih]
    · obtain ⟨d, tail, htail⟩ : ∃ d tail, encode close cs ++ close :: rest = d :: tail := by
        cases encode close cs <;> simp
      rw [htail] at ih
      simp [encode, hc, htail, decode, ih]

theorem read_enclose {opening close : Char} (cs rest : List Char) (h : rest.head? ≠ some close) :
    read opening close (encloseChars opening close cs ++ rest) = some (cs, rest) := by
  simp [read, encloseChars, decode_encode cs rest h]

end EntitySql.Text.Quoted
