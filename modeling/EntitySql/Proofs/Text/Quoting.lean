import EntitySql.Proofs.Database.Lossless
import EntitySql.Proofs.Reading.Symbol

/-!
# Quoted names and literals

A name or a text between quotes is read back as it was, whatever characters it has, and reading
stops where writing stopped. Both directions matter. That what was written is read back says that no
name can end its own quotes and go on as SQL; that what is read was written that way says that there
is no second way to spell a name. The one thing a statement has to see to is that no closing quote
follows a quoted text, because it would be taken for the second half of a doubled one.

Only the closing quote is doubled. Between brackets an opening one stands for itself, so the two
characters of a dialect are not symmetric, and nothing here assumes that they are equal or that they
differ.

## Main definitions

* `Dialect.readName`, `Value.readText`, `Value.readBytes`: reading by the rules of quoting
* `Dialect.QuotesExactly`: reading is the inverse of writing

## Main results

* `Text.Quoted.read_eq_some_iff`: what is read is what was written, and conversely
* `Text.Hex.decode?_encode`: the digits of bytes are read back
* `Dialect.quotesExactly_of_shipped`: names, texts and bytes are read back
-/

namespace EntitySql

namespace Text

namespace Quoted

variable {opening close : Char} {cs s rest : List Char}

/-- **Reading is the inverse of writing**, in front of what does not begin with a closing quote. -/
theorem read_eq_some_iff : read opening close cs = some (s, rest) ↔
    cs = encloseChars opening close s ++ rest ∧ rest.head? ≠ some close := by
  constructor
  · intro h
    rcases cs with _ | ⟨c, cs⟩
    · cases h
    rw [read] at h
    split at h
    · next hopening =>
      obtain ⟨hrest, hnext⟩ := eq_encode_of_decode h
      exact ⟨by simp [encloseChars, hopening, hrest], hnext⟩
    · cases h
  · rintro ⟨rfl, hrest⟩
    exact read_enclose s rest hrest

theorem toList_enclose (opening close : Char) (s : String) :
    (enclose opening close s).toList = encloseChars opening close s.toList := by
  rw [enclose, String.toList_ofList]

/-- No two texts are written alike. -/
theorem enclose_injective (opening close : Char) : Function.Injective (enclose opening close) := by
  intro a b hab
  have hread : ∀ s : String, read opening close (enclose opening close s).toList =
      some (s.toList, []) := by
    intro s
    rw [toList_enclose, read_eq_some_iff]
    exact ⟨(List.append_nil _).symm, by simp⟩
  have hpair := (hread a).symm.trans (hab ▸ hread b)
  exact String.toList_inj.mp (Prod.mk.inj (Option.some.inj hpair)).1

/-- Without closing quotes there is nothing to double. -/
theorem encode_of_not_mem (h : close ∉ cs) : encode close cs = cs := by
  induction cs with
  | nil => rfl
  | cons c cs ih =>
    have hc : c ≠ close := fun heq => h (heq ▸ List.mem_cons_self)
    rw [encode, if_neg hc, ih fun hmem => h (List.mem_cons_of_mem c hmem)]

end Quoted

/-! ### Hexadecimal digits -/

namespace Hex

theorem value?_digit {n : Nat} (h : n < 16) : value? (digit n) = some n := by
  have hall : ∀ k : Fin 16, value? (digit k) = some (k : Nat) := by decide
  exact hall ⟨n, h⟩

theorem digit_ne_quote {n : Nat} (h : n < 16) : digit n ≠ '\'' := by
  have hall : ∀ k : Fin 16, digit k ≠ '\'' := by decide
  exact hall ⟨n, h⟩

theorem high_lt (b : UInt8) : b.toNat / 16 < 16 := by
  have hlt := b.toNat_lt
  omega

theorem low_lt (b : UInt8) : b.toNat % 16 < 16 := Nat.mod_lt _ (by decide)

/-- **The digits of bytes are read back.** -/
theorem decode?_encode (bytes : List UInt8) : decode? (encode bytes) = some bytes := by
  induction bytes with
  | nil => rfl
  | cons b bytes ih =>
    have hbyte : UInt8.ofNat (16 * (b.toNat / 16) + b.toNat % 16) = b := by
      rw [Nat.div_add_mod, UInt8.ofNat_toNat]
    have hencode : encode (b :: bytes) =
        digit (b.toNat / 16) :: digit (b.toNat % 16) :: encode bytes := rfl
    rw [hencode, decode?, value?_digit (high_lt b), value?_digit (low_lt b), ih]
    exact congrArg (fun c => some (c :: bytes)) hbyte

theorem quote_not_mem_encode (bytes : List UInt8) : '\'' ∉ encode bytes := by
  intro hmem
  obtain ⟨b, -, hdigit⟩ := List.mem_flatMap.mp hmem
  have hpair : '\'' = digit (b.toNat / 16) ∨ '\'' = digit (b.toNat % 16) := by
    simpa [byteDigits] using hdigit
  rcases hpair with hhigh | hlow
  · exact digit_ne_quote (high_lt b) hhigh.symm
  · exact digit_ne_quote (low_lt b) hlow.symm

end Hex

end Text

/-! ### Names and literals -/

/-- The name at the front of a text, by the rule of the dialect, and what follows it. -/
def Dialect.readName (d : Dialect) (cs : List Char) : Option (String × List Char) :=
  (Text.Quoted.read d.openQuote d.closeQuote cs).map fun r => (String.ofList r.1, r.2)

namespace Value

/-- The text literal at the front of a text, and what follows it. -/
def readText (cs : List Char) : Option (String × List Char) :=
  (Text.Quoted.read '\'' '\'' cs).map fun r => (String.ofList r.1, r.2)

/-- The byte literal at the front of a text, and what follows it. -/
def readBytes : List Char → Option (List UInt8 × List Char)
  | 'X' :: cs => do
    let (digits, rest) ← Text.Quoted.read '\'' '\'' cs
    let bytes ← Text.Hex.decode? digits
    return (bytes, rest)
  | _ => none

end Value

/-- Reading is the inverse of writing, for the names of a dialect and for the literals that it
writes. -/
structure Dialect.QuotesExactly (d : Dialect) : Prop where
  /-- A name is read exactly where it is written, with everything up to its closing quote. -/
  name : ∀ cs name rest, d.readName cs = some (name, rest) ↔
    cs = (d.quote name).toList ++ rest ∧ rest.head? ≠ some d.closeQuote
  /-- Different names are written differently. -/
  injective : Function.Injective d.quote
  /-- So it is with texts and their literals. -/
  text : ∀ cs s rest, Value.readText cs = some (s, rest) ↔
    cs = (Value.text s).literal.toList ++ rest ∧ rest.head? ≠ some '\''
  /-- A timestamp is read as its text. -/
  timestamp : ∀ t rest, rest.head? ≠ some '\'' →
    Value.readText ((Value.timestamp t).literal.toList ++ rest) = some (t.text, rest)
  /-- A text that is a default is written as the value is, for every database and for this one. -/
  default : ∀ s rest, rest.head? ≠ some '\'' →
    Value.readText ((Default.text s).literal.toList ++ rest) = some (s, rest) ∧
      Value.readText ((d.defaultLiteral (.text s)).toList ++ rest) = some (s, rest)
  /-- Bytes are read back from their digits. -/
  blob : ∀ bytes rest, rest.head? ≠ some '\'' →
    Value.readBytes ((Value.blob bytes).literal.toList ++ rest) = some (bytes, rest)

/-- What is read between two quotes is what is written between them. -/
theorem map_read_eq_some_iff {opening close : Char} {cs rest : List Char} {s : String} :
    (Text.Quoted.read opening close cs).map (fun r => (String.ofList r.1, r.2)) = some (s, rest) ↔
      cs = (Text.Quoted.enclose opening close s).toList ++ rest ∧ rest.head? ≠ some close := by
  rw [Text.Quoted.toList_enclose, ← Text.Quoted.read_eq_some_iff, Option.map_eq_some_iff]
  constructor
  · rintro ⟨⟨t, rest'⟩, hread, hpair⟩
    obtain ⟨rfl, rfl⟩ : String.ofList t = s ∧ rest' = rest := by simpa using hpair
    rwa [String.toList_ofList]
  · intro hread
    exact ⟨_, hread, by rw [String.ofList_toList]⟩

theorem Value.readText_textLiteral (s : String) {rest : List Char} (h : rest.head? ≠ some '\'') :
    readText ((textLiteral s).toList ++ rest) = some (s, rest) :=
  map_read_eq_some_iff.mpr ⟨rfl, h⟩

theorem Value.readBytes_blobLiteral (bytes : List UInt8) {rest : List Char}
    (h : rest.head? ≠ some '\'') :
    readBytes ((blobLiteral bytes).toList ++ rest) = some (bytes, rest) := by
  have hquoted : Text.Quoted.encloseChars '\'' '\'' (Text.Hex.encode bytes) =
      '\'' :: Text.Hex.encode bytes ++ ['\''] := by
    rw [Text.Quoted.encloseChars,
      Text.Quoted.encode_of_not_mem (Text.Hex.quote_not_mem_encode bytes)]
  have hread : Text.Quoted.read '\'' '\''
      (Text.Quoted.encloseChars '\'' '\'' (Text.Hex.encode bytes) ++ rest) =
        some (Text.Hex.encode bytes, rest) := Text.Quoted.read_enclose _ rest h
  rw [hquoted] at hread
  have hliteral : (blobLiteral bytes).toList ++ rest =
      'X' :: ('\'' :: Text.Hex.encode bytes ++ ['\''] ++ rest) := by
    simp [blobLiteral]
  rw [hliteral, readBytes, hread]
  simp [Text.Hex.decode?_encode]

/-- **Names, texts and bytes are read back from what is written for them**, and what is read was
written for them. -/
theorem Dialect.quotesExactly_of_shipped {d : Dialect} (hd : d ∈ Dialect.shipped) :
    d.QuotesExactly := by
  have hdefault : ∀ s, d.defaultLiteral (.text s) = textLiteral s := by
    rcases mem_shipped.mp hd with rfl | rfl | rfl <;> exact fun s => rfl
  exact {
    name := fun cs name rest => map_read_eq_some_iff
    injective := Text.Quoted.enclose_injective _ _
    text := fun cs s rest => map_read_eq_some_iff
    timestamp := fun t rest h => Value.readText_textLiteral t.text h
    default := fun s rest h => by
      rw [hdefault]
      exact ⟨Value.readText_textLiteral s h, Value.readText_textLiteral s h⟩
    blob := fun bytes rest h => Value.readBytes_blobLiteral bytes h }

/-- A name that ends in closing brackets, in front of SQL, and what looks like an injection in a
literal. -/
theorem Dialect.quotesExactly_of_shipped_brackets :
    Dialect.sqlServer ∈ Dialect.shipped ∧
      Dialect.sqlServer.readName "[]]a[]]]]] = '] --'".toList = some ("]a[]]", " = '] --'".toList) ∧
      Value.readText "'''; DROP TABLE t; --' , x".toList =
        some ("'; DROP TABLE t; --", " , x".toList) ∧
      Value.readBytes "X'00FF' ".toList = some ([0, 255], [' ']) := by
  have hd : Dialect.sqlServer ∈ Dialect.shipped := by simp [Dialect.shipped]
  have hexact := Dialect.quotesExactly_of_shipped hd
  refine ⟨hd, ?_, ?_, ?_⟩
  · exact (hexact.name _ _ _).mpr ⟨by decide +kernel, by decide⟩
  · exact (hexact.text _ _ _).mpr ⟨by decide +kernel, by decide⟩
  · exact hexact.blob [0, 255] [' '] (by decide)

end EntitySql
