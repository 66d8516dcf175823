import EntitySql.Proofs.Model.Building
import EntitySql.Proofs.Reading.Splitting
import EntitySql.Sql.Change

/-!
# The definition of a column

The definition of a column is read by a reader of its own, which knows of each dialect how it quotes
names. Behind the name stands a type of one or several words, and behind the type stand properties,
in any order; the first word that begins a property ends the type.

The three dialects write the properties of a column in different orders and some of them in a
different way: a numbered key has a type of its own, or a keyword behind it, or a property in front
of it, and a column that may be empty is marked as such or not. What they write is a name, a type
and a list of properties nonetheless.

## Main definitions

* `Dialect.readTable?`: reads the statement that creates a table
* `Column.properties`, `Column.writtenType`: what a dialect writes for a column

## Main results

* `readProperties?_words`: properties are read back
* `isWord_literal`: a literal is a word
* `exists_isType`: a native type consists of words that begin no property
* `Column.toList_columnDefinition_of_shipped`: what the definition of a column consists of
-/

namespace EntitySql

open Token

/-! ### The reader -/

/-- A property that the definition of a column states behind the type. -/
inductive ColumnProperty where
  | required
  | nullable
  | key
  | numbered
  | unique
  | default (literal : String)
deriving DecidableEq, Repr

/-- The definition of a column as it is read. -/
structure ColumnText where
  name : String
  type : String
  properties : List ColumnProperty

/-- An item of the statement that creates a table. -/
inductive TableItem where
  | column (c : ColumnText)
  | unique (name : String) (columns : List String)

/-- What stands between the parentheses of a word. -/
def inner? (w : String) : Option (List Char) :=
  match w.toList with
  | '(' :: cs => if cs.getLast? = some ')' then some cs.dropLast else none
  | _ => none

/-- The words with which properties begin. -/
def propertyWords : List String :=
  ["NOT", "NULL", "PRIMARY", "AUTOINCREMENT", "IDENTITY(1,1)", "UNIQUE", "DEFAULT"]

/-- Reads properties. -/
def readProperties? : List String → Option (List ColumnProperty)
  | [] => some []
  | "NOT" :: "NULL" :: rest => (readProperties? rest).map (.required :: ·)
  | "NULL" :: rest => (readProperties? rest).map (.nullable :: ·)
  | "PRIMARY" :: "KEY" :: rest => (readProperties? rest).map (.key :: ·)
  | "AUTOINCREMENT" :: rest => (readProperties? rest).map (.numbered :: ·)
  | "IDENTITY(1,1)" :: rest => (readProperties? rest).map (.numbered :: ·)
  | "UNIQUE" :: rest => (readProperties? rest).map (.unique :: ·)
  | "DEFAULT" :: literal :: rest => (readProperties? rest).map (.default literal :: ·)
  | _ => none

namespace Dialect

/-- Reads a name between the quotes of the dialect. -/
def readName? (d : Dialect) (w : String) : Option String :=
  match Text.Quoted.read d.openQuote d.closeQuote w.toList with
  | some (cs, []) => some (String.ofList cs)
  | _ => none

/-- Reads names between parentheses. -/
def readNames? (d : Dialect) (w : String) : Option (List String) := do
  let cs ← inner? w
  (d.items cs).mapM fun item =>
    match d.words item with
    | [name] => d.readName? name
    | _ => none

/-- Reads the definition of a column. -/
def readColumn? (d : Dialect) : List String → Option ColumnText
  | [] => none
  | w :: ws => do
    let name ← d.readName? w
    let properties ← readProperties? (ws.dropWhile fun w => !propertyWords.contains w)
    return ⟨name, " ".intercalate (ws.takeWhile fun w => !propertyWords.contains w), properties⟩

/-- Reads an item. -/
def readItem? (d : Dialect) : List String → Option TableItem
  | ["CONSTRAINT", name, "UNIQUE", columns] => do
    let name ← d.readName? name
    let columns ← d.readNames? columns
    return .unique name columns
  | ws => (d.readColumn? ws).map .column

/-- Reads items with commas between them, of which there may be none. -/
def readItems? (d : Dialect) (cs : List Char) : Option (List TableItem) :=
  if (d.words cs).isEmpty then some []
  else (d.items cs).mapM fun item => d.readItem? (d.words item)

/-- Reads the statement that creates a table: its name and its items. -/
def readTable? (d : Dialect) (sql : String) : Option (String × List TableItem) :=
  match d.words sql.toList with
  | ["CREATE", "TABLE", name, body] => do
    let name ← d.readName? name
    let cs ← inner? body
    let items ← d.readItems? cs
    return (name, items)
  | _ => none

end Dialect

/-! ### What is written -/

namespace ColumnProperty

/-- The words that state a property. -/
def words (d : Dialect) : ColumnProperty → List String
  | required => ["NOT", "NULL"]
  | nullable => ["NULL"]
  | key => ["PRIMARY", "KEY"]
  | numbered => [if d.keyStyle = .identity then "IDENTITY(1,1)" else "AUTOINCREMENT"]
  | unique => ["UNIQUE"]
  | default literal => ["DEFAULT", literal]

end ColumnProperty

theorem readProperties?_append (d : Dialect) (p : ColumnProperty) (ws : List String) :
    readProperties? (p.words d ++ ws) = (readProperties? ws).map (p :: ·) := by
  cases p with
  | numbered =>
    rw [ColumnProperty.words]
    split <;> simp [readProperties?]
  | _ => simp [ColumnProperty.words, readProperties?]

/-- **Properties are read back.** -/
theorem readProperties?_words (d : Dialect) (ps : List ColumnProperty) :
    readProperties? (ps.flatMap (·.words d)) = some ps := by
  induction ps with
  | nil => rfl
  | cons p ps ih => rw [List.flatMap_cons, readProperties?_append, ih, Option.map_some]

/-- What begins with a property begins with one of its words. -/
theorem head?_words (d : Dialect) (ps : List ColumnProperty) :
    ∀ w ∈ (ps.flatMap (·.words d)).head?, w ∈ propertyWords := by
  cases ps with
  | nil => simp
  | cons p ps =>
    intro w hw
    have hfirst : (p.words d).head? = some w := by
      cases p <;> exact hw
    cases p with
    | numbered =>
      obtain rfl := Option.some.inj hfirst
      split <;> decide
    | _ =>
      obtain rfl := Option.some.inj hfirst
      simp [propertyWords]

section Written

variable {d : Dialect}

/-! ### Words that are written -/

theorem hasPlain_of_isDigit (hd : d.HasPlainQuotes) {c : Char} (hc : c.isDigit = true) :
    d.isPlain c = true ∧ endsWord c = false := by
  have hne : ∀ b : Char, b.isDigit = false → c ≠ b := by
    rintro b hb rfl
    rw [hc] at hb
    cases hb
  have hblank : Text.isBlank c = false := by
    have hrange : 48 ≤ c.toNat ∧ c.toNat ≤ 57 := by
      simp only [Char.isDigit, ge_iff_le, Bool.and_eq_true, decide_eq_true_eq,
        UInt32.le_iff_toNat_le] at hc
      exact hc
    simp only [Text.isBlank, Bool.or_eq_false_iff, Bool.and_eq_false_iff, decide_eq_false_iff_not,
      beq_eq_false_iff_ne]
    omega
  refine ⟨?_, by simp [endsWord, hblank, hne ',' rfl]⟩
  rcases hd with ⟨h, h'⟩ | ⟨h, h'⟩ <;>
    simp [Dialect.isPlain, h, h', hne '"' rfl, hne '[' rfl, hne ']' rfl, hne '\'' rfl,
      hne '(' rfl, hne ')' rfl]

/-- A word of characters that are no quotes, parentheses, blanks or commas. -/
theorem IsWord.of_all {cs : List Char} (hne : cs ≠ [])
    (h : ∀ c ∈ cs, d.isPlain c = true ∧ endsWord c = false) : IsWord d cs :=
  ⟨hne, .of_isPlain (List.all_eq_true.mpr fun c hc => by simp [h c hc])⟩

/-- A text that is given by its characters is a word if going through them ends outside, which can
be tested. -/
theorem IsWord.ofList {cs : List Char} (hne : cs ≠ [])
    (h : Nesting.through d endsWord (.outside 0) cs = some (.outside 0)) :
    IsWord d (String.ofList cs).toList := by
  rw [String.toList_ofList]
  exact ⟨hne, _, h, .inl rfl⟩

theorem isWord_quote (hd : d.HasPlainQuotes) (name : String) : IsWord d (d.quote name).toList := by
  refine ⟨by simp [Dialect.quote, Text.Quoted.enclose, Text.Quoted.encloseChars], ?_⟩
  refine solid_enclose (.inl ⟨rfl, rfl⟩) hd ?_ name
  rcases hd with ⟨h, h'⟩ | ⟨h, h'⟩ <;> rw [h, h'] <;> rfl

/-- Characters that are plain in every dialect, which can be tested. -/
theorem isPlain_of_all (hd : d.HasPlainQuotes) {cs : List Char}
    (h : cs.all (fun c => !("\"[]'()".toList.contains c || endsWord c)) = true) :
    ∀ c ∈ cs, d.isPlain c = true ∧ endsWord c = false := by
  intro c hc
  have hplain := List.all_eq_true.mp h c hc
  rcases hd with ⟨h, h'⟩ | ⟨h, h'⟩ <;> simp_all [Dialect.isPlain]

theorem isPlain_of_isNumeral (hd : d.HasPlainQuotes) {cs : List Char} (h : IsNumeral cs) :
    ∀ c ∈ cs, d.isPlain c = true ∧ endsWord c = false := by
  have hother : ∀ c ∈ ['.', 'e', '-'], d.isPlain c = true ∧ endsWord c = false :=
    isPlain_of_all hd rfl
  obtain ⟨whole, fraction, power, -, hwhole, hfraction, hpower⟩ := h
  have hdigits : ∀ {ds : List Char}, (∀ c ∈ ds, c.isDigit = true) →
      ∀ c ∈ ds, d.isPlain c = true ∧ endsWord c = false :=
    fun hds c hc => hasPlain_of_isDigit hd (hds c hc)
  have hfractions : ∀ c ∈ fraction, d.isPlain c = true ∧ endsWord c = false := by
    rcases hfraction with rfl | ⟨ds, rfl, hds⟩
    · simp
    · exact List.forall_mem_cons.mpr ⟨hother '.' (by simp), hdigits hds⟩
  have hpowers : ∀ c ∈ power, d.isPlain c = true ∧ endsWord c = false := by
    rcases hpower with rfl | ⟨sign, ds, rfl, rfl | rfl, -, hds⟩
    · simp
    · exact List.forall_mem_cons.mpr ⟨hother 'e' (by simp), hdigits hds⟩
    · refine List.forall_mem_cons.mpr ⟨hother 'e' (by simp), ?_⟩
      exact List.forall_mem_cons.mpr ⟨hother '-' (by simp), hdigits hds⟩
  intro c hc
  rcases List.mem_append.mp hc with hc | hc
  · exact hdigits hwhole c hc
  rcases List.mem_append.mp hc with hc | hc
  · exact hfractions c hc
  · exact hpowers c hc

/-- **A literal is a word**, whatever characters a text has. -/
theorem isWord_literal (hd : d.HasPlainQuotes) {ts : List Token} {cs : List Char}
    (h : IsLiteral ts cs) : IsWord d cs := by
  have hsign := isPlain_of_all hd (rfl : ['-'].all _ = true) '-' (.head _)
  have hnumeral : ∀ {cs : List Char}, IsNumeral cs → cs ≠ [] := by
    rintro cs h rfl
    obtain ⟨c, tail, hcons, -⟩ := h.exists_cons
    cases hcons
  cases h with
  | null => exact .of_all (by simp) (isPlain_of_all hd rfl)
  | numeral h => exact .of_all (hnumeral h) (isPlain_of_isNumeral hd h)
  | negative h =>
    exact .of_all (by simp) (List.forall_mem_cons.mpr ⟨hsign, isPlain_of_isNumeral hd h⟩)
  | infinite => exact .of_all (by simp) (isPlain_of_all hd rfl)
  | negativeInfinite =>
    exact .of_all (by simp) (isPlain_of_all hd rfl)
  | notNumber => exact .of_all (by simp) (isPlain_of_all hd rfl)
  | text s =>
    refine ⟨by simp [textLiteral, Text.Quoted.enclose, Text.Quoted.encloseChars], ?_⟩
    exact solid_enclose (.inr ⟨rfl, rfl⟩) hd rfl s
  | emptyBlob =>
    have hx : d.isPlain 'X' = true := (isPlain_of_all hd (rfl : ['X'].all _ = true) 'X' (.head _)).1
    have hempty : Solid d endsWord (Text.Quoted.enclose '\'' '\'' "").toList :=
      solid_enclose (.inr ⟨rfl, rfl⟩) hd rfl ""
    exact ⟨by simp [blobLiteral], Solid.nil.append_cons hx (by decide) hempty⟩

/-! ### Types -/

/-- The words of a type, none of which begins a property. -/
structure IsType (d : Dialect) (type : String) (ws : List String) : Prop where
  text : " ".intercalate ws = type
  ne_nil : ws ≠ []
  words : ∀ w ∈ ws, IsWord d w.toList ∧ w ∉ propertyWords

namespace IsType

theorem word {w : String} (hw : IsWord d w.toList) (hother : w ∉ propertyWords) :
    IsType d w [w] :=
  ⟨String.intercalate_singleton, by simp, by simpa using ⟨hw, hother⟩⟩

theorem ofList {cs : List Char} (hne : cs ≠ [])
    (h : Nesting.through d endsWord (.outside 0) cs = some (.outside 0))
    (hother : String.ofList cs ∉ propertyWords) :
    IsType d (String.ofList cs) [String.ofList cs] :=
  word (.ofList hne h) hother

theorem cons {w type : String} {ws : List String} (hw : IsWord d w.toList)
    (hother : w ∉ propertyWords) (h : IsType d type ws) :
    IsType d (w ++ " " ++ type) (w :: ws) := by
  obtain ⟨v, vs, rfl⟩ := List.exists_cons_of_ne_nil h.ne_nil
  refine ⟨?_, by simp, List.forall_mem_cons.mpr ⟨⟨hw, hother⟩, h.words⟩⟩
  rw [String.intercalate_cons_cons, h.text]

/-- A type with its size between parentheses. -/
theorem sized (hd : d.HasPlainQuotes) {w : String}
    (hw : w.toList.all (fun c => d.isPlain c && !endsWord c) = true)
    (hother : ∀ v ∈ propertyWords, ¬(w ++ "(").toList <+: v.toList) (n : Nat) :
    IsType d (w ++ "(" ++ toString n ++ ")") [w ++ "(" ++ toString n ++ ")"] := by
  have hdigits : ∀ c ∈ (toString n).toList, d.isPlain c = true ∧ endsWord c = false := by
    intro c hc
    have hmem : c ∈ Nat.toDigits 10 n := by simpa using hc
    exact hasPlain_of_isDigit hd (isDigit_toDigits n c hmem)
  have hinner : Solid d (fun _ => false) (toString n).toList :=
    .of_isPlain (List.all_eq_true.mpr fun c hc => by simp [hdigits c hc])
  have hparts := (Solid.of_isPlain hw).parenthesized hd hinner (by decide)
  refine word ⟨by simp, by simpa using hparts⟩ fun hmem => hother _ hmem ?_
  simp only [String.toList_append]
  exact ⟨(toString n).toList ++ ")".toList, by simp⟩

/-- The characters of the words with a blank in front of each. -/
theorem spacedWords_eq {type : String} {ws : List String} (h : IsType d type ws) :
    spacedWords ws = ' ' :: type.toList := by
  have hall : ∀ (w : String) (ws : List String),
      spacedWords (w :: ws) = ' ' :: (" ".intercalate (w :: ws)).toList := by
    intro w ws
    induction ws generalizing w with
    | nil => simp [spacedWords]
    | cons v ws ih =>
      rw [String.intercalate_cons_cons, String.toList_append, String.toList_append, spacedWords,
        List.flatMap_cons, ← spacedWords, ih]
      simp
  obtain ⟨w, ws, rfl⟩ := List.exists_cons_of_ne_nil h.ne_nil
  rw [hall, h.text]

end IsType

/-- **Native types are types.** -/
theorem exists_isType (hd : d ∈ Dialect.shipped) (type : ColumnType) (size : Option UInt32) :
    ∃ ws, IsType d (d.nativeType type size) ws := by
  have hquotes := Dialect.hasPlainQuotes_of_shipped hd
  rcases Dialect.mem_shipped.mp hd with rfl | rfl | rfl
  · have hnative : Dialect.sqlite.nativeType type size = Sqlite.nativeType type := rfl
    rw [hnative]
    rcases nativeType_cases type with h | h | h | h <;> rw [h] <;>
      exact ⟨_, .ofList (by simp) rfl (by decide)⟩
  · have htext : ∃ ws, IsType .postgres (Postgres.nativeType .text size) ws := by
      cases size with
      | none => exact ⟨_, .ofList (by simp) rfl (by decide)⟩
      | some n => exact ⟨_, .sized (w := "VARCHAR") hquotes rfl (by decide) n.toNat⟩
    cases type with
    | text | custom _ => exact htext
    | float64 =>
      have hdouble : IsWord .postgres "DOUBLE".toList := .ofList (by simp) rfl
      have hprecision : IsType .postgres "PRECISION" _ := .ofList (by simp) rfl (by decide)
      exact ⟨_, hprecision.cons hdouble (by decide)⟩
    | _ => exact ⟨_, .ofList (by simp) rfl (by decide)⟩
  · have htext : ∃ ws, IsType .sqlServer (SqlServer.nativeType .text size) ws := by
      cases size with
      | none => exact ⟨_, .ofList (by simp) rfl (by decide)⟩
      | some n => exact ⟨_, .sized (w := "NVARCHAR") hquotes rfl (by decide) n.toNat⟩
    cases type with
    | text | custom _ => exact htext
    | _ => exact ⟨_, .ofList (by simp) rfl (by decide)⟩

theorem exists_isType_serialType (type : ColumnType) :
    ∃ ws, IsType .postgres (Postgres.serialType type) ws := by
  have hsmall : IsType .postgres "SMALLSERIAL" _ := .ofList (by simp) rfl (by decide)
  have hinteger : IsType .postgres "SERIAL" _ := .ofList (by simp) rfl (by decide)
  have hbig : IsType .postgres "BIGSERIAL" _ := .ofList (by simp) rfl (by decide)
  cases type with
  | int8 | int16 | uint8 => exact ⟨_, hsmall⟩
  | int64 | uint32 | uint64 => exact ⟨_, hbig⟩
  | _ => exact ⟨_, hinteger⟩

/-- A type of its own is the same type as the native one, and a native type is none of these. -/
theorem sameType_serialType {type : ColumnType} (h : type.isInteger = true) (size : Option UInt32) :
    Dialect.postgres.sameType (Postgres.serialType type) (Postgres.nativeType type size) =
      true := by
  have hsmall : Dialect.postgres.sameType "SMALLSERIAL" "SMALLINT" = true := by rfl
  have hinteger : Dialect.postgres.sameType "SERIAL" "INTEGER" = true := by rfl
  have hbig : Dialect.postgres.sameType "BIGSERIAL" "BIGINT" = true := by rfl
  cases type with
  | int8 | int16 | uint8 => exact hsmall
  | int32 | uint16 => exact hinteger
  | int64 | uint32 | uint64 => exact hbig
  | _ => cases h

theorem nativeType_notMem (type : ColumnType) (size : Option UInt32) :
    Postgres.nativeType type size ∉ ["SERIAL", "BIGSERIAL", "SMALLSERIAL"] := by
  have htext : Postgres.nativeType .text size ∉ ["SERIAL", "BIGSERIAL", "SMALLSERIAL"] := by
    cases size with
    | none => decide
    | some n =>
      intro hmem
      have hfirst : ∀ v ∈ ["SERIAL", "BIGSERIAL", "SMALLSERIAL"], v.toList.head? ≠ some 'V' := by
        decide
      exact hfirst _ hmem (by simp [Postgres.nativeType, toString])
  cases type with
  | text | custom _ => exact htext
  | _ => simp [Postgres.nativeType]

/-! ### Columns -/

end Written

namespace Column

/-- The default as a property. -/
def defaultProperty (d : Dialect) (c : Column) : List ColumnProperty :=
  match c.default with
  | some declared => [.default (d.defaultLiteral declared)]
  | none => []

/-- The other properties, where numbering is stated behind the key. -/
def flags (c : Column) : List ColumnProperty :=
  if c.primaryKey then .key :: if c.autoincrement then [.numbered] else []
  else (if c.notNull then [.required] else []) ++ if c.unique then [.unique] else []

/-- The properties in the order in which the dialect writes them. -/
def properties (d : Dialect) (c : Column) : List ColumnProperty :=
  match d.keyStyle with
  | .keyword => c.flags ++ c.defaultProperty d
  | .serialType =>
    if c.primaryKey && c.autoincrement then [.key] else c.flags ++ c.defaultProperty d
  | .identity =>
    (if c.requiresValue then [.required] else [.nullable]) ++
      ((if c.autoincrement then [.numbered] else []) ++
        ((if c.primaryKey then [.key] else if c.unique then [.unique] else []) ++
          c.defaultProperty d))

/-- The type that the dialect writes. -/
def writtenType (d : Dialect) (c : Column) : String :=
  if d.keyStyle == .serialType && c.primaryKey && c.autoincrement then d.serialType c.type
  else d.nativeType c.type c.size

theorem exists_isType_writtenType {d : Dialect} (hd : d ∈ Dialect.shipped) (c : Column) :
    ∃ ws, IsType d (c.writtenType d) ws := by
  have hnative := exists_isType hd c.type c.size
  rcases Dialect.mem_shipped.mp hd with rfl | rfl | rfl
  · exact hnative
  · rw [writtenType]
    split
    · exact exists_isType_serialType c.type
    · exact hnative
  · exact hnative

/-- The column as it is read. -/
def reread (d : Dialect) (c : Column) : ColumnText := ⟨c.name, c.writtenType d, c.properties d⟩

variable {d : Dialect} {c : Column}

/-- The characters that state properties. -/
def propertyChars (d : Dialect) (ps : List ColumnProperty) : List Char :=
  spacedWords (ps.flatMap (·.words d))

theorem propertyChars_append (d : Dialect) (ps qs : List ColumnProperty) :
    propertyChars d (ps ++ qs) = propertyChars d ps ++ propertyChars d qs := by
  simp [propertyChars, spacedWords]

theorem toList_defaultClause (d : Dialect) (c : Column) :
    (d.defaultClause c).toList = propertyChars d (c.defaultProperty d) := by
  rw [Dialect.defaultClause, defaultProperty]
  cases c.default with
  | none => rfl
  | some declared => simp [propertyChars, ColumnProperty.words, spacedWords]

theorem toList_flags (d : Dialect) (keyword : String) (c : Column)
    (h : c.primaryKey = true → c.autoincrement = true →
      keyword.toList = propertyChars d [.numbered]) :
    (if c.primaryKey then " PRIMARY KEY" ++ Dialect.clauseIf c.autoincrement keyword
      else Dialect.clauseIf c.notNull " NOT NULL" ++ Dialect.clauseIf c.unique " UNIQUE").toList =
        propertyChars d c.flags := by
  rw [flags]
  cases hkey : c.primaryKey with
  | true =>
    cases hnumbered : c.autoincrement with
    | true =>
      have hkeyword := h hkey hnumbered
      simpa [Dialect.clauseIf, propertyChars, spacedWords, ColumnProperty.words] using hkeyword
    | false => simp [Dialect.clauseIf, propertyChars, spacedWords, ColumnProperty.words]
  | false =>
    cases c.notNull <;> cases c.unique <;>
      simp [Dialect.clauseIf, propertyChars, spacedWords, ColumnProperty.words]

theorem toList_columnDefinition_sqlite (c : Column) :
    (Dialect.sqlite.columnDefinition c).toList = (Dialect.sqlite.quote c.name).toList ++
      (' ' :: (c.writtenType .sqlite).toList ++ propertyChars .sqlite (c.properties .sqlite)) := by
  have hflags := toList_flags .sqlite " AUTOINCREMENT" c fun _ _ => rfl
  have hproperties : c.properties .sqlite = c.flags ++ c.defaultProperty .sqlite := rfl
  have htype : c.writtenType .sqlite = Dialect.sqlite.nativeType c.type c.size := rfl
  have hdefinition : Dialect.sqlite.columnDefinition c = Dialect.sqlite.quote c.name ++ " " ++
      Dialect.sqlite.nativeType c.type c.size ++ _ ++ Dialect.sqlite.defaultClause c := rfl
  rw [hproperties, propertyChars_append, ← hflags, ← toList_defaultClause, htype, hdefinition]
  simp only [String.toList_append, List.append_assoc, List.cons_append]
  rfl

theorem toList_columnDefinition_postgres (c : Column) :
    (Dialect.postgres.columnDefinition c).toList = (Dialect.postgres.quote c.name).toList ++
      (' ' :: (c.writtenType .postgres).toList ++
        propertyChars .postgres (c.properties .postgres)) := by
  have hproperties : c.properties .postgres = if c.primaryKey && c.autoincrement then [.key]
      else c.flags ++ c.defaultProperty .postgres := rfl
  have htype : c.writtenType .postgres = if c.primaryKey && c.autoincrement then
      Postgres.serialType c.type else Dialect.postgres.nativeType c.type c.size := rfl
  have hdefinition : Dialect.postgres.columnDefinition c = if c.primaryKey && c.autoincrement then
      Dialect.postgres.quote c.name ++ " " ++ Postgres.serialType c.type ++ " PRIMARY KEY"
    else Dialect.postgres.quote c.name ++ " " ++ Dialect.postgres.nativeType c.type c.size ++ _ ++
      Dialect.postgres.defaultClause c := rfl
  rw [hproperties, htype, hdefinition]
  cases hserial : c.primaryKey && c.autoincrement with
  | true => simp [propertyChars, spacedWords, ColumnProperty.words]
  | false =>
    have hflags := toList_flags .postgres "" c fun hkey hnumbered => by
      simp [hkey, hnumbered] at hserial
    rw [if_neg Bool.false_ne_true, if_neg Bool.false_ne_true, if_neg Bool.false_ne_true,
      propertyChars_append, ← hflags, ← toList_defaultClause]
    simp only [String.toList_append, List.append_assoc, List.cons_append]
    rfl

theorem toList_columnDefinition_sqlServer (c : Column) :
    (Dialect.sqlServer.columnDefinition c).toList = (Dialect.sqlServer.quote c.name).toList ++
      (' ' :: (c.writtenType .sqlServer).toList ++
        propertyChars .sqlServer (c.properties .sqlServer)) := by
  have hdefinition : Dialect.sqlServer.columnDefinition c = Dialect.sqlServer.quote c.name ++
      " " ++ Dialect.sqlServer.nativeType c.type c.size ++
      (if c.requiresValue then " NOT NULL" else " NULL") ++
      Dialect.clauseIf c.autoincrement " IDENTITY(1,1)" ++
      (if c.primaryKey then " PRIMARY KEY" else Dialect.clauseIf c.unique " UNIQUE") ++
      Dialect.sqlServer.defaultClause c := rfl
  have hproperties : c.properties .sqlServer =
      (if c.requiresValue then [.required] else [.nullable]) ++
        ((if c.autoincrement then [.numbered] else []) ++
          ((if c.primaryKey then [.key] else if c.unique then [.unique] else []) ++
            c.defaultProperty .sqlServer)) := rfl
  have htype : c.writtenType .sqlServer = Dialect.sqlServer.nativeType c.type c.size := rfl
  have hrequired : (if c.requiresValue then " NOT NULL" else " NULL").toList = propertyChars
      .sqlServer (if c.requiresValue then [.required] else [.nullable]) := by
    split <;> simp [propertyChars, spacedWords, ColumnProperty.words]
  have hnumbered : (Dialect.clauseIf c.autoincrement " IDENTITY(1,1)").toList = propertyChars
      .sqlServer (if c.autoincrement then [.numbered] else []) := by
    rw [Dialect.clauseIf]
    split <;> rfl
  have hkey : (if c.primaryKey then " PRIMARY KEY" else
      Dialect.clauseIf c.unique " UNIQUE").toList = propertyChars
        .sqlServer (if c.primaryKey then [.key] else if c.unique then [.unique] else []) := by
    rw [Dialect.clauseIf]
    split
    · simp [propertyChars, spacedWords, ColumnProperty.words]
    split <;> simp [propertyChars, spacedWords, ColumnProperty.words]
  rw [hproperties, propertyChars_append, propertyChars_append, propertyChars_append, ← hrequired,
    ← hnumbered, ← hkey, ← toList_defaultClause, htype, hdefinition]
  simp only [String.toList_append, List.append_assoc, List.cons_append]
  rfl

/-- **What the definition of a column consists of**: the name, the type and the properties. -/
theorem toList_columnDefinition_of_shipped (hd : d ∈ Dialect.shipped) (c : Column) :
    (d.columnDefinition c).toList = (d.quote c.name).toList ++
      (' ' :: (c.writtenType d).toList ++ propertyChars d (c.properties d)) := by
  rcases Dialect.mem_shipped.mp hd with rfl | rfl | rfl
  · exact c.toList_columnDefinition_sqlite
  · exact c.toList_columnDefinition_postgres
  · exact c.toList_columnDefinition_sqlServer

end Column

end EntitySql
