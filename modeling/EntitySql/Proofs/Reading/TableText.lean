import EntitySql.Proofs.Reading.Definition

/-!
# Created tables

The statement that creates a table is read back, and what is read is compared with the model. The
type that is read of a column need not be the native type of the column, but has to be the same type
for the dialect; whether the database numbers the column may be said by a property or by the type;
and that the column requires a value may be implied by its being the key.

## Main definitions

* `ColumnText.Declares`: what is read declares the column of a model
* `IsItem`: the characters of an item, with what is read from them

## Main results

* `Column.declares_reread`: the definition of a column declares the column
* `readTable?_of_items`: the statement is read as its items
* `Model.declares_createTable`: the statement declares the model
-/

namespace EntitySql

open Token

/-! ### Columns that are declared -/

namespace ColumnText

/-- Whether the database numbers the column: a property says so, or a type of its own. -/
def isNumbered (d : Dialect) (c : ColumnText) : Bool :=
  c.properties.contains .numbered ||
    d.keyStyle == .serialType && ["SERIAL", "BIGSERIAL", "SMALLSERIAL"].contains c.type

/-- What is read declares the column of a model, in a dialect. -/
structure Declares (d : Dialect) (read : ColumnText) (c : Column) : Prop where
  name : read.name = c.name
  /-- The type is the same as the native one. -/
  type : d.sameType read.type (d.nativeType c.type c.size) = true
  /-- No property is stated twice. -/
  once : read.properties.Nodup
  key : .key ∈ read.properties ↔ c.primaryKey = true
  numbered : read.isNumbered d = c.autoincrement
  /-- A value is required, which being the key implies. -/
  required : (.required ∈ read.properties ∨ .key ∈ read.properties) ↔ c.requiresValue = true
  nullable : .nullable ∈ read.properties → c.requiresValue = false
  unique : .unique ∈ read.properties ↔ c.unique = true ∧ c.primaryKey = false
  /-- The default is the declared one, in the text of the dialect. -/
  default : ∀ literal, .default literal ∈ read.properties ↔
    ∃ declared, c.default = some declared ∧ literal = d.defaultLiteral declared
  /-- A key has none. -/
  key_default : c.primaryKey = true → ∀ literal, .default literal ∉ read.properties

end ColumnText

namespace Column

variable {d : Dialect} {c : Column}

section Declares

variable {read : ColumnText} (hname : read.name = c.name)
  (hdefault : c.primaryKey = true → c.default = none)

include hname hdefault

/-- A column that is read with its flags and its default declares the column. -/
theorem declares_of_flags (htype : read.type = d.nativeType c.type c.size)
    (hproperties : read.properties = c.flags ++ c.defaultProperty d)
    (hnumbered : read.isNumbered d = c.autoincrement) : read.Declares d c := by
  have hsame : d.sameType read.type (d.nativeType c.type c.size) = true := by
    rw [htype]
    exact beq_self_eq_true _
  cases hkey : c.primaryKey with
  | true =>
    have hflags : read.properties = .key :: if c.autoincrement then [.numbered] else [] := by
      rw [hproperties, flags, defaultProperty, hdefault hkey, hkey, if_pos rfl, List.append_nil]
    refine ⟨hname, hsame, ?_, ?_, hnumbered, ?_, ?_, ?_, ?_, ?_⟩ <;>
      rw [hflags] <;> cases c.autoincrement <;> simp [hkey, requiresValue, hdefault hkey]
  | false =>
    have hflags : read.properties = ((if c.notNull then [.required] else []) ++
        if c.unique then [.unique] else []) ++ c.defaultProperty d := by
      rw [hproperties, flags, hkey, if_neg Bool.false_ne_true]
    refine ⟨hname, hsame, ?_, ?_, hnumbered, ?_, ?_, ?_, ?_, ?_⟩ <;>
      rw [hflags, defaultProperty] <;>
      cases hnull : c.notNull <;> cases hunique : c.unique <;> cases hdeclared : c.default <;>
        simp [hkey, requiresValue, hnull]

/-- The same where a mark for every column says whether it may be empty. -/
theorem declares_of_marked (htype : read.type = d.nativeType c.type c.size)
    (hproperties : read.properties = (if c.requiresValue then [.required] else [.nullable]) ++
      ((if c.autoincrement then [.numbered] else []) ++
        ((if c.primaryKey then [.key] else if c.unique then [.unique] else []) ++
          c.defaultProperty d)))
    (hnumbered : read.isNumbered d = c.autoincrement) : read.Declares d c := by
  have hsame : d.sameType read.type (d.nativeType c.type c.size) = true := by
    rw [htype]
    exact beq_self_eq_true _
  cases hkey : c.primaryKey with
  | true =>
    have hmarked : read.properties =
        .required :: ((if c.autoincrement then [.numbered] else []) ++ [.key]) := by
      rw [hproperties, requiresValue, defaultProperty, hdefault hkey, hkey, Bool.or_true,
        if_pos rfl]
      simp
    refine ⟨hname, hsame, ?_, ?_, hnumbered, ?_, ?_, ?_, ?_, ?_⟩ <;>
      rw [hmarked] <;> cases c.autoincrement <;> simp [hkey, requiresValue, hdefault hkey]
  | false =>
    refine ⟨hname, hsame, ?_, ?_, hnumbered, ?_, ?_, ?_, ?_, ?_⟩ <;>
      rw [hproperties, defaultProperty, requiresValue, hkey] <;> cases hnull : c.notNull <;>
        cases c.autoincrement <;> cases hunique : c.unique <;> cases hdeclared : c.default <;> simp

end Declares

theorem numbered_notMem_defaultProperty : .numbered ∉ c.defaultProperty d := by
  rw [defaultProperty]
  cases c.default <;> simp

theorem numbered_mem_flags (hkey : c.autoincrement = true → c.primaryKey = true) :
    .numbered ∈ c.flags ↔ c.autoincrement = true := by
  rw [flags]
  cases hprimary : c.primaryKey with
  | true => cases c.autoincrement <;> simp
  | false =>
    have hoff : c.autoincrement = false := by simpa [hprimary] using hkey
    cases c.notNull <;> cases c.unique <;> simp [hoff]

section Reread

variable (hkey : c.autoincrement = true → c.primaryKey = true)
  (hdefault : c.primaryKey = true → c.default = none)

include hkey hdefault

theorem declares_sqlite : (c.reread .sqlite).Declares .sqlite c := by
  have hproperties : (c.reread .sqlite).properties = c.flags ++ c.defaultProperty .sqlite := rfl
  have hnumbered : (c.reread .sqlite).isNumbered .sqlite =
      (c.reread .sqlite).properties.contains .numbered := Bool.or_false _
  refine declares_of_flags rfl hdefault rfl hproperties ?_
  rw [hnumbered, hproperties, Bool.eq_iff_iff, List.contains_iff_mem, List.mem_append,
    or_iff_left numbered_notMem_defaultProperty, numbered_mem_flags hkey]

theorem declares_postgres (htype : c.autoincrement = true → c.type.isInteger = true) :
    (c.reread .postgres).Declares .postgres c := by
  have hreread : c.reread .postgres = ⟨c.name,
      if c.primaryKey && c.autoincrement then Postgres.serialType c.type
        else Dialect.postgres.nativeType c.type c.size,
      if c.primaryKey && c.autoincrement then [.key]
        else c.flags ++ c.defaultProperty .postgres⟩ := rfl
  cases hserial : c.primaryKey && c.autoincrement with
  | true =>
    obtain ⟨hprimary, hauto⟩ := Bool.and_eq_true_iff.mp hserial
    have hread : c.reread .postgres = ⟨c.name, Postgres.serialType c.type, [.key]⟩ := by
      rw [hreread, hserial]
      rfl
    have hnumbered : (c.reread .postgres).isNumbered .postgres = c.autoincrement := by
      rw [hread, hauto]
      cases c.type <;> rfl
    rw [hread] at hnumbered ⊢
    refine ⟨rfl, sameType_serialType (htype hauto) c.size, ?_, ?_, hnumbered, ?_, ?_, ?_, ?_, ?_⟩
      <;> simp [hprimary, requiresValue, hdefault hprimary]
  | false =>
    have hoff : c.autoincrement = false := by
      cases hauto : c.autoincrement with
      | true => simp [hauto, hkey hauto] at hserial
      | false => rfl
    have hread : c.reread .postgres = ⟨c.name, Postgres.nativeType c.type c.size,
        c.flags ++ c.defaultProperty .postgres⟩ := by
      rw [hreread, hserial]
      rfl
    rw [hread]
    refine declares_of_flags rfl hdefault rfl rfl ?_
    have hplain : ["SERIAL", "BIGSERIAL", "SMALLSERIAL"].contains
        (Postgres.nativeType c.type c.size) = false :=
      Bool.eq_false_iff.mpr fun hmem =>
        nativeType_notMem c.type c.size (List.contains_iff_mem.mp hmem)
    rw [ColumnText.isNumbered, hplain, Bool.and_false, Bool.or_false, Bool.eq_iff_iff,
      List.contains_iff_mem, List.mem_append, or_iff_left numbered_notMem_defaultProperty,
      numbered_mem_flags hkey]

omit hkey in
theorem declares_sqlServer : (c.reread .sqlServer).Declares .sqlServer c := by
  have hproperties : (c.reread .sqlServer).properties =
      (if c.requiresValue then [.required] else [.nullable]) ++
        ((if c.autoincrement then [.numbered] else []) ++
          ((if c.primaryKey then [.key] else if c.unique then [.unique] else []) ++
            c.defaultProperty .sqlServer)) := rfl
  have hnumbered : (c.reread .sqlServer).isNumbered .sqlServer =
      (c.reread .sqlServer).properties.contains .numbered := Bool.or_false _
  refine declares_of_marked rfl hdefault rfl hproperties ?_
  rw [hnumbered, hproperties, Bool.eq_iff_iff, List.contains_iff_mem, List.mem_append,
    List.mem_append, List.mem_append, or_iff_left numbered_notMem_defaultProperty]
  cases c.requiresValue <;> cases c.autoincrement <;> cases c.primaryKey <;> cases c.unique <;>
    simp

end Reread

/-- **The column as it is read declares the column.** -/
theorem declares_reread (hd : d ∈ Dialect.shipped)
    (hkey : c.autoincrement = true → c.primaryKey = true)
    (hdefault : c.primaryKey = true → c.default = none)
    (htype : c.autoincrement = true → c.type.isInteger = true) : (c.reread d).Declares d c := by
  rcases Dialect.mem_shipped.mp hd with rfl | rfl | rfl
  · exact declares_sqlite hkey hdefault
  · exact declares_postgres hkey hdefault htype
  · exact declares_sqlServer hdefault

end Column

/-! ### Items -/

section Items

variable {d : Dialect}

theorem isWord_fixed (hd : d ∈ Dialect.shipped) :
    ∀ w ∈ "CREATE" :: "TABLE" :: "CONSTRAINT" :: "KEY" :: propertyWords, IsWord d w.toList := by
  simp only [propertyWords, List.forall_mem_cons]
  rcases Dialect.mem_shipped.mp hd with rfl | rfl | rfl <;>
    refine ⟨?_, ?_, ?_, ?_, ?_, ?_, ?_, ?_, ?_, ?_, ?_, by simp⟩ <;> exact .ofList (by simp) rfl

theorem isWord_defaultLiteral (hd : d ∈ Dialect.shipped) {declared : Default}
    (h : ∀ sql, declared ≠ .expression sql) : IsWord d (d.defaultLiteral declared).toList := by
  have hliteral : ∀ {declared : Default}, (∀ sql, declared ≠ .expression sql) →
      IsWord d declared.literal.toList := by
    intro declared h
    rcases declared.isLiteral_or with ⟨ts, hts⟩ | ⟨sql, rfl⟩
    · exact isWord_literal (Dialect.hasPlainQuotes_of_shipped hd) hts
    · exact absurd rfl (h sql)
  rcases Dialect.mem_shipped.mp hd with rfl | rfl | rfl
  · exact hliteral h
  · cases declared with
    | bool b => cases b <;> exact IsWord.ofList (by simp) rfl
    | null | int _ | float _ | text _ | expression _ => exact hliteral h
  · exact hliteral h

theorem isWord_words (hd : d ∈ Dialect.shipped) {p : ColumnProperty}
    (h : ∀ literal, p = .default literal → IsWord d literal.toList) :
    ∀ w ∈ p.words d, IsWord d w.toList := by
  have hfixed := isWord_fixed hd
  cases p with
  | default literal =>
    exact List.forall_mem_cons.mpr ⟨hfixed "DEFAULT" (by simp [propertyWords]),
      List.forall_mem_singleton.mpr (h literal rfl)⟩
  | numbered =>
    refine List.forall_mem_singleton.mpr (hfixed _ ?_)
    split <;> decide
  | _ =>
    intro w hw
    refine hfixed w ?_
    revert w
    simp [ColumnProperty.words, propertyWords]

theorem readName?_quote (d : Dialect) (name : String) : d.readName? (d.quote name) = some name := by
  have hread : Text.Quoted.read d.openQuote d.closeQuote
      (Text.Quoted.encloseChars d.openQuote d.closeQuote name.toList ++ []) =
        some (name.toList, []) := Text.Quoted.read_enclose name.toList [] (by simp)
  rw [List.append_nil] at hread
  rw [Dialect.readName?, Dialect.quote, Text.Quoted.enclose, String.toList_ofList, hread]
  exact congrArg some String.ofList_toList

/-- The characters of an item, which is read from its words. -/
def IsItem (d : Dialect) (cs : List Char) (item : TableItem) : Prop :=
  ∃ w ws, cs = w.toList ++ spacedWords ws ∧ (∀ v ∈ w :: ws, IsWord d v.toList) ∧
    d.readItem? (w :: ws) = some item

/-- What begins with a name is no constraint. -/
theorem readItem?_quote (hd : d.HasPlainQuotes) (name : String) (ws : List String) :
    d.readItem? (d.quote name :: ws) = (d.readColumn? (d.quote name :: ws)).map .column := by
  have hne : d.quote name ≠ "CONSTRAINT" := by
    intro heq
    have hfirst := congrArg (fun s => s.toList.head?) heq
    rcases hd with ⟨h, -⟩ | ⟨h, -⟩ <;>
      simp [Dialect.quote, Text.Quoted.enclose, Text.Quoted.encloseChars, h] at hfirst
  rw [Dialect.readItem?.eq_def]
  split
  · next heq => exact absurd (List.cons.inj heq).1 hne
  · rfl

/-- **The definition of a column is read as the column.** -/
theorem isItem_column (hd : d ∈ Dialect.shipped) {c : Column}
    (hdefault : ∀ sql, c.default ≠ some (.expression sql))
    (hread : (c.reread d).Declares d c) :
    IsItem d (d.columnDefinition c).toList (.column (c.reread d)) := by
  have hquotes := Dialect.hasPlainQuotes_of_shipped hd
  obtain ⟨tws, htype⟩ := c.exists_isType_writtenType hd
  obtain ⟨pws, hpws⟩ : ∃ pws, pws = (c.properties d).flatMap (·.words d) := ⟨_, rfl⟩
  refine ⟨d.quote c.name, tws ++ pws, ?_, ?_, ?_⟩
  · rw [c.toList_columnDefinition_of_shipped hd, ← htype.spacedWords_eq, hpws]
    simp [spacedWords, Column.propertyChars]
  · refine List.forall_mem_cons.mpr ⟨isWord_quote hquotes c.name, ?_⟩
    refine List.forall_mem_append.mpr ⟨fun w hw => (htype.words w hw).1, ?_⟩
    rw [hpws, List.forall_mem_flatMap]
    rintro p hp
    refine isWord_words hd ?_
    rintro literal rfl
    obtain ⟨declared, hdeclared, rfl⟩ := (hread.default literal).mp hp
    refine isWord_defaultLiteral hd ?_
    rintro sql rfl
    exact hdefault sql hdeclared
  · have hother : ∀ w ∈ tws, (!propertyWords.contains w) = true := by
      intro w hw
      simpa using (htype.words w hw).2
    have hstop : ∀ w ∈ pws.head?, ¬(!propertyWords.contains w) = true := by
      intro w hw
      have hmem := head?_words d (c.properties d) w (hpws ▸ hw)
      simpa using hmem
    have htake : (tws ++ pws).takeWhile (fun w => !propertyWords.contains w) = tws := by
      rw [List.takeWhile_append_of_pos hother]
      cases pws with
      | nil => exact List.append_nil tws
      | cons w pws =>
        rw [List.takeWhile_cons_of_neg (p := fun w => !propertyWords.contains w) (hstop w rfl),
          List.append_nil]
    have hdrop : (tws ++ pws).dropWhile (fun w => !propertyWords.contains w) = pws := by
      rw [List.dropWhile_append_of_pos hother]
      cases pws with
      | nil => rfl
      | cons w pws =>
        exact List.dropWhile_cons_of_neg (p := fun w => !propertyWords.contains w) (hstop w rfl)
    rw [readItem?_quote hquotes, Dialect.readColumn?, readName?_quote, htake, hdrop, hpws,
      readProperties?_words, htype.text]
    rfl

/-- Names between parentheses are read back. -/
theorem listed_quoteAll (d : Dialect) {names : List String} (hne : names ≠ []) :
    Listed (fun cs name => cs = (d.quote name).toList) (d.quoteAll names).toList names := by
  obtain ⟨name, names, rfl⟩ := List.exists_cons_of_ne_nil hne
  have hall : ∀ (gap : List Char) (_ : gap.all Text.isBlank = true) (name : String)
      (names : List String), Listed (fun cs name => cs = (d.quote name).toList)
        (gap ++ (d.quoteAll (name :: names)).toList) (name :: names) := by
    intro gap hgap name names
    induction names generalizing gap name with
    | nil =>
      have hone := Listed.last (R := fun cs name => cs = (d.quote name).toList) hgap
        (rfl : [].all Text.isBlank = true) (rfl : (d.quote name).toList = _)
      simpa [Dialect.quoteAll] using hone
    | cons next names ih =>
      have hnext := Listed.next (R := fun cs name => cs = (d.quote name).toList) hgap
        (rfl : (d.quote name).toList = _) (ih [' '] rfl next)
      simpa [Dialect.quoteAll, String.intercalate_cons_cons] using hnext
  exact hall [] rfl name names

theorem inner?_parenthesized {w : String} {cs : List Char} (h : w.toList = '(' :: (cs ++ [')'])) :
    inner? w = some cs := by
  rw [inner?, h]
  simp

theorem readNames?_quoteAll (hd : d ∈ Dialect.shipped) {names : List String} (hne : names ≠ []) :
    d.readNames? ("(" ++ d.quoteAll names ++ ")") = some names ∧
      IsWord d ("(" ++ d.quoteAll names ++ ")").toList := by
  have hquotes := Dialect.hasPlainQuotes_of_shipped hd
  have hlisted := listed_quoteAll d hne
  have hchars : ("(" ++ d.quoteAll names ++ ")").toList =
      '(' :: ((d.quoteAll names).toList ++ [')']) := by simp
  have hsolid : ∀ x name, x = (d.quote name).toList → Solid d (· == ',') x := by
    rintro x name rfl
    exact (isWord_quote hquotes name).solid.mono fun c hc => by simp [endsWord, hc]
  constructor
  · rw [Dialect.readNames?, inner?_parenthesized hchars, Option.bind_eq_bind, Option.bind_some]
    refine hlisted.mapM_items hquotes fun x name hx => ⟨hsolid x name hx, ?_⟩
    rintro gap gap' hgap hgap'
    have hwords : d.words ((d.quote name).toList ++ (spacedWords [] ++ gap')) = [d.quote name] :=
      words_spaced (isWord_quote hquotes name) (by simp) hgap'
    rw [words_append_of_isBlank hgap, hx, ← List.nil_append gap']
    exact hwords ▸ readName?_quote d name
  · rw [hchars]
    exact ⟨by simp, Solid.nil.parenthesized hquotes (hlisted.solid hquotes hsolid) (by decide)⟩

/-- **A constraint is read as its name and its columns.** -/
theorem isItem_unique (hd : d ∈ Dialect.shipped) (table : String) {u : Unique} {name : String}
    (hname : u.name = some name) (hne : u.columns ≠ []) :
    IsItem d (d.uniqueConstraint table u).toList (.unique name u.columns) := by
  have hquotes := Dialect.hasPlainQuotes_of_shipped hd
  have hfixed := isWord_fixed hd
  obtain ⟨hnames, hcolumns⟩ := readNames?_quoteAll hd hne
  refine ⟨"CONSTRAINT", [d.quote name, "UNIQUE", "(" ++ d.quoteAll u.columns ++ ")"], ?_, ?_, ?_⟩
  · simp [Dialect.uniqueConstraint, Unique.nameOn, hname, spacedWords, toString]
  · simp only [List.forall_mem_cons]
    exact ⟨hfixed _ (by simp), isWord_quote hquotes name, hfixed _ (by simp [propertyWords]),
      hcolumns, by simp⟩
  · rw [Dialect.readItem?, readName?_quote, hnames]
    rfl

/-! ### The statement -/

/-- The lines of the statement are its items. -/
theorem listed_lines {definitions : List String} {items : List TableItem}
    (h : List.Forall₂ (fun s item => IsItem d s.toList item) definitions items)
    (hne : definitions ≠ []) :
    Listed (IsItem d)
      ('\n' :: ((",\n".intercalate (definitions.map ("    " ++ ·))).toList ++ ['\n'])) items := by
  induction h with
  | nil => exact absurd rfl hne
  | @cons s item definitions items hs hrest ih =>
    have hgap : ('\n' :: "    ".toList).all Text.isBlank = true := rfl
    cases hrest with
    | nil =>
      have hlast := Listed.last hgap (rfl : ['\n'].all Text.isBlank = true) hs
      simpa using hlast
    | cons hnext hrest =>
      have hcons := Listed.next hgap hs (ih (by simp))
      simpa [String.intercalate_cons_cons] using hcons

/-- No comma splits an item. -/
theorem IsItem.solid (hd : d.HasPlainQuotes) {cs : List Char} {item : TableItem}
    (h : IsItem d cs item) : Solid d (· == ',') cs := by
  obtain ⟨w, ws, rfl, hwords, -⟩ := h
  obtain ⟨hw, hws⟩ := List.forall_mem_cons.mp hwords
  exact solid_spaced hd hw hws

/-- An item is read back, whatever blanks stand around it. -/
theorem IsItem.readItem? {cs : List Char} {item : TableItem} (h : IsItem d cs item)
    {gap gap' : List Char} (hgap : gap.all Text.isBlank = true)
    (hgap' : gap'.all Text.isBlank = true) :
    d.readItem? (d.words (gap ++ (cs ++ gap'))) = some item := by
  obtain ⟨w, ws, rfl, hwords, hread⟩ := h
  obtain ⟨hw, hws⟩ := List.forall_mem_cons.mp hwords
  rw [words_append_of_isBlank hgap, List.append_assoc, words_spaced hw hws hgap', hread]

/-- Where there is an item there is a word. -/
theorem words_ne_nil_of_listed {cs : List Char} {items : List TableItem}
    (h : Listed (IsItem d) cs items) : d.words cs ≠ [] := by
  have hitem : ∀ {x : List Char} {item : TableItem} (gap rest : List Char),
      gap.all Text.isBlank = true → IsItem d x item → d.words (gap ++ (x ++ rest)) ≠ [] := by
    rintro _ item gap rest hgap ⟨w, ws, rfl, hwords, -⟩
    rw [words_append_of_isBlank hgap, List.append_assoc]
    exact words_append_ne_nil (hwords w List.mem_cons_self) _
  cases h with
  | last hgap _ hx | next hgap hx _ => exact hitem _ _ hgap hx

/-- **The statement is read as its items.** -/
theorem readTable?_of_items (hd : d ∈ Dialect.shipped) (name : String) {definitions : List String}
    {items : List TableItem}
    (h : List.Forall₂ (fun s item => IsItem d s.toList item) definitions items) :
    d.readTable? (s!"CREATE TABLE {d.quote name} (\n" ++
      ",\n".intercalate (definitions.map ("    " ++ ·)) ++ "\n)") = some (name, items) := by
  have hquotes := Dialect.hasPlainQuotes_of_shipped hd
  obtain ⟨inner, hinner⟩ : ∃ inner, inner =
    '\n' :: ((",\n".intercalate (definitions.map ("    " ++ ·))).toList ++ ['\n']) := ⟨_, rfl⟩
  have hlisted : definitions ≠ [] → Listed (IsItem d) inner items := fun hne =>
    hinner ▸ listed_lines h hne
  have hsolid : Solid d (fun _ => false) inner := by
    rcases eq_or_ne definitions [] with rfl | hne
    · have hempty := Solid.around hquotes (x := []) (rfl : ['\n'].all Text.isBlank = true)
        (rfl : ['\n'].all Text.isBlank = true) .nil
      rw [hinner]
      exact hempty.mono fun c hc => by cases hc
    · exact (hlisted hne).solid hquotes fun x item hx =>
        hx.solid hquotes
  have hread : d.readItems? inner = some items := by
    rw [Dialect.readItems?]
    rcases eq_or_ne definitions [] with rfl | hne
    · obtain rfl := List.forall₂_nil_left_iff.mp h
      have hblank : d.words inner = [] := by
        rw [hinner]
        exact words_append_of_isBlank (rfl : ['\n', '\n'].all Text.isBlank = true) []
      rw [if_pos (List.isEmpty_iff.mpr hblank)]
    · rw [if_neg (by simpa using words_ne_nil_of_listed (hlisted hne))]
      exact (hlisted hne).mapM_items hquotes fun x item hx =>
        ⟨hx.solid hquotes,
          fun gap gap' hgap hgap' => hx.readItem? hgap hgap'⟩
  obtain ⟨body, hbody⟩ : ∃ body : String, body.toList = '(' :: (inner ++ [')']) :=
    ⟨_, String.toList_ofList⟩
  have hwords : d.words (s!"CREATE TABLE {d.quote name} (\n" ++
      ",\n".intercalate (definitions.map ("    " ++ ·)) ++ "\n)").toList =
        ["CREATE", "TABLE", d.quote name, body] := by
    have hfixed := isWord_fixed hd
    have hparts : ∀ w ∈ ["TABLE", d.quote name, body], IsWord d w.toList := by
      refine List.forall_mem_cons.mpr ⟨hfixed _ (by simp), ?_⟩
      refine List.forall_mem_cons.mpr ⟨isWord_quote hquotes name, ?_⟩
      refine List.forall_mem_singleton.mpr ?_
      rw [hbody]
      exact ⟨by simp, Solid.nil.parenthesized hquotes hsolid (by decide)⟩
    rw [← words_spaced (hfixed "CREATE" (by simp)) hparts (rfl : [].all Text.isBlank = true)]
    simp [spacedWords, hbody, hinner, toString]
  rw [Dialect.readTable?, hwords]
  simp only [readName?_quote, inner?_parenthesized hbody, Option.bind_eq_bind, Option.bind_some,
    hread]
  rfl

end Items

namespace Model

/-- **The statement that creates a table declares the model.** What is read is the name of the
table, a definition for each column, in order, that declares it, and behind these each constraint
with its name and its columns. -/
theorem declares_createTable {d : Dialect} (hd : d ∈ Dialect.shipped) {mapping : Mapping}
    {m : Model} (hm : build mapping = .ok m)
    (hdefault : ∀ c ∈ m.columns, ∀ sql, c.default ≠ some (.expression sql))
    (hnumbered : ∀ c ∈ m.columns, c.autoincrement = true → c.type.isInteger = true) :
    ∃ (columns : List ColumnText) (uniques : List (String × List String)),
      d.readTable? (d.createTable m) =
        some (m.name, columns.map .column ++ uniques.map fun u => .unique u.1 u.2) ∧
      List.Forall₂ (ColumnText.Declares d) columns m.columns ∧
      List.Forall₂ (fun read u => u = ⟨some read.1, read.2⟩) uniques m.uniques := by
  have himplements := implements hm
  have hdeclares : ∀ c ∈ m.columns, (c.reread d).Declares d c := fun c hc =>
    Column.declares_reread hd ((valid_of_build hm).key_of_autoincrement c hc)
      (himplements.key_default c hc) (hnumbered c hc)
  have huniques : ∀ u ∈ m.uniques, u = ⟨some (u.nameOn m.name), u.columns⟩ := by
    intro u hu
    obtain ⟨name, heq⟩ := himplements.unique_groups.1 u hu
    rw [heq]
    rfl
  refine ⟨m.columns.map (·.reread d), m.uniques.map fun u => (u.nameOn m.name, u.columns),
    ?_, ?_, ?_⟩
  · refine readTable?_of_items hd m.name (List.rel_append ?_ ?_)
    · rw [List.map_map, List.forall₂_map_left_iff, List.forall₂_map_right_iff, List.forall₂_same]
      exact fun c hc => isItem_column hd (hdefault c hc) (hdeclares c hc)
    · rw [List.map_map, List.forall₂_map_left_iff, List.forall₂_map_right_iff, List.forall₂_same]
      intro u hu
      have hname : u.name = some (u.nameOn m.name) := congrArg Unique.name (huniques u hu)
      have hseveral := (himplements.uniques u hu).2.2
      refine isItem_unique hd m.name hname ?_
      rintro hnil
      rw [hnil] at hseveral
      simp at hseveral
  · rw [List.forall₂_map_left_iff, List.forall₂_same]
    exact hdeclares
  · rw [List.forall₂_map_left_iff, List.forall₂_same]
    exact huniques

/-- A numbered key, a default and names with the characters that separate, quote and close, and a
constraint over two columns. -/
def separated : Mapping where
  name := "a, b"
  fields :=
    [{ name := "Id", spelling := "i64", column := some "id", primaryKey := true
       autoincrement := true },
      { name := "X", spelling := "Decimal", column := some "x] (", notNull := some true
        default := some (.text "it's, (\"1\""), uniques := [.inGroup "u, v"] },
      { name := "Y", spelling := "String", column := some "y, z", size := some 20
        uniques := [.inGroup "u, v"] }]

theorem declares_createTable_separated : ∃ m, build separated = .ok m ∧
    ∀ d ∈ Dialect.shipped, ∃ (columns : List ColumnText) (uniques : List (String × List String)),
      d.readTable? (d.createTable m) =
        some (m.name, columns.map .column ++ uniques.map fun u => .unique u.1 u.2) ∧
      List.Forall₂ (ColumnText.Declares d) columns m.columns ∧
      List.Forall₂ (fun read u => u = ⟨some read.1, read.2⟩) uniques m.uniques := by
  obtain ⟨m, hm, hcolumns⟩ : ∃ m, build separated = .ok m ∧
      m.columns.map (fun c => (c.default, c.autoincrement, c.type)) = [(none, true, .int64),
        (some (.text "it's, (\"1\""), false, .decimal), (none, false, .text)] := ⟨_, rfl, rfl⟩
  have hcolumn : ∀ c ∈ m.columns, (c.default, c.autoincrement, c.type) ∈ _ := fun c hc =>
    hcolumns ▸ List.mem_map_of_mem hc
  refine ⟨m, hm, fun d hd => declares_createTable hd hm ?_ ?_⟩
  · rintro c hc sql hsql
    simpa [hsql] using hcolumn c hc
  · rintro c hc hauto
    have htype : c.default = none ∧ c.type = .int64 := by simpa [hauto] using hcolumn c hc
    rw [htype.2]
    rfl

end Model

end EntitySql
