import EntitySql.Proofs.Names
import EntitySql.Proofs.Database.Effects
import EntitySql.Proofs.Database.Selecting

/-!
# Inserting rows

An insertion names its table and columns, and brings the rows of a query or a row of markers, which
are numbered in order. It adds one row to its table for each row of values that it brings, and
changes no other row. What a row has in a column is the value at the position of the column's name,
as the column stores it. Only a missing value may be replaced: in the column that is the number of
the row.

## Main definitions

* `StoredRow.Has`: a row has the given cells, if they are there
* `StoredTable.Adds`: a table with a new row for each row of values

## Main results

* `run_insertSelect`, `run_insertMarkers`: what an insertion is read as
* `StoredTable.exists_of_insertRow`: one row is added
* `Database.exists_of_insert`: a row for each row of values
* `Database.getElem?_convert_newCells`: what a column stores
-/

namespace EntitySql

open Token Reading

/-! ### Statements -/

/-- The tokens of an insertion, up to the word that says where the rows come from. -/
def insertHead (table : String) (names : List String) : List Token :=
  ofWord "" "INSERT" :: ofWord " " "INTO" :: ofName " " table :: namesTokens names

theorem spells_insertHead (table : String) (names : List String) {us : List Token} {cs : List Char}
    (hus : Spells us cs) (hcs : Breaks cs) : Spells (insertHead table names ++ us)
      (("INSERT INTO " ++ Dialect.sqlite.quote table ++ " (" ++ Dialect.sqlite.quoteAll names ++
        ")").toList ++ cs) := by
  have hinsert := spells_word isGap_empty (w := "INSERT") (by decide)
  have hinto := spells_word isGap_blank (w := "INTO") (by decide)
  have htable := spells_name isGap_blank table
  have hnames := (spells_namesTokens names).append hus hcs
  have hall := hinsert.append (hinto.append (htable.append hnames (breaks_cons rfl))
    (breaks_cons rfl)) (breaks_cons rfl)
  simpa [insertHead, quote_sqlite, toString] using hall

/-- The columns of an insertion are read as their names. -/
theorem run_insertNames {names : List String} (hne : names ≠ []) (us : List Token) (k : Nat) :
    (inParens name).run ⟨namesTokens names ++ us, k⟩ = .ok (names, ⟨us, k⟩) :=
  run_inParens_names (fun gap n t ts k _ => by simp) hne us k

section

variable {names : List String} (hne : names ≠ []) (table : String) (us : List Token) (k : Nat)

include hne

/-- An insertion from a query. -/
theorem run_insertSelect :
    command.run ⟨insertHead table names ++ ofWord " " "SELECT" :: us, k⟩ =
      (fun r => (.insert table (some names) (.query r.1), r.2)) <$> query.run ⟨us, k⟩ := by
  have hnames := run_insertNames hne (ofWord " " "SELECT" :: us) k
  have hpoint : (acceptSymbol ".").run ⟨namesTokens names ++ ofWord " " "SELECT" :: us, k⟩ =
      .ok (false, ⟨namesTokens names ++ ofWord " " "SELECT" :: us, k⟩) := rfl
  have hhead : (namesTokens names).head? = some (ofMark " " '(') := rfl
  simp [command, insertHead, isWord_ofWord, isSymbol_ofMark, Reading.insert, objectName, hpoint,
    hhead, hnames]

/-- An insertion of rows that are listed. -/
theorem run_insertValues :
    command.run ⟨insertHead table names ++ ofWord " " "VALUES" :: us, k⟩ =
      (fun r => (.insert table (some names) (.listed r.1), r.2)) <$>
        (separated (inParens phrase) us.length).run ⟨us, k⟩ := by
  have hnames := run_insertNames hne (ofWord " " "VALUES" :: us) k
  have hpoint : (acceptSymbol ".").run ⟨namesTokens names ++ ofWord " " "VALUES" :: us, k⟩ =
      .ok (false, ⟨namesTokens names ++ ofWord " " "VALUES" :: us, k⟩) := rfl
  have hhead : (namesTokens names).head? = some (ofMark " " '(') := rfl
  simp [command, insertHead, isWord_ofWord, isSymbol_ofMark, Reading.insert, objectName, hpoint,
    hhead, hnames]

end

/-! ### Markers -/

/-- A marker in a list. -/
def markerItem (gap : String) : Item Phrase := ⟨[ofMarker gap], .parameter, 1⟩

/-- A list of that many markers. -/
def markerItems : Nat → List (Item Phrase)
  | 0 => []
  | n + 1 => markerItem "" :: List.replicate n (markerItem " ")

theorem exists_of_mem_markerItems {n : Nat} {x : Item Phrase} (h : x ∈ markerItems n) :
    ∃ gap, x = markerItem gap := by
  cases n with
  | zero => simp [markerItems] at h
  | succ n =>
    rcases List.mem_cons.mp h with rfl | h
    · exact ⟨"", rfl⟩
    · exact ⟨" ", List.eq_of_mem_replicate h⟩

/-- Markers are numbered in order. -/
theorem values_replicate (gap : String) (n k : Nat) :
    Item.values (List.replicate n (markerItem gap)) k = (List.range' k n).map .parameter := by
  induction n generalizing k with
  | zero => rfl
  | succ n ih => rw [List.replicate_succ, Item.values, markerItem, ← markerItem, ih]; rfl

theorem values_markerItems (n : Nat) :
    Item.values (markerItems n) 0 = (List.range n).map .parameter := by
  cases n with
  | zero => rfl
  | succ n =>
    rw [markerItems, Item.values, markerItem, values_replicate, List.range_eq_range']
    rfl

theorem sum_markerItems (n : Nat) : ((markerItems n).map Item.markers).sum = n := by
  cases n with
  | zero => rfl
  | succ n => simp [markerItems, markerItem, Nat.add_comm]

theorem spells_markerItems (n : Nat) :
    Spells (separate ((markerItems n).map Item.tokens))
      ([',', ' '].intercalate (List.replicate n ['?'])) := by
  cases n with
  | zero => exact Spells.nil
  | succ n =>
    have hfirst : Spells [ofMarker ""] ['?'] :=
      spells_of_stands fun rest hrest => stands_marker isGap_empty hrest
    have hnext : Spells [ofMarker " "] [' ', '?'] :=
      spells_of_stands fun rest hrest => stands_marker isGap_blank hrest
    have hrest : List.Forall₂ Spells (List.replicate n [ofMarker " "])
        (List.replicate n [' ', '?']) := by
      induction n with
      | zero => exact .nil
      | succ n ih => exact .cons hnext ih
    have htext := intercalate_append [','] [' '] ['?'] (List.replicate n ['?'])
    have htokens : (markerItems (n + 1)).map Item.tokens =
        [ofMarker ""] :: List.replicate n [ofMarker " "] := by
      simp [markerItems, markerItem]
    rw [List.map_replicate] at htext
    rw [List.replicate_succ, htokens]
    exact htext ▸ spells_separate (.cons hfirst hrest)

/-- A marker is an expression. -/
theorem run_phrase_marker (gap : String) {t : Token} (ht : t.Ends) (ts : List Token) (k : Nat) :
    phrase.run ⟨ofMarker gap :: t :: ts, k⟩ = .ok (.parameter k, ⟨t :: ts, k + 1⟩) := by
  have hclimb := run_climb_of_closes (endsPhrase_of_ends ht ts).toCloses
    (4 * (ts.length + 1 + 1) + 2) (.parameter k) (k + 1)
  simp [phrase, expression, run_operand_marker, hclimb]

/-- **An insertion of markers is read**, up to the end of its statement. -/
theorem run_insertMarkers {names : List String} (hne : names ≠ []) (table : String) :
    command.run ⟨insertHead table names ++ ofWord " " "VALUES" :: ofMark " " '(' ::
        (separate ((markerItems names.length).map Item.tokens) ++ [ofMark "" ')']), 0⟩ =
      .ok (.insert table (some names) (.listed [(List.range names.length).map .parameter]),
        ⟨[], names.length⟩) := by
  have hfull : markerItems names.length ≠ [] := by
    obtain ⟨n, ns, rfl⟩ := List.exists_cons_of_ne_nil hne
    simp [markerItems]
  have hitem : ∀ x ∈ markerItems names.length, x.tokens ≠ [] ∧ ∀ (t : Token) ts k, t.Ends →
      phrase.run ⟨x.tokens ++ t :: ts, k⟩ = .ok (x.value k, ⟨t :: ts, k + x.markers⟩) := by
    intro x hx
    obtain ⟨gap, rfl⟩ := exists_of_mem_markerItems hx
    exact ⟨List.cons_ne_nil _ _, fun t ts k ht => run_phrase_marker gap ht ts k⟩
  have hrow := run_inParens_items hfull hitem " " [] 0
  rw [values_markerItems, sum_markerItems, Nat.zero_add] at hrow
  have hend : ∀ k, (acceptSymbol ",").run ⟨[], k⟩ = .ok (false, ⟨[], k⟩) := fun k => rfl
  rw [run_insertValues hne]
  simp [separated, hrow, hend]

/-! ### Rows -/

/-- The fault is that a row cannot be written as it is, or cannot be written at all. -/
def Fault.RefusesRow : Fault → Prop
  | .missingValue .. | .duplicateValue .. | .mismatch | .full | .readOnly => True
  | _ => False

/-- A row has the given cells. Nothing is said of cells that are missing. -/
def StoredRow.Has (row : StoredRow) (cells : Record) : Prop :=
  ∀ (p : Nat) (d : Datum), cells[p]? = some d → d ≠ .null → row.cells[p]? = some d

namespace StoredTable

/-- A row is placed among the others. -/
theorem place_perm (row : StoredRow) (rows : List StoredRow) :
    (place row rows).Perm (row :: rows) := by
  induction rows with
  | nil => exact .refl _
  | cons r rows ih =>
    rw [place]
    split
    · exact .refl _
    · exact (ih.cons r).trans (.swap row r rows)

/-- The number of a row is the one in its column, or replaces a missing one. -/
theorem has_withNumber {t : StoredTable} {last n : Int} {cells : Record}
    (h : t.numberFor last cells = .ok n) : StoredRow.Has ⟨n, t.withNumber n cells⟩ cells := by
  intro p d hp hd
  change (t.withNumber n cells)[p]? = some d
  rw [withNumber]
  split
  · next q hq =>
    by_cases hpq : q = p
    · subst hpq
      rw [numberFor, hq, Option.bind_some, hp] at h
      cases d with
      | null => exact absurd rfl hd
      | int k =>
        obtain rfl : k.toInt = n := by simpa using h
        have hlt : q < cells.length := (List.getElem?_eq_some_iff.mp hp).1
        simp [hlt]
      | _ => simp at h
    · rw [List.getElem?_set_ne hpq, hp]
  · exact hp

/-- **A row that is inserted is added** to the others. -/
theorem exists_of_insertRow {t t' : StoredTable} {last n : Int} {given : Record}
    (h : t.insertRow last given = .ok (t', n)) :
    ∃ row, t' = { t with rows := place row t.rows } ∧ row.Has (t.convert given) := by
  obtain ⟨hnumber, -, -, -, ht'⟩ := insertRow_cases h
  exact ⟨_, ht', has_withNumber hnumber⟩

/-- There is no number for a row if all are used up, or if another value stands in its column. -/
theorem refusesRow_of_numberFor {t : StoredTable} {last : Int} {cells : Record} {fault : Fault}
    (h : t.numberFor last cells = .error fault) : fault.RefusesRow := by
  have hnext : t.nextNumber last = .error fault → fault.RefusesRow := by
    intro h
    rw [nextNumber] at h
    cases hreuses : t.neverReuses with
    | false =>
      rw [hreuses, if_neg Bool.false_ne_true, if_neg Bool.false_ne_true] at h
      split at h <;> cases h
    | true =>
      rw [hreuses, if_pos rfl] at h
      split at h
      · cases h
      · cases h
        exact trivial
  rw [numberFor] at h
  split at h
  · exact hnext h
  · exact hnext h
  · cases h
  · cases h
    exact trivial

/-- **A row is refused** for a value that is missing, that is not of its type or that occurs twice,
or because there is no number left for it. -/
theorem refusesRow_of_insertRow {t : StoredTable} {last : Int} {given : Record} {fault : Fault}
    (h : t.insertRow last given = .error fault) : fault.RefusesRow := by
  rw [insertRow] at h
  rcases of_bind_eq_error h with hnumber | ⟨k, hk, h⟩
  · exact refusesRow_of_numberFor hnumber
  · cases hmissing : t.missing? (t.withNumber k (t.convert given)) with
    | some found =>
      obtain rfl : found = fault := by simpa [hmissing] using h
      obtain ⟨x, -, rfl⟩ := Option.map_eq_some_iff.mp hmissing
      exact trivial
    | none =>
      cases hnumber : t.hasNumber k with
      | true =>
        obtain rfl : Fault.duplicateValue true t.name [t.numberName] = fault := by
          simpa [hmissing, hnumber] using h
        exact trivial
      | false =>
        cases hduplicate : t.duplicate? ⟨k, t.withNumber k (t.convert given)⟩ with
        | some found =>
          obtain rfl : found = fault := by simpa [hmissing, hnumber, hduplicate] using h
          obtain ⟨x, -, rfl⟩ := Option.map_eq_some_iff.mp hduplicate
          exact trivial
        | none => simp [hmissing, hnumber, hduplicate] at h

/-- A table with a new row for each of the given rows. -/
structure Adds (t t' : StoredTable) (given : List Record) : Prop where
  /-- Only the rows change. -/
  same : t' = { t with rows := t'.rows }
  /-- The new rows have what is given. -/
  rows : ∃ news, t'.rows.Perm (t.rows ++ news) ∧
    List.Forall₂ (fun cells row => StoredRow.Has row (t.convert cells)) given news

theorem adds_nil (t : StoredTable) : t.Adds t [] := ⟨rfl, [], by simp, .nil⟩

/-- One more row. -/
theorem Adds.insertRow {t t₁ t₂ : StoredTable} {given : List Record} (h : t.Adds t₁ given)
    {last n : Int} {cells : Record} (hinsert : t₁.insertRow last cells = .ok (t₂, n)) :
    t.Adds t₂ (given ++ [cells]) := by
  obtain ⟨row, rfl, hrow⟩ := exists_of_insertRow hinsert
  obtain ⟨news, hrows, hnews⟩ := h.rows
  have hconvert : t₁.convert cells = t.convert cells := by rw [h.same]; rfl
  refine ⟨by rw [h.same], news ++ [row], ?_, List.rel_append hnews (.cons (hconvert ▸ hrow) .nil)⟩
  refine (place_perm row t₁.rows).trans ((hrows.cons row).trans ?_)
  rw [← List.append_assoc]
  exact (List.perm_append_singleton row (t.rows ++ news)).symm

end StoredTable

namespace Database

/-! ### Tables under their names -/

section

variable {db : Database} {name other : String} {t : StoredTable} {f : StoredTable → StoredTable}

/-- A table that is found is one of the database and has the name. -/
theorem of_table? (h : db.table? name = some t) :
    t ∈ db.tables ∧ Text.sameName t.name name = true :=
  Text.of_find?_eq_some h

/-- A change of one table is seen under its name. -/
theorem table?_changeTable (h : db.table? name = some t)
    (hname : Text.sameName (f t).name name = true) :
    (db.changeTable name f).table? name = some (f t) := by
  obtain ⟨hsame, before, after, htables, hbefore⟩ := List.find?_eq_some_iff_append.mp h
  refine List.find?_eq_some_iff_append.mpr
    ⟨hname, before, after.map fun u => if Text.sameName u.name name then f u else u, ?_, hbefore⟩
  have hunchanged : before.map (fun u => if Text.sameName u.name name then f u else u) = before :=
    Text.map_of_sameName fun u hu => by simpa using hbefore u hu
  rw [changeTable, htables, List.map_append, List.map_cons, hunchanged, if_pos hsame]

/-- A change that leaves the names of tables is seen in the table that is found. -/
theorem table?_changeTable_eq (hname : ∀ u, (f u).name = u.name) :
    (db.changeTable name f).table? other =
      (db.table? other).map fun u => if Text.sameName u.name name then f u else u := by
  have hnames : ∀ u : StoredTable,
      (if Text.sameName u.name name then f u else u).name = u.name := by
    intro u
    split
    · exact hname u
    · rfl
  rw [table?, changeTable, List.find?_map]
  simp only [Function.comp_def, hnames]
  rfl

/-- Under another name it is not seen. -/
theorem table?_changeTable_of_ne (hne : Text.sameName name other = false)
    (hname : ∀ u, (f u).name = u.name) :
    (db.changeTable name f).table? other = db.table? other := by
  rw [table?_changeTable_eq hname]
  cases hfound : db.table? other with
  | none => rfl
  | some u =>
    have hu : Text.sameName u.name other = true := (of_table? hfound).2
    have hnot : Text.sameName u.name name = false := by
      rw [Bool.eq_false_iff]
      intro hsame
      rw [Text.sameName_comm] at hsame
      rw [Text.sameName_trans hsame hu] at hne
      exact absurd hne (by decide)
    simp [hnot]

/-- The table of the last numbers is another one. -/
theorem table?_keepLastNumber (h : Text.sameName sequenceName name = false) (table : String)
    (n : Int) : (db.keepLastNumber table n).table? name = db.table? name := by
  refine table?_changeTable_of_ne h fun u => ?_
  split <;> rfl

end

/-! ### Insertions -/

/-- Markers bring the values that are bound. -/
theorem insertedRows_parameters (db : Database) (b : Bindings) :
    db.insertedRows b (.listed [(List.range b.params.length).map .parameter]) =
      .ok ([b.params], b.params.length) := by
  have hrow : ((List.range b.params.length).map Phrase.parameter).mapM (Phrase.value b) =
      .ok b.params := by
    rw [mapM_eq_ok_iff, List.forall₂_map_left_iff, List.forall₂_iff_get]
    refine ⟨by simp, fun i _ hi => ?_⟩
    have hvalue : (Phrase.parameter i).value b = .ok (b.params[i]?.getD .null) := rfl
    simp [hvalue, hi]
  simp [insertedRows, hrow]

/-- **An insertion adds a row for each row of values.** -/
theorem exists_of_insert {db db' : Database} {b : Bindings} {table : String}
    {named : Option (List String)} {source : RowSource} {count : Nat}
    (hname : Text.sameName sequenceName table = false)
    (h : db.insert b table named source = .ok (db', count)) :
    ∃ t rows width positions defaults t', db.table? table = some t ∧
      db.insertedRows b source = .ok (rows, width) ∧
      valuePositions t table named width (isDefaults source) = .ok positions ∧
      defaultsFor t b positions = .ok defaults ∧ db'.table? table = some t' ∧
      t.Adds t' (rows.map (newCells positions defaults)) := by
  obtain ⟨t, rows, width, positions, defaults, t', greatest, htable, hrows, hpositions, hdefaults,
    hfold, -, rfl⟩ := insert_cases h
  have hstart : t.Adds t (([] : List Record).map (newCells positions defaults)) := t.adds_nil
  have hadds : t.Adds t' (([] ++ rows).map (newCells positions defaults)) := by
    refine foldlM_invariant (b := (t, db.lastNumber t.name)) (P := fun done s =>
      t.Adds s.1 (done.map (newCells positions defaults))) (fun done row _ s s' hs hstep => ?_)
      hstart hfold
    obtain ⟨⟨t₂, n⟩, hinsert, hstep⟩ := exists_of_bind_eq_ok hstep
    obtain rfl := Except.ok.inj hstep
    rw [List.map_append]
    exact hs.insertRow hinsert
  rw [List.nil_append] at hadds
  have hsame : Text.sameName t'.name table = true := by
    rw [hadds.same]
    exact (of_table? htable).2
  refine ⟨t, rows, width, positions, defaults, t', htable, hrows, hpositions, hdefaults, ?_, hadds⟩
  have hchanged : (db.changeTable table fun _ => t').table? table = some t' :=
    table?_changeTable htable hsame
  split
  · rw [table?_keepLastNumber hname, hchanged]
  · exact hchanged

/-- An insertion into a table is refused for one of its rows, or for a default. -/
theorem insert_error {db : Database} {b : Bindings} {table : String} {named : Option (List String)}
    {source : RowSource} {t : StoredTable} (ht : db.table? table = some t) {rows : List Record}
    {width : Nat} (hrows : db.insertedRows b source = .ok (rows, width))
    {positions : List (Option Nat)}
    (hpositions : valuePositions t table named width (isDefaults source) = .ok positions)
    {fault : Fault} (h : db.insert b table named source = .error fault) :
    fault.RefusesRow ∨ ∃ c ∈ t.columns, c.defaultValue b = .error fault := by
  have hwritable : db.writable table = .ok t := by rw [writable, ht]; rfl
  rw [insert, hwritable, ok_bind, hrows, ok_bind] at h
  dsimp only at h
  rw [hpositions, ok_bind] at h
  rcases of_bind_eq_error h with hdefaults | ⟨defaults, -, h⟩
  · obtain ⟨⟨position, c⟩, hmem, hdefault⟩ := exists_of_mapM_eq_error hdefaults
    refine .inr ⟨c, (List.of_mem_zip hmem).2, ?_⟩
    cases position with
    | some i => cases hdefault
    | none => exact hdefault
  · rcases of_bind_eq_error h with hfold | ⟨written, -, h⟩
    · obtain ⟨s, row, -, hstep⟩ := exists_of_foldlM_eq_error hfold
      rcases of_bind_eq_error hstep with hinsert | ⟨written, -, h⟩
      · exact .inl (StoredTable.refusesRow_of_insertRow hinsert)
      · cases h
    · cases h

/-- The names of columns have positions. -/
theorem exists_valuePositions {t : StoredTable} {table : String} {names : List String}
    (h : ∀ n ∈ names, (t.column? n).isSome = true) :
    ∃ positions, valuePositions t table (some names) names.length false = .ok positions := by
  rw [valuePositions]
  have hloop : (forIn names PUnit.unit fun name (_ : PUnit) =>
      if (t.column? name).isNone = true then do
        throw (Fault.columnNotInTable table name)
        pure (ForInStep.yield PUnit.unit)
      else pure (ForInStep.yield PUnit.unit) : Except Fault PUnit) = .ok ⟨⟩ := by
    induction names with
    | nil => rfl
    | cons n ns ih =>
      have hn : (t.column? n).isNone = false := by
        simpa using h n List.mem_cons_self
      rw [List.forIn_cons, hn]
      exact ih fun x hx => h x (List.mem_cons_of_mem n hx)
  rw [hloop, ok_bind]
  simp only [bne_self_eq_false, Bool.false_eq_true, if_false]
  exact ⟨_, rfl⟩

/-! ### Cells -/

/-- The columns take their values from the positions of their names. -/
theorem valuePositions_some {t : StoredTable} {table : String} {names : List String} {width : Nat}
    {positions : List (Option Nat)}
    (h : valuePositions t table (some names) width false = .ok positions) :
    positions = t.columns.map fun c => names.findIdx? (Text.sameName c.name) := by
  rw [valuePositions, if_neg (by decide)] at h
  obtain ⟨_, -, h⟩ := exists_of_bind_eq_ok h
  split at h
  · simp at h
  · exact (Except.ok.inj h).symm

/-- **What a column stores** is the value at the position of its name. -/
theorem getElem?_convert_newCells {t : StoredTable} {b : Bindings} {table : String}
    {names : List String} {width : Nat} {positions : List (Option Nat)} {defaults : Record}
    (hpositions : valuePositions t table (some names) width false = .ok positions)
    (hdefaults : defaultsFor t b positions = .ok defaults) {p i : Nat} {c : StoredColumn}
    (hc : t.columns[p]? = some c) (hi : names.findIdx? (Text.sameName c.name) = some i)
    {values : Record} {d : Datum} (hd : values[i]? = some d) :
    (t.convert (newCells positions defaults values))[p]? = some (c.affinity.store d) := by
  have hposition : positions[p]? = some (some i) := by
    rw [valuePositions_some hpositions, List.getElem?_map, hc, Option.map_some, hi]
  have hdefault : ∃ x, defaults[p]? = some x := by
    rw [defaultsFor, mapM_eq_ok_iff] at hdefaults
    have hlt : p < defaults.length := by
      have hp := (List.getElem?_eq_some_iff.mp hposition).1
      have hcolumn := (List.getElem?_eq_some_iff.mp hc).1
      rw [← hdefaults.length_eq, List.length_zip]
      omega
    exact ⟨defaults[p], List.getElem?_eq_getElem hlt⟩
  obtain ⟨x, hx⟩ := hdefault
  have hcell : (newCells positions defaults values)[p]? = some d := by
    simp [newCells, List.getElem?_zip_eq_some, hposition, hx, hd]
  simp [StoredTable.convert, List.getElem?_zipWith, hc, hcell]

end Database

end EntitySql
