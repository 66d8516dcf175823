import EntitySql.Client.Answer
import EntitySql.Proofs.Client.RoundTrip
import EntitySql.Proofs.Database.Storage
import EntitySql.Proofs.Query.RowText

/-!
# Values that come back

An entity is inserted with one statement and loaded with another, from a table that its model has
created. In between its values are bound, stored by the affinity of their columns and read as
values. The insertion adds one row to those that are loaded, in which every field of a plain type
has the value that it was given, and no other value of its type would be read the same.

The unsigned integers above the signed range are the exception. The column keeps the nearest double,
which is all that is loaded.

## Main definitions

* `Rows.Inserts`, `Rows.Refuses`, `Rows.Loads`: the commands of an entity, run on a connection
* `Column.stored`: what a column stores for a value that is bound

## Main results

* `Rows.loads_of_holds`: the rows of a table are loaded
* `Rows.exists_of_inserts`: an insertion adds one row
* `Rows.inserts_or_refuses`: for what an insertion is refused
* `Rows.loads_of_inserts`: what is inserted is loaded
-/

namespace EntitySql

open Reading

/-! ### Columns of a model and of its table -/

namespace StoredTable.Holds

variable {t : StoredTable} {m : Model} {created : List Index}

theorem map_name (ht : t.Holds m created) : t.columns.map StoredColumn.name = m.columnNames := by
  have hnames : List.Forall₂ (· = ·) (t.columns.map StoredColumn.name) (m.columns.map Column.name) := by
    rw [List.forall₂_map_left_iff, List.forall₂_map_right_iff]
    exact ht.columns.imp fun _ _ h => h.name
  rwa [List.forall₂_eq_eq_eq] at hnames

/-- The table has the columns of the model, each at its position. -/
theorem exists_column (ht : t.Holds m created) {p : Nat} {k : Column}
    (hk : m.columns[p]? = some k) : ∃ s, t.columns[p]? = some s ∧ s.Stores k := by
  obtain ⟨hlt, rfl⟩ := List.getElem?_eq_some_iff.mp hk
  have hlt' : p < t.columns.length := ht.columns.length_eq ▸ hlt
  exact ⟨t.columns[p], List.getElem?_eq_getElem hlt', ht.columns.get hlt' hlt⟩

theorem position? (ht : t.Holds m created) (hm : m.Valid) {p : Nat} {k : Column}
    (hk : m.columns[p]? = some k) : t.position? k.name = some p := by
  have hp := Text.findIdx?_of_pairwise hm.distinct hk (Text.sameName_refl k.name)
  have hnames : t.position? k.name =
      (t.columns.map StoredColumn.name).findIdx? (Text.sameName · k.name) := by
    rw [List.findIdx?_map]
    rfl
  rw [hnames, ht.map_name, Model.columnNames, List.findIdx?_map]
  exact hp

/-- What rows there are does not matter. -/
theorem of_rows (ht : t.Holds m created) {t' : StoredTable} (h : t' = { t with rows := t'.rows }) :
    t'.Holds m created := by
  rw [h]
  exact ⟨ht.name, ht.sql, ht.columns, ht.distinct, ht.created, ht.enforces, ht.enforced⟩

end StoredTable.Holds

/-! ### Named rows -/

/-- Where no name is repeated, a name stands for the value at its position. -/
theorem lookup_zip {α : Type} {names : List String} (hnames : names.Nodup) {vs : List α} {p : Nat}
    {n : String} (hn : names[p]? = some n) : (names.zip vs).lookup n = vs[p]? := by
  induction names generalizing vs p with
  | nil => simp at hn
  | cons a as ih =>
    cases vs with
    | nil => rfl
    | cons v vs =>
      cases p with
      | zero =>
        obtain rfl := Option.some.inj hn
        simp
      | succ p =>
        obtain ⟨ha, has⟩ := List.nodup_cons.mp hnames
        have hne : n ≠ a := by
          rintro rfl
          exact ha (List.mem_of_getElem? hn)
        rw [List.zip_cons_cons, List.lookup_cons, beq_false_of_ne hne]
        exact ih has hn

namespace Model

variable {m : Model}

theorem Valid.nodup (hm : m.Valid) : m.columnNames.Nodup := by
  refine List.pairwise_map.mpr (hm.distinct.imp fun h heq => ?_)
  rw [heq, Text.sameName_refl] at h
  exact absurd h (by decide)

/-- A row of a table as it is loaded: its cells under the names of the columns. -/
def named (m : Model) (row : StoredRow) : NamedRow :=
  m.columnNames.zip ((StoredTable.cellsAt (List.range m.columns.length) row).map Datum.toValue)

theorem lookup_named (hm : m.Valid) {p : Nat} {k : Column} (hk : m.columns[p]? = some k)
    (row : StoredRow) :
    (m.named row).lookup k.name = some (row.cells[p]?.getD .null).toValue := by
  have hlt := (List.getElem?_eq_some_iff.mp hk).1
  have hn : m.columnNames[p]? = some k.name := by rw [columnNames, List.getElem?_map, hk]; rfl
  rw [named, lookup_zip hm.nodup hn]
  simp [StoredTable.cellsAt, hlt]

end Model

/-- What the column stores for a value that is bound. -/
def Column.stored (k : Column) (v : Value) : Datum :=
  (Affinity.ofType (Sqlite.nativeType k.type)).store (.ofValue (Dialect.sqlite.toBound v))

namespace Rows

variable {r : Rows} {c c' : Connection} {t : StoredTable} {created : List Index}

/-- The insertion of an entity is run on a connection, and leaves it as given. -/
def Inserts (r : Rows) (values : RowValues) (c c' : Connection) : Prop :=
  ∃ o s out, r.insert = .ok o ∧ o.statement (r.insertArguments values) = .ok s ∧
    c.execute s.sql s.params = (.ok out, c')

/-- The insertion of an entity is refused on a connection, and leaves it as it is. -/
def Refuses (r : Rows) (values : RowValues) (c : Connection) (fault : Fault) : Prop :=
  ∃ o s, r.insert = .ok o ∧ o.statement (r.insertArguments values) = .ok s ∧
    c.execute s.sql s.params = (.error fault, c)

/-- The entities that are loaded on a connection, which changes nothing. -/
def Loads (r : Rows) (c : Connection) (rows : List NamedRow) : Prop :=
  ∃ o s out, r.load none = .ok o ∧ o.statement [] = .ok s ∧
    c.execute s.sql s.params = (.ok out, c) ∧ out.namedRows = rows

/-- What is refused does not run. -/
theorem Refuses.not_inserts {values : RowValues} {fault : Fault} (h : r.Refuses values c fault) :
    ¬ r.Inserts values c c' := by
  rintro ⟨o, s, out, ho, hs, hexecute⟩
  obtain ⟨o', s', ho', hs', hrefused⟩ := h
  obtain rfl := Except.ok.inj (ho.symm.trans ho')
  obtain rfl := Except.ok.inj (hs.symm.trans hs')
  simp [hexecute] at hrefused

/-- An insertion runs if its statement is not refused. -/
theorem exists_inserts {values : RowValues}
    (h : (match r.insert.bind fun o => o.statement (r.insertArguments values) with
      | .ok s => (c.execute s.sql s.params).1.isOk
      | .error _ => false) = true) : ∃ c', r.Inserts values c c' := by
  split at h
  · next s hs =>
    obtain ⟨o, ho, hs⟩ := exists_of_bind_eq_ok hs
    obtain ⟨out, hout⟩ := exists_eq_ok h
    exact ⟨_, o, s, out, ho, hs, hout⟩
  · simp at h

section

variable (hd : r.dialect = .sqlite) (hm : r.model.Valid)
  (hname : isReservedName r.model.name = false)
  (ht : c.database.table? r.model.name = some t) (hholds : t.Holds r.model created)

include hd hm hname ht hholds

/-- **All rows of a table are loaded**, under the names of its columns. -/
theorem loads_of_holds (hne : r.model.columns ≠ []) :
    r.Loads c (t.rows.map r.model.named) := by
  obtain ⟨o, s, ho, hs, hparams, hread⟩ := read_load hd hne
  have hcatalog := Database.isCatalogName_of_isReservedName hname
  have hps : List.Forall₂ (fun n p => t.position? n = some p ∧
      ∃ s, t.columns[p]? = some s ∧ s.name = n) r.model.columnNames
        (List.range r.model.columns.length) := by
    rw [List.forall₂_iff_get]
    refine ⟨by simp [Model.columnNames], fun i hi hi' => ?_⟩
    have hlt : i < r.model.columns.length := by simpa using hi'
    have hk : r.model.columns[i]? = some r.model.columns[i] := List.getElem?_eq_getElem hlt
    obtain ⟨s, hs, hstores⟩ := hholds.exists_column hk
    have hposition := hholds.position? hm hk
    simpa [Model.columnNames] using ⟨hposition, s, hs, hstores.name⟩
  obtain ⟨hs', hanswer, hnames⟩ := Database.answer_names ht hcatalog hps
    ⟨s.params.map Datum.ofValue, .epoch⟩ fun n => Token.written [.ofName " " n]
  have hexecute : c.execute s.sql s.params = (.ok (Connection.outcome ⟨hs', t.rows.map
      (StoredTable.cellsAt (List.range r.model.columns.length))⟩), c) := by
    rw [Connection.execute_of_run hread]
    simp [Connection.run, Connection.perform, hanswer, Command.changesTable]
  refine ⟨o, s, _, ho, hs, hexecute, ?_⟩
  simp [Outcome.namedRows, Connection.outcome, hnames, Model.named]

/-- **An insertion adds one row.** It has what the column of each inserted field stores for the
value of the field, if that is not missing. -/
theorem exists_of_inserts {values : RowValues} (h : r.Inserts values c c') :
    r.insertColumns ≠ [] ∧ ∃ t' row, c'.database.table? r.model.name = some t' ∧
      t' = { t with rows := t'.rows } ∧ t'.rows.Perm (row :: t.rows) ∧
      ∀ (p : Nat) (k : Column), r.model.columns[p]? = some k → k.autoincrement = false →
        k.stored (values.get k.field) ≠ .null →
          row.cells[p]? = some (k.stored (values.get k.field)) := by
  obtain ⟨o, s, out, ho, hs, hexecute⟩ := h
  obtain ⟨hparams, hread⟩ := read_insert hd ho hs
  refine ⟨(insert_eq ho).1, ?_⟩
  generalize hb : (⟨s.params.map Datum.ofValue, .epoch⟩ : Bindings) = b at *
  have hbound : b.params = r.insertColumns.map fun k =>
      Datum.ofValue (Dialect.sqlite.toBound (values.get k.field)) := by
    rw [← hb, hparams, List.map_map]
    rfl
  have hwidth : r.insertColumns.length = b.params.length := by rw [hbound, List.length_map]
  rw [Connection.execute_of_run hread, hb] at hexecute
  cases hrun : c.run b (.insert r.model.name (some (r.insertColumns.map (·.name)))
      (.listed [(List.range r.insertColumns.length).map .parameter])) with
  | error fault => simp [hrun] at hexecute
  | ok written =>
    obtain ⟨after, out'⟩ := written
    obtain rfl : after = c' := by
      rw [hrun] at hexecute
      exact (Prod.mk.inj hexecute).2
    have hperform := Connection.perform_of_run hrun
    rw [Connection.perform] at hperform
    obtain ⟨⟨db, n⟩, hinsert, hafter⟩ := exists_of_map_eq_ok hperform
    obtain ⟨t₁, rows, width, positions, defaults, t', ht₁, hrows, hpositions, hdefaults, ht', hadds⟩ :=
      Database.exists_of_insert
        (Database.sameName_of_isReservedName hname Database.isReservedName_sequenceName) hinsert
    obtain rfl : t = t₁ := Option.some.inj (ht.symm.trans ht₁)
    rw [hwidth, Database.insertedRows_parameters] at hrows
    obtain ⟨rfl, rfl⟩ := Prod.mk.inj (Except.ok.inj hrows)
    obtain ⟨news, hnews, hall⟩ := hadds.rows
    rw [List.map_cons, List.map_nil] at hall
    cases hall with
    | @cons _ row _ _ hrow hnil =>
    cases hnil
    refine ⟨t', row, ?_, hadds.same, hnews.trans List.perm_append_comm, fun p k hk hauto hne => ?_⟩
    · rw [← (Prod.mk.inj hafter).1]
      exact ht'
    · -- the value stands where the name of the column stands
      have hinserted : k ∈ r.insertColumns :=
        List.mem_filter.mpr ⟨List.mem_of_getElem? hk, by simp [hauto]⟩
      obtain ⟨i, hi⟩ := List.mem_iff_getElem?.mp hinserted
      obtain ⟨stored, hstored, hstores⟩ := hholds.exists_column hk
      have hposition : (r.insertColumns.map (·.name)).findIdx? (Text.sameName stored.name) =
          some i := by
        have hfound := Text.findIdx?_of_pairwise (hm.distinct.filter _) hi
          (Text.sameName_refl k.name)
        rw [List.findIdx?_map, hstores.name]
        simpa [Function.comp_def, Text.sameName_comm, insertColumns] using hfound
      have hvalue : b.params[i]? = some (.ofValue (Dialect.sqlite.toBound (values.get k.field))) := by
        rw [hbound, List.getElem?_map, hi]
        rfl
      have hcell := Database.getElem?_convert_newCells hpositions hdefaults hstored hposition hvalue
      have haffinity : stored.affinity = .ofType (Sqlite.nativeType k.type) := by
        rw [StoredColumn.affinity, hstores.type]
      rw [haffinity] at hcell
      exact hrow p _ hcell hne

omit hname in
/-- **An insertion runs or is refused.** What is refused is a value that is missing, that is not of
its type or that occurs twice, or a default of the table. -/
theorem inserts_or_refuses (htable : r.model.isView = false) (hne : r.insertColumns ≠ [])
    (values : RowValues) :
    (∃ c', r.Inserts values c c') ∨ ∃ fault, r.Refuses values c fault ∧
      (fault.RefusesRow ∨ ∃ s ∈ t.columns, ∃ b, s.defaultValue b = .error fault) := by
  obtain ⟨o, s, ho, hs⟩ := exists_insert htable hne values
  obtain ⟨hparams, hread⟩ := read_insert hd ho hs
  have hexecute := Connection.execute_of_run hread c s.params
  generalize hb : (⟨s.params.map Datum.ofValue, .epoch⟩ : Bindings) = b at *
  have hwidth : r.insertColumns.length = b.params.length := by simp [← hb, hparams]
  cases hrun : c.run b (.insert r.model.name (some (r.insertColumns.map (·.name)))
      (.listed [(List.range r.insertColumns.length).map .parameter])) with
  | ok written =>
    rw [hrun] at hexecute
    exact .inl ⟨_, o, s, _, ho, hs, hexecute⟩
  | error fault =>
    rw [hrun] at hexecute
    refine .inr ⟨fault, ⟨o, s, ho, hs, hexecute⟩, ?_⟩
    rcases of_bind_eq_error hrun with hperform | ⟨⟨after, out⟩, -, hwritten⟩
    · rw [Connection.perform] at hperform
      have hinsert := of_map_eq_error hperform
      obtain ⟨positions, hpositions⟩ : ∃ positions, Database.valuePositions t r.model.name
          (some (r.insertColumns.map (·.name))) b.params.length false = .ok positions := by
        have hnames : ∀ n ∈ r.insertColumns.map (·.name), (t.column? n).isSome = true := by
          intro n hn
          obtain ⟨k, hk, rfl⟩ := List.mem_map.mp hn
          obtain ⟨s, hs, -⟩ := StoredTable.exists_column? hholds.columns
            (hm.column?_eq_some (List.mem_filter.mp hk).1 (Text.sameName_refl k.name))
          rw [hs]
          rfl
        have hpositions := @Database.exists_valuePositions t r.model.name _ hnames
        rwa [List.length_map, hwidth] at hpositions
      rw [hwidth] at hinsert
      exact (Database.insert_error ht (Database.insertedRows_parameters _ b) hpositions hinsert).imp_right
        fun ⟨s, hs, hdefault⟩ => ⟨s, hs, b, hdefault⟩
    · dsimp only at hwritten
      split at hwritten <;> cases hwritten
      exact .inl trivial

end

/-- **What is inserted is loaded.** An insertion is refused for what is inserted, or adds one row to
those that are loaded. A column gives back the value of its field exactly, and of the values of its
type no other gives the same, unless that is an unsigned integer above the signed range: then the
column gives the double that is stored. -/
theorem loads_of_inserts {mapping : Mapping} {m : Model} (hbuild : Model.build mapping = .ok m)
    (htable : m.isView = false) (hname : isReservedName m.name = false)
    (hvalues : ∃ k ∈ m.columns, k.autoincrement = false) {ignoreCase : Bool} {c : Connection}
    {t : StoredTable} {created : List Index} (ht : c.database.table? m.name = some t)
    (hholds : t.Holds m created) (values : RowValues) :
    let r : Rows := ⟨m, .sqlite, ignoreCase⟩
    (∃ fault, r.Refuses values c fault ∧
        (fault.RefusesRow ∨ ∃ s ∈ t.columns, ∃ b, s.defaultValue b = .error fault)) ∨
      ∃ c' rows rows' row, r.Inserts values c c' ∧ r.Loads c rows ∧ r.Loads c' rows' ∧
        rows'.Perm (row :: rows) ∧
        ∀ k ∈ m.columns, k.autoincrement = false → ∀ s : Scalar, s.type = k.type →
          values.get k.field = s.value →
            row.lookup k.name = some s.datum.toValue ∧
            (s.Exceeds → ∃ x, s.datum.toValue = .float x) ∧
            (¬ s.Exceeds → Scalar.ofValue? k.type s.datum.toValue = some s ∧
              ∀ s' : Scalar, s'.type = k.type → s'.datum.toValue = s.datum.toValue → s' = s) := by
  intro r
  have hm : r.model.Valid := Model.valid_of_build hbuild
  have hd : r.dialect = .sqlite := rfl
  obtain ⟨k₀, hk₀, hauto₀⟩ := hvalues
  have hinserted : r.insertColumns ≠ [] :=
    List.ne_nil_of_mem (List.mem_filter.mpr ⟨hk₀, by simp [hauto₀]⟩)
  have hne : r.model.columns ≠ [] := List.ne_nil_of_mem hk₀
  rcases inserts_or_refuses hd hm ht hholds htable hinserted values with ⟨c', h⟩ | hrefuses
  · obtain ⟨-, t', row, ht', hsame, hperm, hcells⟩ := exists_of_inserts hd hm hname ht hholds h
    refine .inr ⟨c', _, _, m.named row, h, loads_of_holds hd hm hname ht hholds hne,
      loads_of_holds hd hm hname ht' (hholds.of_rows hsame) hne, hperm.map m.named, ?_⟩
    intro k hk hauto s htype hvalue
    obtain ⟨p, hp⟩ := List.mem_iff_getElem?.mp hk
    have hstored : k.stored (values.get k.field) = s.datum := by
      rw [hvalue, Column.stored, ← htype, Scalar.store_value]
    have hcell := hcells p k hp hauto (by rw [hstored]; exact s.datum_ne_null)
    refine ⟨?_, Scalar.toValue_datum_of_exceeds, fun hs => ?_⟩
    · rw [Model.lookup_named hm hp, hcell, hstored]
      rfl
    · rw [← htype]
      exact ⟨Scalar.ofValue?_datum hs, fun s' htype' heq =>
        (Scalar.eq_of_toValue_eq htype'.symm hs heq.symm).symm⟩
  · exact .inl hrefuses

/-- The greatest signed integer of 64 bits comes back from a column of unsigned ones. The greatest
unsigned one comes back as a double. -/
theorem loads_of_inserts_unsigned :
    let r : Rows := ⟨⟨"t", .table,
      [{ field := "id", name := "id", type := .int64, primaryKey := true },
        { field := "n", name := "n", type := .uint64 }], [], []⟩, .sqlite, false⟩
    ∃ c c₁ c₂ : Connection,
      (r.Inserts [("id", .int 1), ("n", .ofUInt64 9223372036854775807)] c c₁ ∧
        ∃ rows, r.Loads c₁ rows ∧ ∃ row ∈ rows, row.lookup "n" = some (.int 9223372036854775807)) ∧
      r.Inserts [("id", .int 1), ("n", .ofUInt64 18446744073709551615)] c c₂ ∧
        ∃ rows, r.Loads c₂ rows ∧ ∃ row ∈ rows, ∃ x, row.lookup "n" = some (.float x) := by
  intro r
  have hbuild : Model.build
      { name := "t"
        fields := [{ name := "id", spelling := "i64", column := some "id", primaryKey := true,
                     notNull := some false },
          { name := "n", spelling := "u64", column := some "n", notNull := some false }] } =
      .ok r.model := rfl
  -- the table is created, and filled in two ways
  let c : Connection := (({} : Connection).execute (Dialect.sqlite.createTable r.model) []).2
  obtain ⟨t, hholds, hhas⟩ := Database.has_of_created (Model.valid_of_build hbuild) (by simp [r]) rfl
    (c := {}) (by decide +kernel)
  have ht : c.database.table? r.model.name = some t := hholds.name ▸ hhas.table?
  have hname : isReservedName r.model.name = false := by decide +kernel
  obtain ⟨_, h₁⟩ : ∃ c₁, r.Inserts [("id", .int 1), ("n", .ofUInt64 9223372036854775807)] c c₁ :=
    exists_inserts (by decide +kernel)
  obtain ⟨_, h₂⟩ : ∃ c₂, r.Inserts [("id", .int 1), ("n", .ofUInt64 18446744073709551615)] c c₂ :=
    exists_inserts (by decide +kernel)
  rcases loads_of_inserts hbuild rfl hname ⟨_, List.mem_cons_self, rfl⟩ ht hholds
      [("id", .int 1), ("n", .ofUInt64 9223372036854775807)] with
    ⟨fault, hrefuses, -⟩ | ⟨c₁, _, rows₁, row₁, hinserts₁, -, hrows₁, hperm₁, hcolumns₁⟩
  · exact absurd h₁ hrefuses.not_inserts
  rcases loads_of_inserts hbuild rfl hname ⟨_, List.mem_cons_self, rfl⟩ ht hholds
      [("id", .int 1), ("n", .ofUInt64 18446744073709551615)] with
    ⟨fault, hrefuses, -⟩ | ⟨c₂, _, rows₂, row₂, hinserts₂, -, hrows₂, hperm₂, hcolumns₂⟩
  · exact absurd h₂ hrefuses.not_inserts
  obtain ⟨hlookup₁, -⟩ := hcolumns₁ _ (List.mem_cons_of_mem _ List.mem_cons_self) rfl
    (.integer .uint64 9223372036854775807 (by decide)) rfl rfl
  obtain ⟨hlookup₂, hfloat, -⟩ := hcolumns₂ _ (List.mem_cons_of_mem _ List.mem_cons_self) rfl
    (.integer .uint64 18446744073709551615 (by decide)) rfl rfl
  obtain ⟨x, hx⟩ := hfloat (by change (2 : Int) ^ 63 ≤ _; decide)
  exact ⟨c, c₁, c₂, ⟨hinserts₁, rows₁, hrows₁, row₁, hperm₁.mem_iff.mpr List.mem_cons_self, hlookup₁⟩,
    hinserts₂, rows₂, hrows₂, row₂, hperm₂.mem_iff.mpr List.mem_cons_self, x,
    hlookup₂.trans (by rw [hx])⟩

end Rows

end EntitySql
