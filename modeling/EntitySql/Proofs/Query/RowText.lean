import EntitySql.Proofs.Database.Inserting
import EntitySql.Proofs.Query.Precedence
import EntitySql.Query.Rows

/-!
# The statements of rows

What SQLite reads where the rows of an entity are inserted and loaded. The statement that inserts a
row names a column and has a marker for each of its values, in the same order; the statement that
loads all rows lists the columns of the model. Both are read to their end, whatever the names are.

## Main results

* `Rows.read_insert`: the statement that inserts a row, and what it binds
* `Rows.read_load`: the statement that loads all rows
-/

namespace EntitySql

open Token Reading

/-! ### Fragments with commas between them -/

theorem flatMap_intercalate {α β : Type} (f : α → List β) (sep : List α) (xs : List (List α)) :
    (sep.intercalate xs).flatMap f = (sep.flatMap f).intercalate (xs.map (·.flatMap f)) := by
  induction xs with
  | nil => rfl
  | cons x xs ih =>
    cases xs with
    | nil => simp
    | cons y ys => simpa [List.intercalate_cons_cons] using ih

theorem Term.listFragments_eq (d : Dialect) (ts : List Term) :
    listFragments d ts = Rows.commaSeparated (ts.map (fragments d)) := by
  induction ts with
  | nil => rfl
  | cons t ts ih =>
    cases ts with
    | nil => simp [listFragments, Rows.commaSeparated]
    | cons u us => simpa [listFragments, Rows.commaSeparated, List.intercalate_cons_cons] using ih

namespace Rows

theorem filledText_commaSeparated (parts : List (List Fragment)) :
    (commaSeparated parts).flatMap Fragment.filledText =
      [',', ' '].intercalate (parts.map (·.flatMap Fragment.filledText)) :=
  flatMap_intercalate Fragment.filledText [.text ", "] parts

theorem leaves_commaSeparated (parts : List (List Fragment)) :
    Fragment.leaves (commaSeparated parts) = (parts.map Fragment.leaves).flatten := by
  induction parts with
  | nil => rfl
  | cons p ps ih =>
    cases ps with
    | nil => simp [commaSeparated]
    | cons q qs => simpa [commaSeparated, List.intercalate_cons_cons] using ih

theorem leaves_slots (n : Nat) :
    Fragment.leaves (commaSeparated (List.replicate n [.slot])) = List.replicate n .arg := by
  have hslot : Fragment.leaves [.slot] = [.arg] := rfl
  rw [leaves_commaSeparated, List.map_replicate, hslot, List.flatten_replicate_singleton]

theorem filledText_slots (n : Nat) :
    (commaSeparated (List.replicate n [.slot])).flatMap Fragment.filledText =
      [',', ' '].intercalate (List.replicate n ['?']) := by
  rw [filledText_commaSeparated, List.map_replicate]
  rfl

/-- Each slot takes the next value. -/
theorem bind_slots (vs : List Value) :
    Leaf.bind (List.replicate vs.length .arg) (vs.map .value) = vs := by
  induction vs with
  | nil => rfl
  | cons v vs ih => exact congrArg (v :: ·) ih

theorem fits_slots (vs : List Value) :
    Leaf.fits (List.replicate vs.length .arg) (vs.map .value) = true := by
  induction vs with
  | nil => rfl
  | cons v vs ih => exact ih

/-! ### Insertions -/

theorem insertArguments_eq (r : Rows) (values : RowValues) : r.insertArguments values =
    (r.insertColumns.map fun c => values.get c.field).map .value := by
  rw [insertArguments, List.map_map]
  rfl

section

variable {r : Rows} (hd : r.dialect = .sqlite) {o : Operation} (ho : r.insert = .ok o)

include ho

/-- An insertion is of a table with a column to insert. -/
theorem insert_eq : r.insertColumns ≠ [] ∧ o = Operation.ofFragments r.dialect
    (.text s!"INSERT INTO {r.dialect.quote r.model.name} (" ::
      .text (r.dialect.quoteAll (r.insertColumns.map (·.name))) :: .text ") VALUES (" ::
      commaSeparated (List.replicate r.insertColumns.length [.slot]) ++ [.text ")"]) := by
  obtain ⟨-, -, ho⟩ := exists_of_bind_eq_ok ho
  dsimp only at ho
  split at ho
  · simp at ho
  · next hcolumns =>
    rw [List.map_const'] at ho
    exact ⟨by simpa using hcolumns, (Except.ok.inj ho).symm⟩

include hd

/-- **The statement that inserts a row** names the columns and binds their values in order. -/
theorem read_insert {values : RowValues} {s : Statement}
    (hs : o.statement (r.insertArguments values) = .ok s) :
    s.params = r.insertColumns.map (fun c => Dialect.sqlite.toBound (values.get c.field)) ∧
      command?.run ⟨Token.ofText s.sql, 0⟩ =
        .ok (some (.insert r.model.name (some (r.insertColumns.map (·.name)))
          (.listed [(List.range r.insertColumns.length).map .parameter])),
          ⟨[], r.insertColumns.length⟩) := by
  obtain ⟨hne, rfl⟩ := insert_eq ho
  rw [hd] at hs
  generalize hnames : r.insertColumns.map (·.name) = names at hs ⊢
  have hlength : r.insertColumns.length = names.length := by rw [← hnames, List.length_map]
  have hfull : names ≠ [] := by simpa [← hnames] using hne
  constructor
  · have hvalues := bind_slots (r.insertColumns.map fun c => values.get c.field)
    rw [List.length_map] at hvalues
    have hleaves : ∀ a b : String, Fragment.leaves (.text a :: .text b :: .text ") VALUES (" ::
        commaSeparated (List.replicate r.insertColumns.length [.slot]) ++ [.text ")"]) =
          List.replicate r.insertColumns.length .arg := by simp [leaves_slots]
    rw [(Operation.params_ofFragments hs).2, hleaves, insertArguments_eq, hvalues, List.map_map]
    rfl
  · have htext := Fragment.text_ofFragments (by simp [leaves_slots]) hs
    have hclose := spells_mark isGap_empty (c := ')') (.inr (.inl rfl)) Spells.nil
    have hmarkers := spells_mark isGap_blank (c := '(') (.inl rfl)
      ((spells_markerItems names.length).append hclose (breaks_cons rfl))
    have hvalues := (spells_word isGap_blank (w := "VALUES") (by decide)).append hmarkers
      (breaks_cons rfl)
    have hspells := spells_insertHead r.model.name names hvalues (breaks_cons rfl)
    have htokens : Token.ofText s.sql = _ := hspells.ofText (htext.trans (by
      simp [filledText_slots, Fragment.filledText, hlength, toString]))
    rw [htokens, hlength]
    exact run_command? rfl (run_insertMarkers hfull r.model.name)

end

/-- There is such a statement for every entity. -/
theorem exists_insert {r : Rows} (htable : r.model.isView = false) (hne : r.insertColumns ≠ [])
    (values : RowValues) :
    ∃ o s, r.insert = .ok o ∧ o.statement (r.insertArguments values) = .ok s := by
  have hinsert : ∃ o, r.insert = .ok o := by
    have hcolumns : r.insertColumns.isEmpty = false := by simpa using hne
    rw [insert, requireTable, htable]
    simp only [hcolumns]
    exact ⟨_, rfl⟩
  obtain ⟨o, ho⟩ := hinsert
  refine ⟨o, o.filled (r.insertArguments values), ho, ?_⟩
  obtain ⟨-, rfl⟩ := insert_eq ho
  have hfits := fits_slots (r.insertColumns.map fun c => values.get c.field)
  rw [List.length_map, ← insertArguments_eq] at hfits
  refine Operation.statement_eq_ok_iff.mpr ⟨?_, rfl⟩
  have hfragments : ∀ fs, (Operation.ofFragments r.dialect fs).fragments = Fragment.normalize fs :=
    fun _ => rfl
  rw [hfragments, Fragment.leaves_normalize]
  simpa [leaves_slots] using hfits

/-! ### Loads -/

section

variable {r : Rows} (hd : r.dialect = .sqlite) (hne : r.model.columns ≠ [])

include hd hne

/-- A load lists the columns of the model. -/
theorem load_eq : r.load none = .ok (Operation.ofFragments .sqlite
    (.text "SELECT " :: commaSeparated (r.model.columnNames.map fun n =>
      [.text (Dialect.sqlite.quote n)]) ++ [.text " FROM ", .text (Dialect.sqlite.quote r.model.name)])) := by
  have hcolumns : r.model.columns.isEmpty = false := by simpa using hne
  have hcompile : ({ r.select with condition := none } : Select).compile =
      .ok ⟨r.model.columns.map fun c => .column none c.name, none, [], []⟩ := by
    simp only [Select.compile, Select.projection, select, Select.ofModel, hcolumns, List.isEmpty_nil]
    rfl
  rw [load, Select.build, hcompile, hd]
  simp only [Except.map, Select.fragments, Term.listFragments_eq, List.map_map]
  congr 2
  simp [Model.columnNames, Function.comp_def, Term.fragments, Term.qualifierText]
  rfl

/-- **The statement that loads all rows** is a query for the columns of the model. -/
theorem read_load : ∃ o s, r.load none = .ok o ∧ o.statement [] = .ok s ∧ s.params = [] ∧
    command?.run ⟨Token.ofText s.sql, 0⟩ = .ok (some (.query (.listing
      (r.model.columnNames.map fun n => (.quoted n, Token.written [ofName " " n])) r.model.name)),
      ⟨[], 0⟩) := by
  generalize hnames : r.model.columnNames = names
  obtain ⟨n, ns, hcons⟩ : ∃ n ns, names = n :: ns :=
    List.exists_cons_of_ne_nil (by simpa [← hnames, Model.columnNames] using hne)
  generalize hfs : (Fragment.text "SELECT " :: commaSeparated (names.map fun n =>
    [Fragment.text (Dialect.sqlite.quote n)]) ++
      [.text " FROM ", .text (Dialect.sqlite.quote r.model.name)]) = fs
  have hload := load_eq hd hne
  rw [hnames, hfs] at hload
  have hleaves : Fragment.leaves fs = [] := by
    simp [← hfs, leaves_commaSeparated, Function.comp_def]
  obtain ⟨s, hs⟩ : ∃ s, (Operation.ofFragments .sqlite fs).statement [] = .ok s := by
    have hfragments : Fragment.leaves (Operation.ofFragments .sqlite fs).fragments = [] :=
      (Fragment.leaves_normalize fs).trans hleaves
    exact ⟨_, Operation.statement_eq_ok_iff.mpr ⟨by rw [hfragments]; rfl, rfl⟩⟩
  have hparams : s.params = [] := by
    rw [(Operation.params_ofFragments hs).2, hleaves]
    rfl
  refine ⟨_, s, hload, hs, hparams, ?_⟩
  -- the list is written with a blank behind each comma, and read with one in front of each name
  have hitems : List.Forall₂ Spells (names.map fun n => [ofName " " n])
      ((names.map fun n => (Dialect.sqlite.quote n).toList).map (' ' :: ·)) := by
    rw [List.map_map, List.forall₂_map_left_iff, List.forall₂_map_right_iff, List.forall₂_same]
    exact fun n _ => spells_name isGap_blank n
  have hspells := (spells_word isGap_empty (w := "SELECT") (by decide)).append
    (spells_listingTokens hitems r.model.name) (by rw [hcons]; cases ns <;> exact breaks_cons rfl)
  have htext := Fragment.text_ofFragments (by simp [hleaves]) hs
  have hlist := intercalate_append [','] [' '] (Dialect.sqlite.quote n).toList
    (ns.map fun n => (Dialect.sqlite.quote n).toList)
  have htokens : Token.ofText s.sql = ofWord "" "SELECT" ::
      listingTokens (names.map fun n => [ofName " " n]) r.model.name := by
    refine hspells.ofText (htext.trans ?_)
    rw [← hfs, hcons]
    simpa [filledText_commaSeparated, Fragment.filledText, Function.comp_def] using hlist
  have hitem : ∀ x ∈ names.map fun n => ([ofName " " n], Phrase.quoted n), Expresses x.1 x.2 := by
    simp [expresses_name]
  have hquery := run_query (by simp [hcons]) hitem r.model.name 0
  rw [List.map_map, List.map_map] at hquery
  rw [htokens]
  refine run_command? rfl ?_
  rw [run_select, listingTokens]
  exact congrArg (Functor.map _) hquery

end

end Rows

end EntitySql
