import EntitySql.Proofs.Model
import EntitySql.Proofs.Outcome
import EntitySql.Proofs.Query.Assembly
import EntitySql.Query.Rows

/-!
# Commands that write rows

A command that writes a row is assembled from the columns of a model, and its arguments are
collected from the values of an entity, each by its own pass over the columns. The two meet by
position only: here it is said that they fit, and what the statement is of which they are the parts.
It names each column that it writes once, and next to it, or at the same place of a second list,
stands the marker of the value of that column's own field. The row is found by the key.

A command is refused exactly if the entity has no place for it: a view is not written, a row without
a key is not found, and a statement without columns is not one.

## Main definitions

* `RowValues.Gives`: the value that an entity has for a field
* `Statement.Inserts`, `Statement.Updates`, `Statement.Deletes`: what a statement does to a table
* `Rows.Assigns`: some columns of an entity, each with the value of its own field
* `Model.Forbids`: the commands that an entity has no place for
* `Rows.WritesOwnValues`: what the commands of an entity do

## Main results

* `Fragment.renders_commaSeparated`: slots between commas take one value each, in order
* `Rows.assigns_filter`: of the columns of a valid model each is assigned once
* `Rows.writesOwnValues`: the commands of an entity write its own values
-/

namespace EntitySql

/-! ### The values of an entity -/

/-- The value that an entity has for a field: that of the first pair with its name, absent if there
is none. -/
inductive RowValues.Gives (field : String) : RowValues → Value → Prop where
  /-- No pair is left. -/
  | absent : Gives field [] .null
  /-- The first pair is the field's. -/
  | first {v : Value} {rest : RowValues} : Gives field ((field, v) :: rest) v
  /-- The first pair is another field's. -/
  | later {name : String} {v w : Value} {rest : RowValues} : name ≠ field → Gives field rest w →
      Gives field ((name, v) :: rest) w

theorem RowValues.gives_get (values : RowValues) (field : String) :
    values.Gives field (values.get field) := by
  induction values with
  | nil => exact .absent
  | cons pair rest ih =>
    obtain ⟨name, v⟩ := pair
    by_cases hname : name = field
    · subst hname
      have hget : RowValues.get ((name, v) :: rest) name = v := by simp [RowValues.get]
      rw [hget]
      exact .first
    · have hget : RowValues.get ((name, v) :: rest) field = RowValues.get rest field := by
        have hother : (field == name) = false := beq_eq_false_iff_ne.mpr (Ne.symm hname)
        simp [RowValues.get, List.lookup_cons, hother]
      rw [hget]
      exact .later hname ih

/-! ### What a statement does -/

namespace Statement

/-- The statement inserts one row: it names the columns of the cells, and at the same place of a
second list stands the marker of each value. -/
structure Inserts (st : Statement) (d : Dialect) (table : String) (cells : List (String × Value)) :
    Prop where
  sql : st.sql = "INSERT INTO " ++ d.quote table ++ " (" ++
    ", ".intercalate (cells.map fun x => d.quote x.1) ++ ") VALUES (" ++
    ", ".intercalate (numbered d 1 cells.length) ++ ")"
  params : st.params = cells.map (·.2)

/-- The statement updates the row of a key: to each column of the cells it assigns the marker of its
value, and with the last one it compares the key. -/
structure Updates (st : Statement) (d : Dialect) (table : String) (cells : List (String × Value))
    (key : String × Value) : Prop where
  sql : st.sql = "UPDATE " ++ d.quote table ++ " SET " ++
    ", ".intercalate (List.zipWith (fun x marker => d.quote x.1 ++ " = " ++ marker) cells
      (numbered d 1 cells.length)) ++
    " WHERE " ++ d.quote key.1 ++ " = " ++ d.marker (cells.length + 1)
  params : st.params = cells.map (·.2) ++ [key.2]

/-- The statement deletes the row of a key. -/
structure Deletes (st : Statement) (d : Dialect) (table : String) (key : String × Value) :
    Prop where
  sql : st.sql = "DELETE FROM " ++ d.quote table ++ " WHERE " ++ d.quote key.1 ++ " = " ++
    d.marker 1
  params : st.params = [key.2]

/-- The statement deletes the rows of a list of keys. -/
structure DeletesAll (st : Statement) (d : Dialect) (table key : String) (values : List Value) :
    Prop where
  sql : st.sql = "DELETE FROM " ++ d.quote table ++ " WHERE " ++ d.quote key ++ " IN (" ++
    (if values.isEmpty then "NULL" else ",".intercalate (numbered d 1 values.length)) ++ ")"
  params : st.params = values

end Statement

/-! ### Slots between commas -/

namespace Fragment

variable {d : Dialect} {next : Nat} {fs gs : List Fragment} {args more : List Argument}
  {sql rest : String} {params others : List Value}

theorem Renders.append (h : Renders d next fs args sql params)
    (h' : Renders d (next + params.length) gs more rest others) :
    Renders d next (fs ++ gs) (args ++ more) (sql ++ rest) (params ++ others) := by
  induction h with
  | nil => simpa using h'
  | text s _ ih =>
    rw [String.append_assoc]
    exact (ih h').text s
  | null _ ih =>
    rw [String.append_assoc]
    exact (ih h').null
  | captured hv _ ih =>
    rw [List.length_cons, Nat.add_comm _ 1, ← Nat.add_assoc] at h'
    rw [String.append_assoc]
    exact (ih h').captured hv
  | slot v _ ih =>
    rw [List.length_cons, Nat.add_comm _ 1, ← Nat.add_assoc] at h'
    rw [String.append_assoc]
    exact (ih h').slot v
  | empty _ ih =>
    rw [String.append_assoc]
    exact (ih h').empty
  | list hvs _ ih =>
    rw [List.length_append, List.length_map, ← Nat.add_assoc] at h'
    rw [String.append_assoc, List.append_assoc]
    exact (ih h').list hvs

/-- **Slots between commas take one value each, in order.** -/
theorem renders_commaSeparated {α : Type} (piece : α → List Fragment) (value : α → Value)
    (write : α → String → String)
    (hpiece : ∀ a next, Renders d next (piece a) [.value (value a)] (write a (d.marker next))
      [d.toBound (value a)]) (as : List α) (next : Nat) :
    Renders d next (Rows.commaSeparated (as.map piece)) (as.map fun a => .value (value a))
      (", ".intercalate (List.zipWith write as (numbered d next as.length)))
      (as.map fun a => d.toBound (value a)) := by
  induction as generalizing next with
  | nil => exact .nil
  | cons a as ih =>
    cases as with
    | nil => simpa [Rows.commaSeparated, numbered] using hpiece a next
    | cons b bs =>
      have hrest := (hpiece a next).append ((ih (next + 1)).text ", ")
      rw [List.length_cons, numbered_succ] at hrest ⊢
      rw [List.length_cons, numbered_succ, List.zipWith_cons_cons, List.zipWith_cons_cons,
        String.intercalate_cons_cons]
      simpa [Rows.commaSeparated, List.intercalate_cons_cons, String.append_assoc] using hrest

end Fragment

/-! ### The columns of a row -/

/-- Of items with different names one has a name of its own. -/
theorem Text.filter_of_pairwise {α : Type} {name : α → String} {xs : List α}
    (h : xs.Pairwise fun a b => sameName (name a) (name b) = false) {a : α} (ha : a ∈ xs) :
    xs.filter (fun x => sameName (name x) (name a)) = [a] := by
  induction xs with
  | nil => cases ha
  | cons b xs ih =>
    obtain ⟨hb, hxs⟩ := List.pairwise_cons.mp h
    rcases List.mem_cons.mp ha with rfl | ha
    · have hself : sameName (name a) (name a) = true := sameName_refl (name a)
      have hrest : xs.filter (fun x => sameName (name x) (name a)) = [] := by
        refine List.filter_eq_nil_iff.mpr fun x hx => ?_
        rw [sameName_comm, hb x hx]
        exact Bool.false_ne_true
      simp only [List.filter_cons, hself, if_true, hrest]
    · rw [List.filter_cons_of_neg (by rw [hb a ha]; exact Bool.false_ne_true), ih hxs ha]

namespace Rows

variable {r : Rows} {values : RowValues}

/-- The cells are those of the columns that take part, each once, with the value of its own field in
the form in which it is bound. -/
structure Assigns (r : Rows) (values : RowValues) (takesPart : Column → Prop)
    (cells : List (String × Value)) : Prop where
  once : ∀ c ∈ r.model.columns, takesPart c → ∃ v, values.Gives c.field v ∧
    cells.filter (fun x => Text.sameName x.1 c.name) = [(c.name, r.dialect.toBound v)]
  spared : ∀ c ∈ r.model.columns, ¬ takesPart c →
    cells.filter (fun x => Text.sameName x.1 c.name) = []
  only : ∀ x ∈ cells, ∃ c ∈ r.model.columns, x.1 = c.name

/-- The cell of a column: its name, and the bound value of its field. -/
def cell (r : Rows) (values : RowValues) (c : Column) : String × Value :=
  (c.name, r.dialect.toBound (values.get c.field))

/-- **Of the columns of a valid model each is assigned once.** -/
theorem assigns_filter (hm : r.model.Valid) {p : Column → Bool} {takesPart : Column → Prop}
    (hp : ∀ c ∈ r.model.columns, p c = true ↔ takesPart c) :
    r.Assigns values takesPart ((r.model.columns.filter p).map (r.cell values)) := by
  have hnamed : ∀ c : Column,
      ((r.model.columns.filter p).map (r.cell values)).filter (fun x => Text.sameName x.1 c.name) =
        ((r.model.columns.filter fun a => Text.sameName a.name c.name).filter p).map
          (r.cell values) := by
    intro c
    rw [List.filter_map, List.filter_comm]
    rfl
  refine ⟨fun c hc htakes => ⟨_, values.gives_get c.field, ?_⟩, fun c hc hspared => ?_,
    fun x hx => ?_⟩
  · rw [hnamed, Text.filter_of_pairwise hm.distinct hc,
      List.filter_cons_of_pos ((hp c hc).mpr htakes)]
    rfl
  · rw [hnamed, Text.filter_of_pairwise hm.distinct hc,
      List.filter_cons_of_neg fun hpc => hspared ((hp c hc).mp hpc)]
    rfl
  · obtain ⟨c, hc, rfl⟩ := List.mem_map.mp hx
    exact ⟨c, (List.mem_filter.mp hc).1, rfl⟩

end Rows

/-! ### What is refused -/

/-- The commands that an entity has no place for, each with the reason that is given. -/
inductive Model.Forbids (m : Model) : RowCommand → Misuse → Prop where
  /-- A view is not written. -/
  | readOnly {command : RowCommand} : m.isView = true → Forbids m command .readOnly
  /-- All columns, if any, are numbered keys. -/
  | nothingToInsert : m.isView = false →
      (∀ c ∈ m.columns, c.primaryKey = true ∧ c.autoincrement = true) →
      Forbids m .insert .nothingToInsert
  /-- There is no key to find a row by. -/
  | noKey {command : RowCommand} : command ≠ .insert → m.isView = false →
      (∀ c ∈ m.columns, c.primaryKey = false) → Forbids m command .noKey
  /-- There is a key and nothing else. -/
  | onlyKey : m.isView = false → m.columns ≠ [] → (∀ c ∈ m.columns, c.primaryKey = true) →
      Forbids m .update .onlyKey

namespace Rows

/-- A command is refused exactly if the model forbids it, and otherwise its call gives a statement
that does what is asked for. -/
structure Performs (r : Rows) (command : RowCommand) (built : Except Error Operation)
    (arguments : List Argument) (does : Statement → Prop) : Prop where
  refused : ∀ error, built = .error error ↔
    ∃ reason, r.model.Forbids command reason ∧ error = .misuse command r.model.name reason
  called : ∀ o, built = .ok o → ∃ st, o.statement arguments = .ok st ∧ does st

/-- The commands of an entity write each value to its own column, in its own row. -/
structure WritesOwnValues (r : Rows) (values : RowValues) : Prop where
  /-- An insertion assigns every column but a numbered key. -/
  insert : r.Performs .insert r.insert (r.insertArguments values) fun st =>
    ∃ cells, st.Inserts r.dialect r.model.name cells ∧
      r.Assigns values (fun c => ¬ (c.primaryKey = true ∧ c.autoincrement = true)) cells
  /-- An update assigns every column but the key, and finds the row by the key. -/
  update : r.Performs .update r.update (r.updateArguments values) fun st =>
    ∃ cells, ∃ key ∈ r.model.columns, ∃ v, key.primaryKey = true ∧ values.Gives key.field v ∧
      st.Updates r.dialect r.model.name cells (key.name, r.dialect.toBound v) ∧
      r.Assigns values (fun c => c.primaryKey = false) cells
  /-- A deletion finds the row by the key. -/
  delete : r.Performs .delete r.delete (r.deleteArguments values) fun st =>
    ∃ key ∈ r.model.columns, ∃ v, key.primaryKey = true ∧ values.Gives key.field v ∧
      st.Deletes r.dialect r.model.name (key.name, r.dialect.toBound v)
  /-- So does one of several rows. -/
  deleteMany : ∀ keys, r.Performs .delete r.deleteMany [.list keys] fun st =>
    ∃ key ∈ r.model.columns, key.primaryKey = true ∧
      st.DeletesAll r.dialect r.model.name key.name (keys.map r.dialect.toBound)

variable {r : Rows} {values : RowValues} {command : RowCommand}

/-- A command does what is asked for if it is refused where the model forbids it and otherwise made
of pieces that are written so. -/
theorem performs_of {built : Except Error Operation} {arguments : List Argument}
    {does : Statement → Prop}
    (hforbidden : ∀ reason, r.model.Forbids command reason →
      built = .error (.misuse command r.model.name reason))
    (hallowed : (∀ reason, ¬ r.model.Forbids command reason) →
      ∃ fs sql params, built = .ok (.ofFragments r.dialect fs) ∧
        Fragment.Renders r.dialect 1 fs arguments sql params ∧ does ⟨sql, params⟩) :
    r.Performs command built arguments does := by
  by_cases hforbids : ∃ reason, r.model.Forbids command reason
  · obtain ⟨reason, hreason⟩ := hforbids
    have hbuilt := hforbidden reason hreason
    refine ⟨fun error => ⟨fun herror => ⟨reason, hreason, ?_⟩, ?_⟩, fun o ho => ?_⟩
    · exact (Except.error.inj (hbuilt.symm.trans herror)).symm
    · rintro ⟨other, hother, rfl⟩
      exact hforbidden other hother
    · cases hbuilt.symm.trans ho
  · obtain ⟨fs, sql, params, hbuilt, hrenders, hdoes⟩ := hallowed (not_exists.mp hforbids)
    refine ⟨fun error => ⟨fun herror => ?_, ?_⟩, fun o ho => ⟨⟨sql, params⟩, ?_, hdoes⟩⟩
    · cases hbuilt.symm.trans herror
    · rintro ⟨reason, hreason, -⟩
      exact absurd ⟨reason, hreason⟩ hforbids
    · rw [← Except.ok.inj (hbuilt.symm.trans ho)]
      exact Operation.statement_ofFragments_iff.mpr hrenders

theorem isView_of_not_forbids (h : ∀ reason, ¬ r.model.Forbids command reason) :
    r.model.isView = false :=
  Bool.eq_false_iff.mpr fun hview => h _ (.readOnly hview)

/-- A command that is not forbidden finds the row by the key. -/
theorem exists_key_of_not_forbids (hcommand : command ≠ .insert)
    (h : ∀ reason, ¬ r.model.Forbids command reason) :
    ∃ key ∈ r.model.columns, key.primaryKey = true ∧ r.model.primaryKey? = some key := by
  cases hkey : r.model.primaryKey? with
  | none =>
    have hnone : ∀ c ∈ r.model.columns, c.primaryKey = false := by
      simpa [Model.primaryKey?] using hkey
    exact absurd (.noKey hcommand (isView_of_not_forbids h) hnone) (h .noKey)
  | some key =>
    exact ⟨key, List.mem_of_find?_eq_some hkey, List.find?_some hkey, rfl⟩

theorem requireTable_of_isView (h : r.model.isView = true) :
    r.requireTable command = .error (.misuse command r.model.name .readOnly) := by
  rw [requireTable, if_pos h]

theorem requireTable_of_not_isView (h : r.model.isView = false) :
    r.requireTable command = .ok () := by
  rw [requireTable, h]
  rfl

theorem requireKey_of_none (h : ∀ c ∈ r.model.columns, c.primaryKey = false) :
    r.requireKey command = .error (.misuse command r.model.name .noKey) := by
  have hnone : r.model.primaryKey? = none := by simpa [Model.primaryKey?] using h
  rw [requireKey, hnone]

theorem requireKey_of_some {key : Column} (h : r.model.primaryKey? = some key) :
    r.requireKey command = .ok key := by
  rw [requireKey, h]

/-! ### Insertions -/

theorem insert_of_forbids {reason : Misuse} (h : r.model.Forbids .insert reason) :
    r.insert = .error (.misuse .insert r.model.name reason) := by
  cases h with
  | readOnly hview =>
    rw [insert, requireTable_of_isView hview]
    rfl
  | nothingToInsert htable hall =>
    have hnone : r.insertColumns = [] := by
      refine List.filter_eq_nil_iff.mpr fun c hc => ?_
      simp [(hall c hc).2]
    rw [insert, requireTable_of_not_isView htable, hnone]
    rfl
  | noKey hcommand => exact absurd rfl hcommand

/-- What the pieces of an insertion are written as. -/
theorem renders_insertion (r : Rows) (values : RowValues) (columns : List Column) :
    ∃ sql params, Fragment.Renders r.dialect 1
      (.text s!"INSERT INTO {r.dialect.quote r.model.name} (" ::
        .text (r.dialect.quoteAll (columns.map (·.name))) :: .text ") VALUES (" ::
        commaSeparated (columns.map fun _ => [.slot]) ++ [.text ")"])
      (columns.map fun c => .value (values.get c.field)) sql params ∧
      Statement.Inserts ⟨sql, params⟩ r.dialect r.model.name (columns.map (r.cell values)) := by
  have hslot : ∀ (c : Column) (next : Nat), Fragment.Renders r.dialect next [.slot]
      [.value (values.get c.field)] (r.dialect.marker next)
      [r.dialect.toBound (values.get c.field)] := by
    intro c next
    simpa using Fragment.Renders.slot (values.get c.field) .nil
  have hmarkers := Fragment.renders_commaSeparated (fun _ => [.slot])
    (fun c : Column => values.get c.field) (fun _ marker => marker) hslot columns 1
  have hvalues := (hmarkers.append (.text ")" .nil)).text ") VALUES ("
  rw [List.append_nil, List.append_nil] at hvalues
  have hzip : List.zipWith (fun _ marker => marker) columns (numbered r.dialect 1 columns.length) =
      numbered r.dialect 1 columns.length := by
    have hlength : (numbered r.dialect 1 columns.length).length ≤ columns.length := by
      simp [numbered]
    have hsnd := List.map_snd_zip hlength
    rwa [List.zip, List.map_zipWith] at hsnd
  refine ⟨_, _, (hvalues.text _).text _, ?_, ?_⟩
  · rw [hzip]
    simp [Dialect.quoteAll, cell, toString, String.append_assoc, Function.comp_def]
  · rw [List.map_map]
    rfl

theorem performs_insert (hm : r.model.Valid) :
    r.Performs .insert r.insert (r.insertArguments values) fun st =>
      ∃ cells, st.Inserts r.dialect r.model.name cells ∧
        r.Assigns values (fun c => ¬ (c.primaryKey = true ∧ c.autoincrement = true)) cells := by
  refine performs_of (fun _ => insert_of_forbids) fun hallowed => ?_
  have htable := isView_of_not_forbids hallowed
  have htakes : ∀ c ∈ r.model.columns, (!c.autoincrement) = true ↔
      ¬ (c.primaryKey = true ∧ c.autoincrement = true) := by
    intro c hc
    have hkey := hm.key_of_autoincrement c hc
    cases hauto : c.autoincrement <;> simp [hauto] at hkey ⊢
    exact hkey
  have hsome : r.insertColumns.isEmpty = false := by
    rw [List.isEmpty_eq_false_iff]
    intro hnone
    refine hallowed _ (.nothingToInsert htable fun c hc => ?_)
    exact not_not.mp fun hpart => List.filter_eq_nil_iff.mp hnone c hc ((htakes c hc).mpr hpart)
  obtain ⟨sql, params, hrenders, hinserts⟩ := renders_insertion r values r.insertColumns
  refine ⟨_, sql, params, ?_, hrenders, _, hinserts, assigns_filter hm htakes⟩
  rw [insert, requireTable_of_not_isView htable]
  simp only [hsome]
  rfl

/-! ### Updates -/

theorem update_of_forbids {reason : Misuse} (h : r.model.Forbids .update reason) :
    r.update = .error (.misuse .update r.model.name reason) := by
  cases h with
  | readOnly hview =>
    rw [update, requireTable_of_isView hview]
    rfl
  | noKey _ htable hnone =>
    rw [update, requireTable_of_not_isView htable, requireKey_of_none hnone]
    rfl
  | onlyKey htable hne hall =>
    have hnone : r.updateColumns = [] := by
      refine List.filter_eq_nil_iff.mpr fun c hc => ?_
      simp [hall c hc]
    obtain ⟨key, hkey⟩ : ∃ key, r.model.primaryKey? = some key := by
      obtain ⟨c, hc⟩ := List.exists_mem_of_ne_nil _ hne
      exact Option.isSome_iff_exists.mp (List.find?_isSome.mpr ⟨c, hc, hall c hc⟩)
    rw [update, requireTable_of_not_isView htable, requireKey_of_some hkey, hnone]
    rfl

/-- What the pieces of an update are written as. -/
theorem renders_update (r : Rows) (values : RowValues) (columns : List Column) (key : Column) :
    ∃ sql params, Fragment.Renders r.dialect 1
      (.text s!"UPDATE {r.dialect.quote r.model.name} SET " ::
        commaSeparated (columns.map fun c => [.text (r.dialect.quote c.name ++ " = "), .slot]) ++
        [.text s!" WHERE {r.dialect.quote key.name} = ", .slot])
      ((columns ++ [key]).map fun c => .value (values.get c.field)) sql params ∧
      Statement.Updates ⟨sql, params⟩ r.dialect r.model.name (columns.map (r.cell values))
        (r.cell values key) := by
  have hpiece : ∀ (c : Column) (next : Nat), Fragment.Renders r.dialect next
      [.text (r.dialect.quote c.name ++ " = "), .slot] [.value (values.get c.field)]
      (r.dialect.quote c.name ++ " = " ++ r.dialect.marker next)
      [r.dialect.toBound (values.get c.field)] := by
    intro c next
    simpa using (Fragment.Renders.slot (values.get c.field) .nil).text
      (r.dialect.quote c.name ++ " = ")
  have hassigned := Fragment.renders_commaSeparated
    (fun c => [.text (r.dialect.quote c.name ++ " = "), .slot])
    (fun c : Column => values.get c.field)
    (fun c marker => r.dialect.quote c.name ++ " = " ++ marker) hpiece columns 1
  have hrenders := hassigned.append ((Fragment.Renders.slot (values.get key.field) .nil).text
    s!" WHERE {r.dialect.quote key.name} = ")
  rw [List.map_append]
  refine ⟨_, _, hrenders.text _, ?_, ?_⟩
  · simp [cell, toString, String.append_assoc, List.zipWith_map_left, Nat.add_comm]
  · simp [cell]

theorem performs_update (hm : r.model.Valid) :
    r.Performs .update r.update (r.updateArguments values) fun st =>
      ∃ cells, ∃ key ∈ r.model.columns, ∃ v, key.primaryKey = true ∧ values.Gives key.field v ∧
        st.Updates r.dialect r.model.name cells (key.name, r.dialect.toBound v) ∧
        r.Assigns values (fun c => c.primaryKey = false) cells := by
  refine performs_of (fun _ => update_of_forbids) fun hallowed => ?_
  have htable := isView_of_not_forbids hallowed
  obtain ⟨key, hmem, hkey, hfound⟩ := exists_key_of_not_forbids (by decide) hallowed
  have hsome : r.updateColumns.isEmpty = false := by
    rw [List.isEmpty_eq_false_iff]
    intro hnone
    refine hallowed _ (.onlyKey htable (List.ne_nil_of_mem hmem) fun c hc => ?_)
    simpa using List.filter_eq_nil_iff.mp hnone c hc
  have harguments : r.updateArguments values =
      (r.updateColumns ++ [key]).map fun c => .value (values.get c.field) := by
    rw [updateArguments, hfound]
    rfl
  obtain ⟨sql, params, hrenders, hupdates⟩ := renders_update r values r.updateColumns key
  rw [harguments]
  refine ⟨_, sql, params, ?_, hrenders, _, key, hmem, _, hkey, values.gives_get key.field, hupdates,
    assigns_filter hm fun c _ => by simp⟩
  rw [update, requireTable_of_not_isView htable, requireKey_of_some hfound]
  dsimp only [bind, Except.bind]
  rw [hsome]
  rfl

/-! ### Deletions -/

theorem delete_of_forbids {reason : Misuse} (h : r.model.Forbids .delete reason) :
    r.delete = .error (.misuse .delete r.model.name reason) ∧
      r.deleteMany = .error (.misuse .delete r.model.name reason) := by
  cases h with
  | readOnly hview =>
    rw [delete, deleteMany, requireTable_of_isView hview]
    exact ⟨rfl, rfl⟩
  | noKey _ htable hnone =>
    rw [delete, deleteMany, requireTable_of_not_isView htable, requireKey_of_none hnone]
    exact ⟨rfl, rfl⟩

theorem performs_delete :
    r.Performs .delete r.delete (r.deleteArguments values) fun st =>
      ∃ key ∈ r.model.columns, ∃ v, key.primaryKey = true ∧ values.Gives key.field v ∧
        st.Deletes r.dialect r.model.name (key.name, r.dialect.toBound v) := by
  refine performs_of (fun _ h => (delete_of_forbids h).1) fun hallowed => ?_
  have htable := isView_of_not_forbids hallowed
  obtain ⟨key, hmem, hkey, hfound⟩ := exists_key_of_not_forbids (by decide) hallowed
  have harguments : r.deleteArguments values = [.value (values.get key.field)] := by
    rw [deleteArguments, hfound]
    rfl
  have hbuilt : r.delete = .ok (.ofFragments r.dialect
      [.text s!"DELETE FROM {r.dialect.quote r.model.name} WHERE {r.dialect.quote key.name} = ",
        .slot]) := by
    rw [delete, requireTable_of_not_isView htable, requireKey_of_some hfound]
    rfl
  rw [harguments]
  refine ⟨_, _, _, hbuilt, (Fragment.Renders.slot (values.get key.field) .nil).text _, key, hmem, _,
    hkey, values.gives_get key.field, ?_, rfl⟩
  simp [toString, String.append_assoc]

theorem performs_deleteMany (keys : List Value) :
    r.Performs .delete r.deleteMany [.list keys] fun st =>
      ∃ key ∈ r.model.columns, key.primaryKey = true ∧
        st.DeletesAll r.dialect r.model.name key.name (keys.map r.dialect.toBound) := by
  refine performs_of (fun _ h => (delete_of_forbids h).2) fun hallowed => ?_
  have htable := isView_of_not_forbids hallowed
  obtain ⟨key, hmem, hkey, hfound⟩ := exists_key_of_not_forbids (by decide) hallowed
  have hbuilt : r.deleteMany = .ok (.ofFragments r.dialect
      [.text s!"DELETE FROM {r.dialect.quote r.model.name} WHERE {r.dialect.quote key.name} IN (",
        .listSlot, .text ")"]) := by
    rw [deleteMany, requireTable_of_not_isView htable, requireKey_of_some hfound]
    rfl
  by_cases hkeys : keys = []
  · subst hkeys
    refine ⟨_, _, _, hbuilt, ((Fragment.Renders.text ")" .nil).empty).text _, key, hmem, hkey, ?_,
      rfl⟩
    simp [toString, String.append_assoc]
  · refine ⟨_, _, _, hbuilt, ((Fragment.Renders.text ")" .nil).list hkeys).text _, key, hmem, hkey,
      ?_, List.append_nil _⟩
    simp [toString, String.append_assoc, hkeys]

/-- **The commands of an entity write its own values.** Each that its model does not forbid accepts
the arguments collected for it and gives a statement in which every column that it writes stands
once, with the marker of the value of its own field, and which finds the row by the key. -/
theorem writesOwnValues {mapping : Mapping} (h : Model.build mapping = .ok r.model)
    (values : RowValues) : r.WritesOwnValues values where
  insert := performs_insert (Model.valid_of_build h)
  update := performs_update (Model.valid_of_build h)
  delete := performs_delete
  deleteMany := performs_deleteMany

/-- The key of a note is declared between two columns, one of which has not the name of its field
and the other no value. -/
theorem writesOwnValues_note :
    ∃ (mapping : Mapping) (r : Rows), Model.build mapping = .ok r.model ∧
      r.WritesOwnValues [("id", .int 7), ("title", .text "x")] ∧
      (do
          let o ← r.update
          o.statement (r.updateArguments [("id", .int 7), ("title", .text "x")])) =
        .ok ⟨"UPDATE \"note\" SET \"heading\" = $1, \"body\" = $2 WHERE \"id\" = $3",
          [.text "x", .null, .int 7]⟩ := by
  have hbuild : Model.build
      { name := "note"
        fields :=
          [{ name := "title", spelling := "String", column := some "heading" },
            { name := "id", spelling := "i64", primaryKey := true, autoincrement := true },
            { name := "body", spelling := "String" }] } =
      .ok ⟨"note", .table, [{ field := "title", name := "heading", type := .text },
        { field := "id", name := "id", type := .int64, primaryKey := true, autoincrement := true,
          notNull := true }, { field := "body", name := "body", type := .text }], [], []⟩ := by
    decide +kernel
  refine ⟨_, ⟨_, .postgres, false⟩, hbuild, writesOwnValues hbuild _, ?_⟩
  decide +kernel

end Rows

end EntitySql
