import EntitySql.Proofs.Database.TableInvariant

/-!
# The numbers of rows

Rows stand in the order of their numbers, no two of which are equal, and the table of the last
numbers has the name and the columns that the database made it with: its name is reserved, so that
no statement can create, alter or rename it, although statements may write its rows like those of
any other table. Every statement keeps both (`Database.Sound`), so they hold of every database that
statements have made of an empty one.

That rows are told by their numbers is what a deletion relies on, which removes the rows whose
numbers it has found. That the table of the last numbers is as it was made is what everything
relies on that looks up a number there.

What is said of a database that texts have made is said of one in which no table is linked to
another: by a foreign key or a trigger SQLite writes other tables than the one that a statement
names, or refuses the statement. Neither can be declared here, and a text that does so is refused
where SQLite takes it. So such texts are left out (`Token.areUnlinked`), as are all others that are
not read to their end, and with them the databases that they make.

## Main definitions

* `StoredTable.Sound`, `Database.Sound`: the order of rows, and the table of the last numbers
* `Database.ReachedUnlinked`: the databases that texts without foreign keys and triggers make of an
  empty one

## Main results

* `StoredTable.isInvariant_sound`: however a table is changed, it stays sound
* `Database.Step.sound`, `Database.ReachedUnlinked.sound`: every statement, and every run of texts
-/

namespace EntitySql

open Database

namespace StoredTable

/-- The rows stand in the order of their numbers, and a table of a reserved name is that of the last
numbers. -/
structure Sound (t : StoredTable) : Prop where
  ordered : t.numbers.Pairwise (· < ·)
  sequences : isReservedName t.name = true →
    t.name = sequenceName ∧ t.columns = sequences.columns ∧ t.neverReuses = false

variable {t t' : StoredTable}

/-- Other rows with the same numbers, and other indexes. -/
theorem Sound.withIndexes (h : t.Sound) {rows : List StoredRow} (indexes : List StoredIndex)
    (hnumbers : rows.map StoredRow.number = t.numbers) : Sound { t with rows, indexes } := by
  refine ⟨?_, h.sequences⟩
  rw [numbers, hnumbers]
  exact h.ordered

/-- Of a table whose name is not reserved only the numbers matter. -/
theorem sound_of_free (hfree : isReservedName t.name = false)
    (hordered : t.numbers.Pairwise (· < ·)) : t.Sound :=
  ⟨hordered, fun hreserved => absurd (hfree.symm.trans hreserved) Bool.false_ne_true⟩

/-- Rows that are taken out leave the others in order. -/
theorem Sound.withRows (h : t.Sound) {rows : List StoredRow}
    (hordered : (rows.map StoredRow.number).Pairwise (· < ·)) : Sound { t with rows } :=
  ⟨hordered, h.sequences⟩

theorem Sound.filter (h : t.Sound) (p : StoredRow → Bool) :
    Sound { t with rows := t.rows.filter p } :=
  h.withRows (h.ordered.sublist (List.filter_sublist.map _))

/-- A row of a new number is placed in order. -/
theorem ordered_place {row : StoredRow} {rows : List StoredRow}
    (h : (rows.map StoredRow.number).Pairwise (· < ·))
    (hnew : ∀ r ∈ rows, r.number ≠ row.number) :
    ((place row rows).map StoredRow.number).Pairwise (· < ·) := by
  induction rows with
  | nil => exact List.pairwise_singleton _ _
  | cons r rows ih =>
    obtain ⟨hr, hrows⟩ := List.pairwise_cons.mp h
    rw [place]
    split
    · next hlt =>
      refine List.pairwise_cons.mpr ⟨fun n hn => ?_, h⟩
      rcases List.mem_cons.mp hn with rfl | hn
      · exact hlt
      · exact Int.lt_trans hlt (hr n hn)
    · next hle =>
      refine List.pairwise_cons.mpr ⟨fun n hn => ?_, ih hrows fun r' hr' =>
        hnew r' (List.mem_cons_of_mem r hr')⟩
      have hne : r.number ≠ row.number := hnew r List.mem_cons_self
      have hmem : n ∈ (row :: rows).map StoredRow.number :=
        ((place_perm row rows).map StoredRow.number).mem_iff.mp hn
      rcases List.mem_cons.mp hmem with rfl | hmem
      · omega
      · exact hr n hmem

/-- The number behind the last row is greater than all numbers. -/
theorem ordered_append (h : t.numbers.Pairwise (· < ·)) (cells : Record) :
    ((t.rows ++ [StoredRow.mk ((t.rows.getLast?.map fun r => r.number + 1).getD 1) cells]).map
      StoredRow.number).Pairwise (· < ·) := by
  rw [List.map_append, List.pairwise_append]
  refine ⟨h, List.pairwise_singleton _ _, fun n hn m hm => ?_⟩
  obtain rfl := List.mem_singleton.mp hm
  rcases List.eq_nil_or_concat t.rows with hnil | ⟨front, last, hrows⟩
  · rw [hnil] at hn
    cases hn
  · rw [List.concat_eq_append] at hrows
    have hlast : n ≤ last.number := by
      rw [numbers, hrows, List.map_append, List.pairwise_append] at h
      rw [hrows, List.map_append] at hn
      rcases List.mem_append.mp hn with hn | hn
      · exact Int.le_of_lt (h.2.2 n hn last.number (by simp))
      · exact Int.le_of_eq (List.mem_singleton.mp hn)
    simp only [hrows, List.getLast?_append, List.getLast?_singleton, Option.some_or,
      Option.map_some, Option.getD_some]
    omega

theorem ne_of_hasNumber {n : Int} (h : t.hasNumber n = false) : ∀ r ∈ t.rows, r.number ≠ n := by
  simpa [hasNumber] using h

theorem Sound.insertRow (h : t.Sound) {last n : Int} {given : Record}
    (hinsert : t.insertRow last given = .ok (t', n)) : t'.Sound := by
  obtain ⟨-, -, hnumber, -, rfl⟩ := insertRow_cases hinsert
  exact h.withRows (ordered_place h.ordered (ne_of_hasNumber hnumber))

theorem Sound.replaceRow (h : t.Sound) {n : Int} {given : Record}
    (hreplace : t.replaceRow n given = .ok t') : t'.Sound := by
  obtain ⟨m, hnumber, rfl⟩ := replaceRow_cases hreplace
  exact h.withRows (ordered_place (h.filter _).ordered (ne_of_hasNumber hnumber))

/-- A table whose name is not reserved stays sound with other columns. -/
theorem Sound.withNumbers (h : t.Sound) (hfree : isReservedName t.name = false)
    (hchanged : t'.name = t.name ∧ t'.numbers = t.numbers) : t'.Sound :=
  sound_of_free (hchanged.1 ▸ hfree) (hchanged.2 ▸ h.ordered)

/-- **However a table is changed**, it stays sound. -/
theorem isInvariant_sound : IsInvariant Sound where
  created hfree h := by
    obtain ⟨hname, hrows⟩ := rows_ofClause h
    exact sound_of_free (hname ▸ hfree) (by simp [numbers, hrows])
  sequences := ⟨.nil, fun _ => ⟨rfl, rfl, rfl⟩⟩
  indexed _ h _ _ := h.withIndexes _ rfl
  unindexed _ h := h.withIndexes _ rfl
  renamed h hfree := sound_of_free hfree h.ordered
  columnAdded h hfree hadd := h.withNumbers hfree (numbers_addColumn hadd)
  columnDropped h hfree hdrop _ := h.withNumbers hfree (numbers_dropColumn hdrop)
  inserted h hinsert := h.insertRow hinsert
  replaced h hreplace := h.replaceRow hreplace
  deleted p h := h.filter p
  recounted p cells h := by
    refine h.withIndexes _ ?_
    rw [numbers, List.map_map]
    refine List.map_congr_left fun r _ => ?_
    simp only [Function.comp_apply]
    split <;> rfl
  counted cells h := h.withRows (ordered_append h.ordered cells)

end StoredTable

namespace Database

variable {db db' : Database}

/-- Tables and indexes have names of their own, and the tables are sound. -/
structure Sound (db : Database) : Prop where
  named : db.Named
  tables : ∀ t ∈ db.tables, t.Sound

theorem sound_empty : Sound {} := ⟨named_empty, by simp⟩

/-- **Every statement** leaves a database sound. -/
theorem Step.sound (h : db.Step db') (hdb : db.Sound) : db'.Sound :=
  ⟨h.named hdb.named, h.forall_tables StoredTable.isInvariant_sound hdb.named hdb.tables⟩

end Database

/-! ### Runs of statements -/

/-- Takes the statements of a text, at most `n`. -/
def Reading.commands : Nat → Reading (List Command)
  | 0 => refuse
  | n + 1 => do
    match ← command? with
    | none => return []
    | some command => return command :: (← commands n)

/-- The words of a text without which no foreign key and no trigger is declared. -/
def Token.linkingWords : List String := ["REFERENCES", "TRIGGER"]

/-- Whether a text is read to its end, statement by statement, and declares no foreign key and no
trigger. -/
def Token.areUnlinked (tokens : List Token) : Bool :=
  ((Reading.commands (tokens.length + 1)).run ⟨tokens, 0⟩).isOk &&
    tokens.all fun t => linkingWords.all fun w => !t.isWord w

namespace Database

/-- The databases that texts make of an empty one, if each is read to its end and declares neither a
foreign key nor a trigger. Statements may be refused when they are run, and values be bound. -/
inductive ReachedUnlinked : Database → Prop
  | empty : ReachedUnlinked {}
  | execute {c : Connection} {sql : String} {params : List Value}
      (h : ReachedUnlinked c.database) (hsql : Token.areUnlinked (Token.ofText sql) = true) :
      ReachedUnlinked (c.execute sql params).2.database

/-- **Every database that is reached is sound.** -/
theorem ReachedUnlinked.sound {db : Database} (h : db.ReachedUnlinked) : db.Sound := by
  induction h with
  | empty => exact sound_empty
  | @execute c sql params _ _ ih =>
    refine Connection.execute_invariant (P := fun d => d.database.Sound) (fun hd hrun => ?_) ih sql
      params
    exact (Connection.step_perform (Connection.perform_of_run hrun)).sound hd

end Database

end EntitySql
