import EntitySql.Proofs.Client.Running
import EntitySql.Proofs.Database.ChangeReading
import EntitySql.Proofs.Database.Numbering
import EntitySql.Proofs.Database.Written
import Mathlib.Data.List.Nodup

/-!
# Emptying a table

A table is emptied by one statement that names it between quotes, and its numbering restarted by
another that looks for its name, as a text, among the last numbers. The two do not find the same
table: a name between quotes stands for a table whatever the case of its letters, whereas a text
equals only itself. So a table that is emptied under its name in other letters keeps its last
number, and goes on counting where it had stopped.

Everything else is as one would have it. Other tables keep their rows and their last numbers, for
which it matters that rows are told by their numbers (`Database.Sound`); and when anything is
refused, the transaction takes back all of it. The one exception is the table of the last numbers
itself: when that is emptied, all counters are gone.

All this is said of databases without foreign keys and triggers (`Database.ReachedUnlinked`). Where
SQLite has them, a deletion may write other tables, or be refused although the table is there.

## Main definitions

* `Database.nextKey`: the number that the next row of a table gets
* `Database.Empties`: what becomes of a database when a table is emptied

## Main results

* `Database.delete_all`, `Database.delete_isEntry`: what the two statements do
* `Session.runOn_truncate_ok`, `Session.runOn_truncate_error`: when a table is emptied
* `Session.truncate_empties`: what emptying a table does, and when the numbering restarts
-/

namespace EntitySql

open Token Reading

/-! ### The two statements -/

/-- The condition that picks the entry of a table among the last numbers. -/
def Phrase.isEntry (name : String) : Phrase :=
  .binary (.column none "name") .equal (.datum (.text name))

section Texts

variable (name : String) (k : Nat)

/-- The statement that empties a table. -/
def emptyingSql : String := "DELETE FROM " ++ Text.Quoted.enclose '"' '"' name

/-- The statement that restarts the numbering of a table. -/
def restartingSql : String := "DELETE FROM sqlite_sequence WHERE name = " ++ textLiteral name

theorem truncate_sqlite (restarts : Bool) : Dialect.sqlite.truncate name restarts =
    emptyingSql name :: if restarts then [restartingSql name] else [] := rfl

theorem read_emptying : command?.run ⟨ofText (emptyingSql name), k⟩ =
    .ok (some (.delete name none), ⟨[], k⟩) := by
  have htext : ofText (emptyingSql name) =
      ofWord "" "DELETE" :: (ofWords ["FROM"] ++ [ofName " " name]) := by
    refine Dialect.ofText_named (by decide) (by decide) ?_
    simp [emptyingSql, spacedWords, quote_sqlite]
  have hname := run_objectName " " name [] (by simp) k
  have hnone : (behind "WHERE" phrase).run ⟨[], k⟩ = .ok (none, ⟨[], k⟩) := rfl
  rw [htext]
  refine run_command? rfl ?_
  simp [command, ofWords, isWord_ofWord, hname, hnone]

theorem read_restarting : command?.run ⟨ofText (restartingSql name), k⟩ =
    .ok (some (.delete Database.sequenceName (some (.isEntry name))), ⟨[], k⟩) := by
  have hwords : ∀ w ∈ ["FROM", "sqlite_sequence", "WHERE", "name"],
      isWordText w.toList = true := by decide
  have hsign : Operator.equal ≠ .bitXor := by decide
  have hequal : Spells [⟨[' '], ['='], .symbol⟩] [' ', '='] := Operator.spells_tokens hsign
  have hcondition := hequal.append (spells_literal isGap_blank name) (breaks_cons rfl)
  have hwhere := (spells_words hwords).append hcondition (breaks_cons rfl)
  have hall := (spells_word isGap_empty (w := "DELETE") (by decide)).append hwhere
    ((breaks_spacedWords _).append (breaks_cons rfl))
  have hkeywords : "DELETE FROM sqlite_sequence WHERE name = ".toList = "".toList ++
      "DELETE".toList ++ (spacedWords ["FROM", "sqlite_sequence", "WHERE", "name"] ++
        ([' ', '='] ++ " ".toList)) := by simp [spacedWords]
  have hsql : (restartingSql name).toList = _ := String.toList_append
  rw [hkeywords] at hsql
  simp only [List.append_assoc] at hsql hall
  rw [hall.ofText hsql]
  rfl

end Texts

/-! ### What they do to a database -/

/-- Texts are compared character by character. -/
theorem Datum.compareChars_eq_iff {as bs : List Char} : compareChars as bs = .eq ↔ as = bs := by
  induction as generalizing bs with
  | nil => cases bs <;> simp [compareChars]
  | cons a as ih =>
    cases bs with
    | nil => simp [compareChars]
    | cons b bs =>
      have hchar : a.toNat = b.toNat ↔ a = b := Char.toNat_inj
      simp [compareChars, Ordering.then_eq_eq, ih, hchar]

/-- A cell equals a text if it is that text. -/
theorem Formula.isTrue_combine_text (d : Datum) (s : String) :
    (combine (some .blob) d .equal none (.text s)).isTrue = (d == .text s) := by
  have htext : ∀ s', (combine (some .blob) (.text s') .equal none (.text s)).isTrue =
      (Datum.compareChars s'.toList s.toList == .eq) := by
    intro s'
    change (Datum.ofTruth (some (Datum.compareChars s'.toList s.toList == .eq))).isTrue = _
    cases Datum.compareChars s'.toList s.toList == .eq <;> rfl
  cases d with
  | text s' =>
    rw [htext, Bool.eq_iff_iff, beq_iff_eq, beq_iff_eq, Datum.compareChars_eq_iff,
      String.toList_inj, Datum.text.injEq]
  | null | int _ | real _ | blob _ => rfl

namespace Database

variable {db : Database} {name : String} {t : StoredTable}

/-- The database without the rows of a table. -/
def emptied (db : Database) (name : String) : Database :=
  db.changeTable name fun t => { t with rows := [] }

/-- A deletion without a condition leaves no row. -/
theorem delete_all (ht : db.table? name = some t) (b : Bindings) :
    db.delete b name none = .ok (db.emptied name, t.rows.length) := by
  have hwritable : db.writable name = .ok t := by rw [writable, ht]; rfl
  have hkept : t.rows.filter (fun r => !t.rows.any (·.number == r.number)) = [] := by
    rw [List.filter_eq_nil_iff]
    intro r hr
    simpa using ⟨r, hr, rfl⟩
  rw [delete, hwritable, ok_bind]
  change Except.ok (db.changeTable name fun u => { u with
    rows := t.rows.filter fun r => !t.rows.any (·.number == r.number) }, t.rows.length) = _
  rw [hkept]
  rfl

/-- Nothing is deleted from what is no table. -/
theorem exists_delete_error (ht : db.table? name = none) (b : Bindings)
    (condition : Option Phrase) : ∃ fault, db.delete b name condition = .error fault := by
  have hwritable : ∃ fault, db.writable name = .error fault := by
    rw [writable, ht]
    dsimp only
    cases db.view? name with
    | none => exact ⟨_, rfl⟩
    | some v =>
      cases hview : db.requireView v.name with
      | error fault => exact ⟨fault, by simp [hview]⟩
      | ok _ => exact ⟨.writtenView v.name, by simp [hview]⟩
  obtain ⟨fault, hfault⟩ := hwritable
  exact ⟨fault, by rw [delete, hfault]; rfl⟩

/-- The table of the last numbers is as it was made. -/
theorem Sound.sequences (hdb : db.Sound) {s : StoredTable} (hs : s ∈ db.tables)
    (hname : Text.sameName s.name sequenceName = true) :
    s.name = sequenceName ∧ s.columns = StoredTable.sequences.columns ∧ s.neverReuses = false := by
  refine (hdb.tables s hs).sequences ?_
  by_contra hfree
  rw [Bool.not_eq_true] at hfree
  rw [Text.sameName_comm] at hname
  rw [sameName_of_isReservedName hfree isReservedName_sequenceName] at hname
  exact absurd hname (by decide)

/-- It is found under exactly its name. -/
theorem Sound.hasTable_sequenceName (hdb : db.Sound) :
    db.hasTable sequenceName = (db.table? sequenceName).isSome := by
  rw [hasTable, table?, Bool.eq_iff_iff, List.any_eq_true, List.find?_isSome]
  constructor
  · rintro ⟨s, hs, hname⟩
    rw [beq_iff_eq] at hname
    exact ⟨s, hs, hname ▸ Text.sameName_refl _⟩
  · rintro ⟨s, hs, hname⟩
    exact ⟨s, hs, by rw [(hdb.sequences hs hname).1]; exact beq_self_eq_true _⟩

/-- The rows that are the entry of a table. -/
theorem rowsWhere_isEntry {s : StoredTable} (hname : s.name = sequenceName)
    (hcolumns : s.columns = StoredTable.sequences.columns) (b : Bindings) (name : String) :
    rowsWhere s b (some (.isEntry name)) =
      .ok (s.rows.filter fun r => r.cells.head? == some (.text name)) := by
  have hheadings : s.headings s.name = StoredTable.sequences.headings sequenceName := by
    rw [StoredTable.headings, hcolumns, hname]
    rfl
  have hresolve : Phrase.resolveOption ⟨b, s.headings s.name, [], false, false⟩
      (some (.isEntry name)) =
        .ok (some (.binary (.cell 0 (some .blob)) .equal (.datum (.text name)))) := by
    rw [hheadings]
    rfl
  rw [rowsWhere]
  dsimp only
  rw [hresolve, ok_bind]
  refine filterM_eq_ok fun r _ => ?_
  have hcell : (r.cells[0]?.getD .null == .text name) = (r.cells.head? == some (.text name)) := by
    cases r.cells <;> rfl
  rw [← hcell, ← Formula.isTrue_combine_text]
  rfl

/-- Rows that are picked are told from the others by their numbers. -/
theorem any_number_filter {rows : List StoredRow}
    (h : (rows.map StoredRow.number).Pairwise (· < ·)) (p : StoredRow → Bool) :
    ∀ r ∈ rows, (rows.filter p).any (·.number == r.number) = p r := by
  have hnodup : (rows.map StoredRow.number).Nodup := h.imp fun hlt => Int.ne_of_lt hlt
  intro r hr
  rw [Bool.eq_iff_iff, List.any_eq_true]
  constructor
  · rintro ⟨r', hr', hnumber⟩
    obtain ⟨hmem, hp⟩ := List.mem_filter.mp hr'
    rw [beq_iff_eq] at hnumber
    obtain rfl : r' = r := List.inj_on_of_nodup_map hnodup hmem hr hnumber
    exact hp
  · exact fun hp => ⟨r, List.mem_filter.mpr ⟨hr, hp⟩, beq_self_eq_true _⟩

/-- The deletion of an entry forgets the last number of the table. -/
theorem delete_isEntry (hdb : db.Sound) {s : StoredTable} (hs : db.table? sequenceName = some s)
    (b : Bindings) (name : String) : ∃ count,
      db.delete b sequenceName (some (.isEntry name)) = .ok (db.forgetLastNumber name, count) := by
  obtain ⟨hmem, hsame⟩ := of_table? hs
  obtain ⟨hname, hcolumns, -⟩ := hdb.sequences hmem hsame
  have hwritable : db.writable sequenceName = .ok s := by rw [writable, hs]; rfl
  refine ⟨(s.rows.filter fun r => r.cells.head? == some (.text name)).length, ?_⟩
  rw [delete, hwritable, ok_bind, rowsWhere_isEntry hname hcolumns, ok_bind]
  refine congrArg (fun db' => Except.ok (db', _)) ?_
  rw [forgetLastNumber, changeTable, changeTable]
  refine congrArg (Database.mk · db.views) (List.map_congr_left fun u hu => ?_)
  split
  · next hu' =>
    obtain rfl : s = u := Option.some.inj (hs.symm.trans (hdb.named.table?_eq hu hu'))
    refine congrArg (fun rows => { s with rows }) (List.filter_congr fun r hr => ?_)
    rw [any_number_filter (hdb.tables s hu).ordered _ r hr]
    rfl
  · rfl

/-! ### Tables and last numbers afterwards -/

theorem table?_changeTable_self {f : StoredTable → StoredTable}
    (hname : ∀ u, (f u).name = u.name) :
    (db.changeTable name f).table? name = (db.table? name).map f := by
  rw [table?_changeTable_eq hname]
  cases hfound : db.table? name with
  | none => rfl
  | some u =>
    have hu : Text.sameName u.name name = true := (of_table? hfound).2
    rw [Option.map_some, Option.map_some, if_pos hu]

/-- Last numbers are looked up in one table. -/
theorem lastNumber_congr {db' : Database}
    (h : db'.table? sequenceName = db.table? sequenceName) (table : String) :
    db'.lastNumber table = db.lastNumber table := by
  rw [lastNumber, lastNumber, numberRow?, numberRow?, h]

theorem lastNumber_of_rows_nil
    (h : ((db.table? sequenceName).map StoredTable.rows).getD [] = []) (table : String) :
    db.lastNumber table = 0 := by
  rw [lastNumber, numberRow?, h]
  rfl

/-- The last number of one table is forgotten, and no other. -/
theorem lastNumber_forgetLastNumber (db : Database) (table other : String) :
    (db.forgetLastNumber table).lastNumber other =
      if other = table then 0 else db.lastNumber other := by
  have hrow : (db.forgetLastNumber table).numberRow? other =
      if other = table then none else db.numberRow? other := by
    have htable : (db.forgetLastNumber table).table? sequenceName =
        (db.table? sequenceName).map _ := table?_changeTable_self fun _ => rfl
    rw [numberRow?, numberRow?, htable]
    cases db.table? sequenceName with
    | none => split <;> rfl
    | some s =>
      simp only [Option.map_some, Option.getD_some, List.find?_filter]
      split
      · next hsame =>
        subst hsame
        rw [List.find?_eq_none]
        intro r _
        simp
      · next hother =>
        refine congrArg (fun p => s.rows.find? p) (funext fun r => ?_)
        rw [Bool.eq_iff_iff, decide_eq_true_iff, bne_iff_ne, beq_iff_eq, and_iff_right_iff_imp]
        rintro hr heq
        rw [hr] at heq
        exact hother (Datum.text.inj (Option.some.inj heq))
  rw [lastNumber, hrow]
  by_cases hsame : other = table
  · rw [if_pos hsame, if_pos hsame]
  · rw [if_neg hsame, if_neg hsame, lastNumber]

/-- The database after a table has been emptied, and its numbering restarted if asked to. -/
def truncated (db : Database) (name : String) (reset : Bool) : Database :=
  if reset && db.hasTable sequenceName then (db.emptied name).forgetLastNumber name
  else db.emptied name

/-- The number that the next row of a table gets if it brings none. -/
def nextKey (db : Database) (t : StoredTable) : Except Fault Int :=
  t.nextNumber (db.lastNumber t.name)

/-- A row that brings no number gets the next one. -/
theorem nextKey_of_insertRow {t' : StoredTable} {given : Record} {n : Int}
    (hgiven : (t.numberColumn.bind fun p => (t.convert given)[p]?).getD .null = .null)
    (h : t.insertRow (db.lastNumber t.name) given = .ok (t', n)) : db.nextKey t = .ok n := by
  have hnumber : t.numberFor (db.lastNumber t.name) (t.convert given) = db.nextKey t := by
    rw [StoredTable.numberFor]
    cases hcell : t.numberColumn.bind fun p => (t.convert given)[p]? with
    | none => rfl
    | some d =>
      rw [hcell, Option.getD_some] at hgiven
      rw [hgiven]
      rfl
  rw [← hnumber]
  exact (StoredTable.insertRow_cases h).1

/-- What becomes of a database when its table of a name is emptied. -/
structure Empties (name : String) (reset : Bool) (t : StoredTable) (db db' : Database) : Prop where
  /-- The table has no rows, and is otherwise as it was. -/
  table : db'.table? name = some { t with rows := [] }
  /-- So are the tables of other names, but for the last numbers. -/
  others : ∀ other, Text.sameName name other = false →
    Text.sameName sequenceName other = false → db'.table? other = db.table? other
  /-- The same tables and indexes are there, and the same views. -/
  owners : db'.owners = db.owners
  views : db'.views = db.views
  /-- The entries of other names stay among the last numbers. -/
  entries : t.name ≠ sequenceName → ∀ s, db.table? sequenceName = some s →
    db'.table? sequenceName = some (if reset then
      { s with rows := s.rows.filter fun r => r.cells.head? != some (.text name) } else s)
  /-- Other tables keep their last numbers. -/
  counters : t.name ≠ sequenceName → ∀ u ∈ db.tables, Text.sameName u.name name = false →
    db'.lastNumber u.name = db.lastNumber u.name
  /-- The table keeps its own, unless it is to restart and is named in its own letters. -/
  counter : t.name ≠ sequenceName → reset = false ∨ t.name ≠ name →
    db'.lastNumber t.name = db.lastNumber t.name
  /-- Without the last numbers there are none. -/
  sequences : t.name = sequenceName → ∀ table, db'.lastNumber table = 0
  /-- The numbers restart if they are not remembered, if the table is named in its own letters, or
  if none has been given out. -/
  restarts : reset = true → (db'.nextKey { t with rows := [] } = .ok 1 ↔
    t.neverReuses = false ∨ t.name = name ∨ db.lastNumber t.name ≤ 0)

/-- The number of the first row of an emptied table. -/
theorem nextNumber_emptied (t : StoredTable) (last : Int) :
    StoredTable.nextNumber { t with rows := [] } last = .ok 1 ↔
      t.neverReuses = false ∨ last ≤ 0 := by
  cases hreuses : t.neverReuses with
  | false => simp [StoredTable.nextNumber]
  | true =>
    simp only [StoredTable.nextNumber, List.getLast?_nil, Option.map_none,
      Option.getD_none, if_pos, Bool.true_eq_false, false_or]
    split
    · rw [Except.ok.injEq]
      omega
    · constructor
      · intro h
        cases h
      · omega

/-- Tables of other names are not emptied. -/
theorem table?_emptied_of_ne {other : String} (hne : Text.sameName name other = false) :
    (db.emptied name).table? other = db.table? other :=
  table?_changeTable_of_ne hne fun _ => rfl

theorem owners_truncated (name : String) (reset : Bool) :
    (db.truncated name reset).owners = db.owners := by
  have hemptied : (db.emptied name).owners = db.owners :=
    owners_changeTable fun _ _ _ => ⟨rfl, rfl⟩
  rw [truncated]
  split
  · rw [owners_forgetLastNumber, hemptied]
  · exact hemptied

section Afterwards

variable (ht : db.table? name = some t)

include ht

theorem table?_emptied : (db.emptied name).table? name = some { t with rows := [] } :=
  table?_changeTable ht (of_table? ht).2

variable (hdb : db.Sound)

include hdb

/-- The table is that of the last numbers only under that name. -/
theorem sameName_sequenceName : Text.sameName name sequenceName = true ↔ t.name = sequenceName := by
  obtain ⟨hmem, hname⟩ := of_table? ht
  constructor
  · intro hsame
    exact (hdb.sequences hmem (Text.sameName_trans hname hsame)).1
  · intro hsame
    rw [Text.sameName_comm, ← hsame]
    exact hname

theorem sameName_of_ne (hother : t.name ≠ sequenceName) :
    Text.sameName name sequenceName = false := by
  rw [Bool.eq_false_iff]
  exact fun hsame => hother ((sameName_sequenceName ht hdb).mp hsame)

/-- An empty table of last numbers has no entry to forget. -/
theorem truncated_sequences (hsequences : t.name = sequenceName) (reset : Bool) :
    db.truncated name reset = db.emptied name := by
  have hname := (sameName_sequenceName ht hdb).mpr hsequences
  have hrows : ∀ u ∈ (db.emptied name).tables, Text.sameName u.name sequenceName = true →
      u.rows = [] := by
    intro u hu hsame
    obtain ⟨v, -, rfl⟩ := List.mem_map.mp hu
    split at hsame
    · next hv => rw [if_pos hv]
    · next hv =>
      rw [Text.sameName_comm] at hname
      exact absurd (Text.sameName_trans hsame hname) hv
  have hforgotten : (db.emptied name).forgetLastNumber name = db.emptied name := by
    rw [forgetLastNumber, changeTable]
    refine congrArg (Database.mk · _) ((List.map_congr_left fun u hu => ?_).trans (List.map_id _))
    split
    · next hsame => rw [hrows u hu hsame, List.filter_nil, ← hrows u hu hsame]; rfl
    · rfl
  rw [truncated, hforgotten, ite_self]

/-- The last numbers afterwards. -/
theorem lastNumber_truncated (hother : t.name ≠ sequenceName) (reset : Bool) (table : String) :
    (db.truncated name reset).lastNumber table =
      if reset = true ∧ table = name then 0 else db.lastNumber table := by
  have hname := sameName_of_ne ht hdb hother
  have hemptied : (db.emptied name).lastNumber table = db.lastNumber table :=
    lastNumber_congr (table?_emptied_of_ne hname) table
  rw [truncated, hdb.hasTable_sequenceName]
  cases reset with
  | false =>
    rw [Bool.false_and, if_neg Bool.false_ne_true, hemptied, if_neg fun h => Bool.false_ne_true h.1]
  | true =>
    cases hsequences : db.table? sequenceName with
    | some s => simp [lastNumber_forgetLastNumber, hemptied]
    | none =>
      have hzero : db.lastNumber table = 0 := lastNumber_of_rows_nil (by simp [hsequences]) table
      simp [hemptied, hzero]

/-- **What becomes of a database** when its table of a name is emptied. -/
theorem empties_truncated (reset : Bool) : db.Empties name reset t (db.truncated name reset) := by
  have hforget : ∀ other, Text.sameName sequenceName other = false →
      (db.truncated name reset).table? other = (db.emptied name).table? other := by
    intro other hother
    rw [truncated]
    split
    · exact table?_forgetLastNumber hother name
    · rfl
  have htable : (db.truncated name reset).table? name = some { t with rows := [] } := by
    by_cases hsequences : t.name = sequenceName
    · rw [truncated_sequences ht hdb hsequences, table?_emptied ht]
    · have hname := sameName_of_ne ht hdb hsequences
      rw [Text.sameName_comm] at hname
      rw [hforget name hname, table?_emptied ht]
  have hnamed := (named_of_owners_eq (owners_truncated name reset) hdb.named).1
  refine ⟨htable, ?_, owners_truncated name reset, ?_, ?_, ?_, ?_, ?_, ?_⟩
  · intro other hne hsequences
    rw [hforget other hsequences]
    exact table?_emptied_of_ne hne
  · rw [truncated]
    split <;> rfl
  · intro hother s hs
    have hname := sameName_of_ne ht hdb hother
    have hkept : (db.emptied name).table? sequenceName = some s :=
      (table?_emptied_of_ne hname).trans hs
    have hforgotten : ((db.emptied name).forgetLastNumber name).table? sequenceName =
        ((db.emptied name).table? sequenceName).map _ := table?_changeTable_self fun _ => rfl
    rw [truncated, hdb.hasTable_sequenceName, hs]
    cases reset with
    | false => exact hkept
    | true =>
      change ((db.emptied name).forgetLastNumber name).table? sequenceName = _
      rw [hforgotten, hkept, Option.map_some, if_pos rfl]
  · intro hother u _ hne
    rw [lastNumber_truncated ht hdb hother, if_neg]
    rintro ⟨-, rfl⟩
    rw [Text.sameName_refl] at hne
    exact absurd hne (by decide)
  · intro hother hkeep
    rw [lastNumber_truncated ht hdb hother, if_neg]
    rintro ⟨rfl, hname⟩
    rcases hkeep with hkeep | hkeep
    · exact absurd hkeep (by decide)
    · exact hkeep hname
  · intro hsequences table
    have hfound : (db.truncated name reset).table? sequenceName = some { t with rows := [] } :=
      hnamed.table?_eq (of_table? htable).1 (hsequences ▸ Text.sameName_refl _)
    exact lastNumber_of_rows_nil (by rw [hfound]; rfl) table
  · rintro rfl
    rw [nextKey, nextNumber_emptied]
    by_cases hother : t.name = sequenceName
    · have hplain := (hdb.sequences (of_table? ht).1 (hother ▸ Text.sameName_refl _)).2.2
      simp [hplain]
    · rw [lastNumber_truncated ht hdb hother]
      by_cases hname : t.name = name <;> simp [hname]

end Afterwards

end Database

/-! ### The task -/

namespace Connection

variable {c : Connection} {name : String} {t : StoredTable}

/-- A connection that may write runs what it performs. -/
theorem run_of_perform {c' : Connection} {b : Bindings} {command : Command} {o : Outcome}
    (hwrites : c.readOnly = false) (h : c.perform b command = .ok (c', o)) :
    c.run b command = .ok (c', o) := by
  rw [run, h, ok_bind, hwrites]
  rfl

/-- A table is emptied, and the number of its rows answered. -/
theorem execute_emptying (ht : c.database.table? name = some t) (hwrites : c.readOnly = false) :
    c.execute (emptyingSql name) [] =
      (.ok { affected := t.rows.length }, { c with database := c.database.emptied name }) := by
  have hperform : c.perform ⟨[], .epoch⟩ (.delete name none) =
      .ok (c.wrote (c.database.emptied name, t.rows.length)) := by
    rw [perform, Database.delete_all ht]
    rfl
  rw [execute_of_run (read_emptying name 0), List.map_nil, run_of_perform hwrites hperform]

/-- What is no table is not emptied, and nothing is on a connection that may not write. -/
theorem exists_execute_emptying_error
    (h : c.readOnly = true ∨ c.database.table? name = none) :
    ∃ fault, c.execute (emptyingSql name) [] = (.error fault, c) := by
  have hrun : ∃ fault, c.run ⟨[], .epoch⟩ (.delete name none) = .error fault := by
    rw [run, perform]
    cases hdelete : c.database.delete ⟨[], .epoch⟩ name none with
    | error fault => exact ⟨fault, rfl⟩
    | ok written =>
      rcases h with hreadOnly | hnone
      · exact ⟨.readOnly, by simp [hreadOnly, Command.changesTable]⟩
      · obtain ⟨fault, hfault⟩ := Database.exists_delete_error hnone ⟨[], .epoch⟩ none
        rw [hfault] at hdelete
        cases hdelete
  obtain ⟨fault, hfault⟩ := hrun
  exact ⟨fault, by rw [execute_of_run (read_emptying name 0), List.map_nil, hfault]⟩

/-- The last number of a table is forgotten where last numbers are kept. -/
theorem execute_restarting (hc : c.database.Sound)
    (hsequences : c.database.hasTable Database.sequenceName = true) (hwrites : c.readOnly = false)
    (name : String) : ∃ count, c.execute (restartingSql name) [] =
      (.ok { affected := count },
        { c with database := c.database.forgetLastNumber name }) := by
  rw [hc.hasTable_sequenceName, Option.isSome_iff_exists] at hsequences
  obtain ⟨s, hs⟩ := hsequences
  obtain ⟨count, hdelete⟩ := Database.delete_isEntry hc hs ⟨[], .epoch⟩ name
  refine ⟨count, ?_⟩
  have hperform : c.perform ⟨[], .epoch⟩
      (.delete Database.sequenceName (some (.isEntry name))) =
        .ok (c.wrote (c.database.forgetLastNumber name, count)) := by
    rw [perform, hdelete]
    rfl
  rw [execute_of_run (read_restarting name 0), List.map_nil, run_of_perform hwrites hperform]

end Connection

/-- Emptying a table leaves a database sound. -/
theorem Database.sound_emptied {db : Database} (hdb : db.Sound) {name : String} {t : StoredTable}
    (ht : db.table? name = some t) : (db.emptied name).Sound :=
  (Step.delete (delete_all ht ⟨[], .epoch⟩)).sound hdb

namespace Session

variable {Key : Type} {c : Client Key} {name : String} {t : StoredTable}

/-- Whether last numbers are kept is looked up before the transaction. -/
theorem runOn_truncate (hfree : c.connection.saved = none) (reset : Bool) :
    (truncate name reset : Session Key Nat).runOn c =
      (atomically do
        let counts ← executeAll (Dialect.sqlite.truncate name
          (reset && c.connection.database.hasTable Database.sequenceName))
        return counts.headD 0).runOn c := by
  have hlooked : (tableExists Database.sequenceName : Session Key Bool).runOn c =
      (.ok (c.connection.database.hasTable Database.sequenceName), c) := by
    simp [tableExists, acquire, isBlocked, database, runOn_bind, runOn_map, hfree]
  cases reset with
  | false => rfl
  | true =>
    rw [truncate, if_pos rfl, runOn_bind_ok c hlooked]
    rfl

/-- A table is not emptied while a transaction is open, on a connection that may not write, or if it
is not there. Then nothing has changed. -/
theorem runOn_truncate_error (h : c.connection.saved.isSome = true ∨
      c.connection.readOnly = true ∨ c.connection.database.table? name = none) (reset : Bool) :
    ∃ e, (truncate name reset : Session Key Nat).runOn c = (.error e, c) := by
  cases hsaved : c.connection.saved with
  | some db =>
    refine ⟨.database .busy, ?_⟩
    have hlooked : (tableExists Database.sequenceName : Session Key Bool).runOn c =
        (.error (.database .busy), c) := by
      simp [tableExists, acquire, isBlocked, runOn_bind, hsaved]
    cases reset with
    | false =>
      rw [truncate, if_neg Bool.false_ne_true, runOn_bind_ok c (runOn_pure c false),
        runOn_atomically, hsaved]
      rfl
    | true => rw [truncate, if_pos rfl, runOn_bind_error c hlooked]
  | none =>
    have hrefused : c.connection.begin.readOnly = true ∨
        c.connection.begin.database.table? name = none := h.resolve_left (by simp [hsaved])
    obtain ⟨fault, hfault⟩ := Connection.exists_execute_emptying_error hrefused
    have hback : ({ c with connection := c.connection.begin.rollback } : Client Key) = c := by
      simp only [Connection.begin, Connection.rollback, Option.getD_some, ← hsaved]
    refine ⟨.statement (emptyingSql name) [] (.ofFault fault), ?_⟩
    rw [runOn_truncate hsaved, runOn_atomically, hsaved, truncate_sqlite, executeAll]
    simp [runOn_bind, runOn_execute, hfault, hback]

/-- Otherwise it is emptied, and the number of its rows answered. -/
theorem runOn_truncate_ok (hc : c.connection.database.Sound) (hfree : c.connection.saved = none)
    (hwrites : c.connection.readOnly = false)
    (ht : c.connection.database.table? name = some t) (reset : Bool) :
    (truncate name reset : Session Key Nat).runOn c = (.ok t.rows.length,
      { c with connection := { c.connection with
        database := c.connection.database.truncated name reset } }) := by
  have hempty := Connection.execute_emptying (c := c.connection.begin) ht hwrites
  have hkept : (c.connection.database.emptied name).hasTable Database.sequenceName =
      c.connection.database.hasTable Database.sequenceName := by
    simp only [Database.hasTable, Database.emptied, Database.changeTable, List.any_map]
    refine congrArg (List.any _) (funext fun u => ?_)
    simp only [Function.comp_apply]
    split <;> rfl
  rw [runOn_truncate hfree, runOn_atomically, hfree, truncate_sqlite, executeAll,
    Database.truncated]
  cases hrestarts : reset && c.connection.database.hasTable Database.sequenceName with
  | false =>
    simp [runOn_execute, hempty, executeAll]
    simp [Connection.begin, Connection.commit, hfree]
  | true =>
    have hsequences := (Bool.and_eq_true_iff.mp hrestarts).2
    obtain ⟨count, hforget⟩ := Connection.execute_restarting
      (c := { c.connection.begin with database := c.connection.database.emptied name })
      (Database.sound_emptied hc ht) (hkept.trans hsequences) hwrites name
    dsimp only [Connection.begin] at hempty hforget
    simp [runOn_bind, runOn_map, runOn_execute, executeAll, Connection.begin, hempty, hforget,
      Connection.commit, hfree]

/-- **What emptying a table does** in a database without foreign keys and triggers. It succeeds
exactly if no transaction is open, the connection may write, and the table is there; then it answers
the number of rows that the table had. Otherwise nothing has changed. -/
theorem truncate_empties (hc : c.connection.database.ReachedUnlinked) (name : String)
    (reset : Bool) :
    (∃ e, (truncate name reset : Session Key Nat).runOn c = (.error e, c) ∧
      (c.connection.saved.isSome = true ∨ c.connection.readOnly = true ∨
        c.connection.database.table? name = none)) ∨
    ∃ t db, c.connection.saved = none ∧ c.connection.readOnly = false ∧
      c.connection.database.table? name = some t ∧
      (truncate name reset : Session Key Nat).runOn c =
        (.ok t.rows.length, { c with connection := { c.connection with database := db } }) ∧
      c.connection.database.Empties name reset t db := by
  by_cases hrefused : c.connection.saved.isSome = true ∨ c.connection.readOnly = true ∨
      c.connection.database.table? name = none
  · obtain ⟨e, he⟩ := runOn_truncate_error hrefused reset
    exact .inl ⟨e, he, hrefused⟩
  · rw [not_or, not_or, Bool.not_eq_true, Bool.not_eq_true] at hrefused
    obtain ⟨hfree, hwrites, hthere⟩ := hrefused
    obtain ⟨t, ht⟩ := Option.ne_none_iff_exists'.mp hthere
    have hsaved : c.connection.saved = none := by simpa using hfree
    exact .inr ⟨t, _, hsaved, hwrites, ht, runOn_truncate_ok hc.sound hsaved hwrites ht reset,
      Database.empties_truncated ht hc.sound reset⟩

/-- A table `T` numbers its rows and has two of them. It is emptied as `t`, and its next row does
not get the number one. -/
theorem truncate_empties_other_letters : ∃ (c : Client Unit) (t : StoredTable) (db : Database),
    c.connection.database.ReachedUnlinked ∧ c.connection.database.table? "t" = some t ∧
      t.name = "T" ∧ t.rows.length = 2 ∧
      (truncate "t" true : Session Unit Nat).runOn c =
        (.ok 2, { c with connection := { c.connection with database := db } }) ∧
      db.table? "t" = some { t with rows := [] } ∧
      db.nextKey { t with rows := [] } ≠ .ok 1 := by
  let create := "CREATE TABLE T (id INTEGER PRIMARY KEY AUTOINCREMENT, a TEXT)".toList
  let insert := "INSERT INTO T (a) VALUES ('x'), ('y')".toList
  obtain ⟨connection, hconnection⟩ : ∃ connection : Connection, connection =
      (((({} : Connection).execute (.ofList create) []).2).execute (.ofList insert) []).2 :=
    ⟨_, rfl⟩
  have hunlinked : Token.areUnlinked (Token.ofText (.ofList create)) = true ∧
      Token.areUnlinked (Token.ofText (.ofList insert)) = true := by
    rw [Token.ofText, Token.ofText, String.toList_ofList, String.toList_ofList]
    decide +kernel
  have hreached : connection.database.ReachedUnlinked := by
    rw [hconnection]
    exact .execute (.execute (c := {}) .empty hunlinked.1) hunlinked.2
  have hchars : connection = ((({} : Connection).executeChars create).2.executeChars insert).2 := by
    rw [hconnection, Connection.execute_ofList, Connection.execute_ofList]
  have htable : (connection.database.table? "t").map
      (fun t => (t.name, t.rows.length, t.neverReuses)) = some ("T", 2, true) := by
    rw [hchars]
    decide +kernel
  have hlast : connection.database.lastNumber "T" = 2 := by
    rw [hchars]
    decide +kernel
  have hidle : connection.saved.isSome = false ∧ connection.readOnly = false := by
    rw [hchars]
    decide +kernel
  obtain ⟨t, ht, hshape⟩ := Option.map_eq_some_iff.mp htable
  obtain ⟨hname, hrows, hreuses⟩ : t.name = "T" ∧ t.rows.length = 2 ∧ t.neverReuses = true := by
    simpa using hshape
  obtain ⟨c, hc⟩ : ∃ c : Client Unit, c = { connection := connection } := ⟨_, rfl⟩
  have hconnected : c.connection = connection := by rw [hc]
  rw [← hconnected] at hreached ht hlast hidle
  refine ⟨c, t, ?_⟩
  rcases truncate_empties hreached "t" true with
    ⟨e, -, hrefused⟩ | ⟨t', db, -, -, ht', hrun, hempties⟩
  · simp [hidle.1, hidle.2, ht] at hrefused
  · obtain rfl : t = t' := Option.some.inj (ht.symm.trans ht')
    refine ⟨db, hreached, ht, hname, hrows, hrows ▸ hrun, hempties.table, fun hone => ?_⟩
    have hcases := (hempties.restarts rfl).mp hone
    rw [hreuses, hname, hlast] at hcases
    revert hcases
    decide

end Session

end EntitySql
