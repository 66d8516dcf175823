import EntitySql.Proofs.Database.CopyText
import EntitySql.Proofs.Migration.Copying

/-!
# Columns that newly require a value

A column that requires a value and declares no default is filled with the zero of its type: as the
default with which the column is added, and as the literal in the copying of a rebuilt table. The
zero is a value for every type but the unknown ones, which have none. Nothing makes a column of an
unknown type required by itself, but a field can be declared so, and a key is. Its literal is `NULL`
then, so that the rows for which it is needed are refused.

## Main definitions

* `ColumnType.IsKnown`: the types that have a zero

## Main results

* `Dialect.fillLiteral_ne_null_iff`: the literal is that of a value exactly for the known types
* `Dialect.addColumn_eq`: it is the default of a column that is added
* `Rebuild.assigns_value_iff`: where rows that are copied have a value
* `Model.fills_required_iff`: where required columns have a value
-/

namespace EntitySql

/-! ### The zero of a type -/

namespace ColumnType

/-- The type is not one of the declaring program. -/
def IsKnown (type : ColumnType) : Prop := ∀ name, type ≠ custom name

/-- The zeros of the types that are known. -/
def knownZeros : List Value :=
  [.bool false, .int 0, .float .zero, .text "", .blob [], .timestamp .epoch, .text "1970-01-01",
    .text "00:00:00", .text "00000000-0000-0000-0000-000000000000"]

theorem zeroValue_mem {type : ColumnType} (h : type.IsKnown) : type.zeroValue ∈ knownZeros := by
  cases type with
  | custom name => exact absurd rfl (h name)
  | _ => simp [zeroValue, knownZeros]

theorem zeroValue_eq_null_iff {type : ColumnType} : type.zeroValue = .null ↔ ¬ type.IsKnown := by
  cases type <;> simp [zeroValue, IsKnown]

end ColumnType

namespace Dialect

variable {d : Dialect} {c : Column}

/-- A column without a default is filled with the zero of its type. -/
theorem fillLiteral_eq (h : c.default = none) :
    d.fillLiteral c = (d.toBound c.type.zeroValue).literal := by
  rw [fillLiteral, h]

/-- A value is bound as it is, or as a number if it is a truth value. -/
theorem toBound_eq (hd : d ∈ shipped) (v : Value) : d.toBound v = v ∨ d.toBound v = v.boolAsInt := by
  simp only [shipped, List.mem_cons, List.not_mem_nil, or_false] at hd
  rcases hd with rfl | rfl | rfl
  · exact .inr rfl
  · exact .inl rfl
  · exact .inr rfl

/-- **The literal is that of a value exactly for the known types.** -/
theorem fillLiteral_ne_null_iff (hd : d ∈ shipped) (h : c.default = none) :
    d.fillLiteral c ≠ "NULL" ↔ c.type.IsKnown := by
  rw [fillLiteral_eq h]
  refine ⟨fun hliteral name htype => hliteral ?_, fun hknown => ?_⟩
  · rcases toBound_eq hd c.type.zeroValue with hbound | hbound <;> rw [hbound, htype] <;> rfl
  · have hliterals : ∀ v ∈ ColumnType.knownZeros,
        v.literal ≠ "NULL" ∧ v.boolAsInt.literal ≠ "NULL" := by decide +kernel
    obtain ⟨hsame, hnumber⟩ := hliterals _ (ColumnType.zeroValue_mem hknown)
    rcases toBound_eq hd c.type.zeroValue with hbound | hbound <;> rwa [hbound]

/-! ### Columns that are added -/

/-- The default of a column stands at the end of its definition. -/
theorem columnDefinition_default (hnumbered : c.autoincrement = false) (hdefault : c.default = none)
    (declared : Default) : d.columnDefinition { c with default := some declared } =
      d.columnDefinition c ++ " DEFAULT " ++ d.defaultLiteral declared := by
  rw [String.append_assoc]
  cases hstyle : d.keyStyle <;>
    simp [columnDefinition, hstyle, hnumbered, hdefault, defaultClause, Column.requiresValue]

/-- **A column that is added** gets the literal as its default. -/
theorem addColumn_eq (hd : d ∈ shipped) (hrequires : c.requiresValue = true)
    (hnumbered : c.autoincrement = false) (hdefault : c.default = none) (table : String) :
    d.addColumn table c = "ALTER TABLE " ++ d.quote table ++ " " ++ d.addColumnKeywords ++ " " ++
      (d.columnDefinition c ++ " DEFAULT " ++ d.fillLiteral c) := by
  have hexpression : ∀ sql, d.defaultLiteral (.expression sql) = sql := by
    simp only [shipped, List.mem_cons, List.not_mem_nil, or_false] at hd
    rcases hd with rfl | rfl | rfl <;> intro sql <;> rfl
  have hfill : d.withFill c = { c with default := some (.expression (d.fillLiteral c)) } := by
    rw [withFill, hrequires, hdefault]
    rfl
  unfold addColumn
  rw [hfill, columnDefinition_default hnumbered hdefault, hexpression]
  simp [toString]

end Dialect

/-! ### Columns that are copied -/

namespace Rebuild

variable {r : Rebuild} {d : Dialect} {c : Column}

/-- The expression that a required column is copied by: the literal, the old column, or the first of
both that is not missing. -/
theorem exists_expression (hc : c ∈ r.model.columns) (hrequires : c.requiresValue = true)
    (hnumbered : c.autoincrement = false) : ∃ cell ∈ r.cells, cell.1 = c.name ∧
    (d.copyExpression cell.2 = d.fillLiteral c ∨
      ∃ old ∈ r.difference.live.columns, Text.sameName old.name c.name = true ∧
        d.copyExpression cell.2 = if old.requiresValue then d.quote old.name
          else "COALESCE(" ++ d.quote old.name ++ ", " ++ d.fillLiteral c ++ ")") := by
  have hcell : ∀ {cell}, cell? r.difference.live c = some cell → cell ∈ r.cells :=
    fun h => List.mem_filterMap.mpr ⟨c, hc, h⟩
  cases hfound : r.difference.live.column? c.name with
  | none =>
    have hfill := cell?_of_column?_eq_none hfound
    rw [hrequires, hnumbered] at hfill
    exact ⟨_, hcell hfill, rfl, .inl rfl⟩
  | some old =>
    obtain ⟨hmem, hname⟩ := Text.of_find?_eq_some hfound
    refine ⟨_, hcell (cell?_of_column? hfound), rfl,
      .inr ⟨old, hmem, hname, ?_⟩⟩
    cases old.requiresValue <;> simp [hrequires, Dialect.copyExpression, toString]

section

variable (hm : r.model.Valid)
  (hlive : r.difference.live.columns.Pairwise fun a b => Text.sameName a.name b.name = false)
  (hc : c ∈ r.model.columns) (hrequires : c.requiresValue = true)
  (hnumbered : c.autoincrement = false)

include hm hlive hc hrequires hnumbered

/-- **Where rows that are copied have a value**: in a required column that the database does not
number, if its literal is that of a value or the old table required one there. -/
theorem assigns_value_iff {V : Type} [DecidableEq V] {missing : V} {literal : String → V}
    (hvalue : ∃ v : V, v ≠ missing) : (∀ row : LiveColumn → V,
      (∀ old ∈ r.difference.live.columns, old.requiresValue = true → row old ≠ missing) →
        ∃ v, r.assigned? d missing literal row c = some v ∧ v ≠ missing) ↔
    literal (d.fillLiteral c) ≠ missing ∨ ∃ old ∈ r.difference.live.columns,
      Text.sameName old.name c.name = true ∧ old.requiresValue = true := by
  obtain ⟨present, hpresent⟩ := hvalue
  -- in this row every value is missing that may be
  have hsparse : ∀ old ∈ r.difference.live.columns, old.requiresValue = true →
      (if old.requiresValue then present else missing) ≠ missing := by
    intro old _ hrequired
    rwa [if_pos hrequired]
  rcases assigned?_cases hm d missing literal hlive hc hrequires hnumbered with
    ⟨old, hold, hname, hassigned⟩ | ⟨hnew, hassigned⟩
  · have hsame : (∃ other ∈ r.difference.live.columns, Text.sameName other.name c.name = true ∧
        other.requiresValue = true) ↔ old.requiresValue = true := by
      refine ⟨fun ⟨other, hother, hsame, hrequired⟩ => ?_, fun h => ⟨old, hold, hname, h⟩⟩
      rw [Text.sameName_comm] at hsame
      rwa [Text.eq_of_sameName_of_pairwise hlive hold hother (Text.sameName_trans hname hsame)]
    rw [hsame]
    constructor
    · intro h
      obtain ⟨v, hv, hne⟩ := h _ hsparse
      rw [hassigned] at hv
      cases hrequired : old.requiresValue with
      | true => exact .inr rfl
      | false =>
        refine .inl fun hnone => hne ?_
        simpa [hrequired, hnone] using hv.symm
    · intro h row hrow
      refine ⟨_, hassigned row, ?_⟩
      split
      · next hfilled =>
        rcases h with hfill | hrequired
        · exact hfill
        · rw [hrequired] at hfilled
          exact absurd hfilled.1 (by decide)
      · next hkept =>
        intro hnone
        have hrequired : old.requiresValue = true := by
          by_contra hloose
          exact hkept ⟨by simpa using hloose, hnone⟩
        exact hrow old hold hrequired hnone
  · have hnone : ¬ ∃ old ∈ r.difference.live.columns, Text.sameName old.name c.name = true ∧
        old.requiresValue = true := by
      rintro ⟨old, hold, hname, -⟩
      rw [hnew old hold] at hname
      exact absurd hname (by decide)
    rw [or_iff_left hnone]
    constructor
    · intro h
      obtain ⟨v, hv, hne⟩ := h _ hsparse
      rw [hassigned] at hv
      rwa [Option.some.inj hv]
    · exact fun hfill row _ => ⟨_, hassigned row, hfill⟩

end

end Rebuild

/-! ### Literals that SQLite reads -/

open Token (IsNumeral)
open Reading (numberDatum)

/-- A literal that is a numeral is read as a datum that is not missing. -/
theorem exists_fills_numeral {literal : String} {cs : List Char} (hliteral : literal.toList = cs)
    (hcs : IsNumeral cs) (hdatum : numberDatum false cs ≠ .null) :
    ∃ datum ts, (Phrase.datum datum).Fills ts (' ' :: literal.toList) ∧ datum ≠ .null := by
  rw [hliteral]
  exact ⟨_, _, IsLiteral.fills_numeral hcs, hdatum⟩

/-- The zero of a known type is read as a datum that is not missing. -/
theorem exists_fills_zero {type : ColumnType} (h : type.IsKnown) : ∃ datum ts,
    (Phrase.datum datum).Fills ts
      (' ' :: (Dialect.sqlite.toBound type.zeroValue).literal.toList) ∧ datum ≠ .null := by
  have hinteger : ∀ type ∈ [ColumnType.bool, .int8, .int16, .int32, .int64, .uint8, .uint16,
      .uint32, .uint64], (Dialect.sqlite.toBound type.zeroValue).literal.toList = ['0'] := by
    decide +kernel
  have hreal : ∀ type ∈ [ColumnType.float32, .float64, .decimal],
      (Dialect.sqlite.toBound type.zeroValue).literal.toList = ['0', '.', '0'] := by
    decide +kernel
  cases type with
  | bool | int8 | int16 | int32 | int64 | uint8 | uint16 | uint32 | uint64 =>
    exact exists_fills_numeral (hinteger _ (by simp)) (isNumeral_digits (by simp) (by simp))
      (by decide +kernel)
  | float32 | float64 | decimal =>
    exact exists_fills_numeral (hreal _ (by simp))
      (.intro ['0'] ['.', '0'] [] (by simp) (by simp) (.inr ⟨['0'], rfl, by simp⟩) (.inl rfl))
      (by decide +kernel)
  | bytes => exact ⟨_, _, IsLiteral.fills_emptyBlob, by simp⟩
  | text | char | dateTime | date | time | uuid => exact ⟨_, _, IsLiteral.fills_text _, by simp⟩
  | custom name => exact absurd rfl (h name)

/-- The zero of a type is read as a datum, which is missing only for the unknown types. -/
theorem exists_fills_zero_iff (type : ColumnType) : ∃ datum ts,
    (Phrase.datum datum).Fills ts
      (' ' :: (Dialect.sqlite.toBound type.zeroValue).literal.toList) ∧
    (datum = .null ↔ ¬ type.IsKnown) := by
  by_cases h : type.IsKnown
  · obtain ⟨datum, ts, hfills, hne⟩ := exists_fills_zero h
    exact ⟨datum, ts, hfills, iff_of_false hne (not_not_intro h)⟩
  · have hnull : Dialect.sqlite.toBound type.zeroValue = .null := by
      rw [ColumnType.zeroValue_eq_null_iff.mpr h]
      rfl
    rw [hnull]
    exact ⟨_, _, IsLiteral.fills_null, iff_of_true rfl h⟩

/-! ### Required columns -/

/-- **Where required columns have a value.** A required column without a default, which the database
does not number, is filled with a literal that is not `NULL`, unless its type is unknown. This
literal is the default with which the column is added, and stands in the copying of a rebuilt table,
by itself or behind the old column. So rows that had all required values have a value there, except
for an unknown type that the old table did not require a value of. -/
theorem Model.fills_required_iff {mapping : Mapping} {m : Model} (hm : Model.build mapping = .ok m)
    {d : Dialect} (hd : d ∈ Dialect.shipped) {c : Column} (hc : c ∈ m.columns)
    (hrequires : c.requiresValue = true) (hnumbered : c.autoincrement = false)
    (hdefault : c.default = none) :
    (d.fillLiteral c ≠ "NULL" ↔ c.type.IsKnown) ∧
    (∀ table, d.addColumn table c = "ALTER TABLE " ++ d.quote table ++ " " ++ d.addColumnKeywords ++
      " " ++ (d.columnDefinition c ++ " DEFAULT " ++ d.fillLiteral c)) ∧
    (∀ x : Difference,
      (x.live.columns.Pairwise fun a b => Text.sameName a.name b.name = false) →
      (∃ cell ∈ Rebuild.cells ⟨m, x⟩, cell.1 = c.name ∧
        (d.copyExpression cell.2 = d.fillLiteral c ∨
          ∃ old ∈ x.live.columns, Text.sameName old.name c.name = true ∧
            d.copyExpression cell.2 = if old.requiresValue then d.quote old.name
              else "COALESCE(" ++ d.quote old.name ++ ", " ++ d.fillLiteral c ++ ")")) ∧
      ∀ {V : Type} [DecidableEq V] (missing : V) (literal : String → V),
        (∀ type : ColumnType,
          literal (d.toBound type.zeroValue).literal = missing ↔ type.zeroValue = .null) →
        ((∀ row : LiveColumn → V,
            (∀ old ∈ x.live.columns, old.requiresValue = true → row old ≠ missing) →
              ∃ v, Rebuild.assigned? ⟨m, x⟩ d missing literal row c = some v ∧ v ≠ missing) ↔
          c.type.IsKnown ∨ ∃ old ∈ x.live.columns,
            Text.sameName old.name c.name = true ∧ old.requiresValue = true)) ∧
    ∃ datum ts, (Phrase.datum datum).Fills ts (' ' :: (Dialect.sqlite.fillLiteral c).toList) ∧
      (datum = .null ↔ ¬ c.type.IsKnown) := by
  have hvalid := Model.valid_of_build hm
  refine ⟨Dialect.fillLiteral_ne_null_iff hd hdefault,
    Dialect.addColumn_eq hd hrequires hnumbered hdefault, fun x hlive => ⟨?_, ?_⟩, ?_⟩
  · exact Rebuild.exists_expression (r := ⟨m, x⟩) hc hrequires hnumbered
  · intro V _ missing literal hliteral
    have hpresent : ∃ v : V, v ≠ missing := by
      refine ⟨literal (d.toBound ColumnType.bool.zeroValue).literal, ?_⟩
      rw [ne_eq, hliteral]
      simp [ColumnType.zeroValue]
    have hfill : literal (d.fillLiteral c) ≠ missing ↔ c.type.IsKnown := by
      rw [Dialect.fillLiteral_eq hdefault, ne_eq, hliteral, ColumnType.zeroValue_eq_null_iff,
        not_not]
    rw [← hfill]
    exact Rebuild.assigns_value_iff (r := ⟨m, x⟩) hvalid hlive hc hrequires hnumbered hpresent
  · rw [Dialect.fillLiteral_eq hdefault]
    exact exists_fills_zero_iff c.type

/-- A field of a type of the declaring program that is declared to require a value: its column is
added with `DEFAULT NULL`. -/
theorem Model.fills_required_iff_custom : ∃ (mapping : Mapping) (m : Model) (c : Column),
    Model.build mapping = .ok m ∧ Dialect.postgres ∈ Dialect.shipped ∧ c ∈ m.columns ∧
      c.requiresValue = true ∧ c.autoincrement = false ∧ c.default = none ∧
      ∀ table, Dialect.postgres.addColumn table c = "ALTER TABLE " ++ Dialect.postgres.quote table ++
        " " ++ Dialect.postgres.addColumnKeywords ++ " " ++
        (Dialect.postgres.columnDefinition c ++ " DEFAULT " ++ "NULL") := by
  let c : Column := { field := "s", name := "s", type := .custom "Status", notNull := true }
  have hbuild : Model.build
      { name := "t", fields := [{ name := "s", spelling := "Status", notNull := some true }] } =
        .ok ⟨"t", .table, [c], [], []⟩ := rfl
  have hshipped : Dialect.postgres ∈ Dialect.shipped := by simp [Dialect.shipped]
  have hc : c ∈ (⟨"t", .table, [c], [], []⟩ : Model).columns := List.mem_singleton_self c
  obtain ⟨hliteral, hadd, -⟩ := Model.fills_required_iff hbuild hshipped hc rfl rfl rfl
  have hnull : Dialect.postgres.fillLiteral c = "NULL" := by
    by_contra hne
    exact hliteral.mp hne "Status" rfl
  refine ⟨_, _, c, hbuild, hshipped, hc, rfl, rfl, rfl, fun table => ?_⟩
  rw [hadd table, hnull]

end EntitySql
