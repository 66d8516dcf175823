import EntitySql.Proofs.Migration.Agreement
import EntitySql.Proofs.Names.Folding
import Mathlib.Data.List.Sort
import Mathlib.Data.String.Basic

/-!
# Constraints as sets of columns

Constraints of model and table are compared by their sets of columns: the names in lower case,
sorted, each once. Sorting and the removal of repetitions do their part exactly: two constraints
have the same set if and only if they look alike, that is, if each name of one has the lower-case
form of a name of the other.

Everywhere else names are compared by folding ASCII letters only, and there lower-casing sees less:
`É` and `é` are two columns, but one lower-case form. What is listed as missing or obsolete is
therefore really so, but a constraint may be overlooked because one over another column looks like
it. The comparison is the one of columns exactly if every constraint that looks like one of the
other side has a counterpart there over the same columns.

## Main definitions

* `Text.SameMembers`: two lists of names have the same members
* `Unique.SameColumns`: two constraints are over the same columns
* `Unique.LooksLike`: two constraints are over the same names in lower case
* `Difference.ComparesColumns`: constraints are compared by their columns

## Main results

* `Unique.columnSet_eq_iff`: the sets of two constraints are equal if they look alike
* `Unique.SameColumns.looksLike`: constraints over the same columns look alike
* `Difference.listsUniques_diagnose`: which constraints are listed, and when it is the right ones
-/

namespace EntitySql

/-- Two lists of names have the same members, as names are compared. -/
def Text.SameMembers (same : String → String → Prop) (xs ys : List String) : Prop :=
  (∀ x ∈ xs, ∃ y ∈ ys, same x y) ∧ ∀ y ∈ ys, ∃ x ∈ xs, same x y

namespace Unique

/-- Two constraints are over the same columns. -/
def SameColumns (u v : Unique) : Prop :=
  Text.SameMembers (fun x y => Text.sameName x y = true) u.columns v.columns

/-- Two constraints are over the same names in lower case. -/
def LooksLike (u v : Unique) : Prop :=
  Text.SameMembers (fun x y => Text.lowercase x = Text.lowercase y) u.columns v.columns

/-- Constraints over the same columns look alike. -/
theorem SameColumns.looksLike {u v : Unique} (h : u.SameColumns v) : u.LooksLike v := by
  refine ⟨fun x hx => ?_, fun y hy => ?_⟩
  · obtain ⟨y, hy, hsame⟩ := h.1 x hx
    exact ⟨y, hy, Text.lowercase_congr hsame⟩
  · obtain ⟨x, hx, hsame⟩ := h.2 y hy
    exact ⟨x, hx, Text.lowercase_congr hsame⟩

/-- Constraints that look alike are over the same columns if their names are told apart in lower
case. -/
theorem LooksLike.sameColumns {u v : Unique} (h : u.LooksLike v)
    (happart : ∀ x ∈ u.columns, ∀ y ∈ v.columns, Text.lowercase x = Text.lowercase y →
      Text.sameName x y = true) : u.SameColumns v := by
  refine ⟨fun x hx => ?_, fun y hy => ?_⟩
  · obtain ⟨y, hy, hsame⟩ := h.1 x hx
    exact ⟨y, hy, happart x hx y hy hsame⟩
  · obtain ⟨x, hx, hsame⟩ := h.2 y hy
    exact ⟨x, hx, happart x hx y hy hsame⟩

/-! ### Sets of columns -/

/-- Without neighbours that are equal, a sorted list has no repetitions. The names that are kept
are collected last first. -/
theorem pairwise_eraseRepsBy_loop {a : String} {as kept : List String}
    (hsorted : (a :: as).Pairwise (· ≤ ·)) (hkept : (a :: kept).Pairwise (· > ·)) :
    (List.eraseRepsBy.loop (· == ·) a as kept).Pairwise (· < ·) := by
  induction as generalizing a kept with
  | nil =>
    rw [List.eraseRepsBy.loop, List.pairwise_reverse]
    exact hkept
  | cons b as ih =>
    obtain ⟨hle, hrest⟩ := List.pairwise_cons.mp hsorted
    rw [List.eraseRepsBy.loop]
    cases hab : a == b with
    | true =>
      obtain rfl := eq_of_beq hab
      exact ih hrest hkept
    | false =>
      have hlt : a < b := lt_of_le_of_ne (hle b List.mem_cons_self) (by simpa using hab)
      refine ih hrest (List.pairwise_cons.mpr ⟨fun x hx => ?_, hkept⟩)
      rcases List.mem_cons.mp hx with rfl | hx
      · exact hlt
      · exact lt_trans ((List.pairwise_cons.mp hkept).1 x hx) hlt

theorem pairwise_columnSet (u : Unique) : u.columnSet.Pairwise (· < ·) := by
  have hsorted : ((u.columns.map Text.lowercase).mergeSort
      fun a b => decide (a ≤ b)).Pairwise (· ≤ ·) := List.pairwise_mergeSort' (· ≤ ·) _
  rw [columnSet]
  cases hnames : (u.columns.map Text.lowercase).mergeSort fun a b => decide (a ≤ b) with
  | nil => exact .nil
  | cons a as =>
    rw [hnames] at hsorted
    exact pairwise_eraseRepsBy_loop hsorted (List.pairwise_singleton _ a)

/-- **The sets of two constraints are equal exactly if they look alike**: neither the order of the
names nor repetitions among them matter. -/
theorem columnSet_eq_iff {u v : Unique} : u.columnSet = v.columnSet ↔ u.LooksLike v := by
  constructor
  · intro h
    refine ⟨fun x hx => ?_, fun y hy => ?_⟩
    · obtain ⟨y, hy, hsame⟩ := mem_columnSet.mp (h ▸ mem_columnSet.mpr ⟨x, hx, rfl⟩)
      exact ⟨y, hy, hsame.symm⟩
    · exact mem_columnSet.mp (h.symm ▸ mem_columnSet.mpr ⟨y, hy, rfl⟩)
  · intro h
    refine (pairwise_columnSet u).eq_of_mem_iff (pairwise_columnSet v) fun n => ?_
    rw [mem_columnSet, mem_columnSet]
    constructor
    · rintro ⟨x, hx, rfl⟩
      obtain ⟨y, hy, hsame⟩ := h.1 x hx
      exact ⟨y, hy, hsame.symm⟩
    · rintro ⟨y, hy, rfl⟩
      exact h.2 y hy

theorem isAmong_iff {u : Unique} {us : List Unique} :
    u.isAmong us = true ↔ ∃ v ∈ us, u.LooksLike v := by
  rw [isAmong, List.any_eq_true]
  refine exists_congr fun v => and_congr_right fun _ => ?_
  rw [beq_iff_eq, eq_comm, columnSet_eq_iff]

end Unique

/-! ### The constraints that are listed -/

namespace Unique

theorem LooksLike.symm {u v : Unique} (h : u.LooksLike v) : v.LooksLike u := by
  refine ⟨fun y hy => ?_, fun x hx => ?_⟩
  · obtain ⟨x, hx, hsame⟩ := h.2 y hy
    exact ⟨x, hx, hsame.symm⟩
  · obtain ⟨y, hy, hsame⟩ := h.1 x hx
    exact ⟨y, hy, hsame.symm⟩

end Unique

namespace Difference

/-- Constraints are compared by their columns: one is listed exactly if none of the other side is
over the same columns. -/
structure ComparesColumns (x : Difference) (m : Model) (t : LiveTable) : Prop where
  missing : ∀ u, u ∈ x.missingUniques ↔ u ∈ m.uniques ∧ ∀ v ∈ t.uniques, ¬ u.SameColumns v
  obsolete : ∀ v, v ∈ x.obsoleteUniques ↔ v ∈ t.uniques ∧ ∀ u ∈ m.uniques, ¬ u.SameColumns v

/-- What is found out about the constraints of a model and a table. -/
structure ListsUniques (x : Difference) (m : Model) (t : LiveTable) : Prop where
  /-- A constraint of the model is missing exactly if none of the table looks like it. -/
  missing : ∀ u, u ∈ x.missingUniques ↔ u ∈ m.uniques ∧ ∀ v ∈ t.uniques, ¬ u.LooksLike v
  /-- A constraint of the table is obsolete exactly if none of the model looks like it. -/
  obsolete : ∀ v, v ∈ x.obsoleteUniques ↔ v ∈ t.uniques ∧ ∀ u ∈ m.uniques, ¬ u.LooksLike v
  /-- What is listed has no counterpart over the same columns. -/
  sound : (∀ u ∈ x.missingUniques, ∀ v ∈ t.uniques, ¬ u.SameColumns v) ∧
    ∀ v ∈ x.obsoleteUniques, ∀ u ∈ m.uniques, ¬ u.SameColumns v
  /-- Nothing is overlooked exactly if a constraint has a counterpart over the same columns as soon
  as one of the other side looks like it. -/
  compares_iff : x.ComparesColumns m t ↔ ∀ u ∈ m.uniques, ∀ v ∈ t.uniques, u.LooksLike v →
    (∃ w ∈ t.uniques, u.SameColumns w) ∧ ∃ w ∈ m.uniques, w.SameColumns v
  /-- That is so if lower case tells the names in constraints apart, as it does in ASCII. -/
  compares_of_apart : (∀ u ∈ m.uniques, ∀ v ∈ t.uniques, ∀ a ∈ u.columns, ∀ b ∈ v.columns,
    Text.lowercase a = Text.lowercase b → Text.sameName a b = true) → x.ComparesColumns m t

section

variable {d : Dialect} {m : Model} {t : LiveTable}

theorem mem_missingUniques {u : Unique} : u ∈ (diagnose d m t).missingUniques ↔
    u ∈ m.uniques ∧ ∀ v ∈ t.uniques, ¬ u.LooksLike v := by
  have hmem : u ∈ (diagnose d m t).missingUniques ↔
      u ∈ m.uniques ∧ (!u.isAmong t.uniques) = true := List.mem_filter
  rw [hmem, Bool.not_eq_true', ← Bool.not_eq_true, Unique.isAmong_iff]
  simp only [not_exists, not_and]

theorem mem_obsoleteUniques {v : Unique} : v ∈ (diagnose d m t).obsoleteUniques ↔
    v ∈ t.uniques ∧ ∀ u ∈ m.uniques, ¬ u.LooksLike v := by
  have hmem : v ∈ (diagnose d m t).obsoleteUniques ↔
      v ∈ t.uniques ∧ (!v.isAmong m.uniques) = true := List.mem_filter
  rw [hmem, Bool.not_eq_true', ← Bool.not_eq_true, Unique.isAmong_iff]
  simp only [not_exists, not_and]
  exact and_congr_right fun _ => forall₂_congr fun u _ => not_congr ⟨.symm, .symm⟩

/-- Constraints are compared by their columns as soon as those that look alike have counterparts. -/
theorem comparesColumns_iff : (diagnose d m t).ComparesColumns m t ↔
    ∀ u ∈ m.uniques, ∀ v ∈ t.uniques, u.LooksLike v →
      (∃ w ∈ t.uniques, u.SameColumns w) ∧ ∃ w ∈ m.uniques, w.SameColumns v := by
  constructor
  · intro h u hu v hv halike
    have hmissing : u ∉ (diagnose d m t).missingUniques :=
      fun hin => (mem_missingUniques.mp hin).2 v hv halike
    have hobsolete : v ∉ (diagnose d m t).obsoleteUniques :=
      fun hin => (mem_obsoleteUniques.mp hin).2 u hu halike
    rw [h.missing] at hmissing
    rw [h.obsolete] at hobsolete
    push Not at hmissing hobsolete
    exact ⟨hmissing hu, hobsolete hv⟩
  · intro h
    refine ⟨fun u => ?_, fun v => ?_⟩
    · rw [mem_missingUniques]
      refine and_congr_right fun hu => ⟨fun hnone v hv hsame => hnone v hv hsame.looksLike,
        fun hnone v hv halike => ?_⟩
      obtain ⟨⟨w, hw, hsame⟩, -⟩ := h u hu v hv halike
      exact hnone w hw hsame
    · rw [mem_obsoleteUniques]
      refine and_congr_right fun hv => ⟨fun hnone u hu hsame => hnone u hu hsame.looksLike,
        fun hnone u hu halike => ?_⟩
      obtain ⟨-, w, hw, hsame⟩ := h u hu v hv halike
      exact hnone w hw hsame

end

/-- **Which constraints are listed**: those that nothing of the other side looks like. These are
the ones without a counterpart over the same columns, except where another constraint looks alike
without being over the same columns. -/
theorem listsUniques_diagnose (d : Dialect) (m : Model) (t : LiveTable) :
    (diagnose d m t).ListsUniques m t := by
  refine ⟨fun u => mem_missingUniques, fun v => mem_obsoleteUniques, ⟨fun u hu v hv hsame => ?_,
    fun v hv u hu hsame => ?_⟩, comparesColumns_iff, fun happart => comparesColumns_iff.mpr ?_⟩
  · exact (mem_missingUniques.mp hu).2 v hv hsame.looksLike
  · exact (mem_obsoleteUniques.mp hv).2 u hu hsame.looksLike
  · intro u hu v hv halike
    have hsame := halike.sameColumns (happart u hu v hv)
    exact ⟨⟨v, hv, hsame⟩, u, hu, hsame⟩

/-- The constraint over `k` and `é` is overlooked where the table has one over `k` and its other
column `É`. -/
theorem listsUniques_diagnose_accented :
    ∃ mapping m t, Model.build mapping = .ok m ∧
      (t.columns.Pairwise fun a b : LiveColumn => Text.sameName a.name b.name = false) ∧
      m.uniques = [⟨some "u", ["k", "é"]⟩] ∧ t.uniques = [⟨none, ["k", "É"]⟩] ∧
      (∀ u ∈ m.uniques, ∀ v ∈ t.uniques, ¬ u.SameColumns v) ∧
      (diagnose .sqlite m t).missingUniques = [] ∧
      ¬ (diagnose .sqlite m t).ComparesColumns m t := by
  have hbuild : Model.build
      { name := "t"
        fields :=
          [{ name := "k", spelling := "i64", column := some "k", notNull := some true,
             uniques := [.inGroup "u"] },
            { name := "c", spelling := "i64", column := some "é", notNull := some true,
              uniques := [.inGroup "u"] },
            { name := "d", spelling := "i64", column := some "É", notNull := some true }] } =
      .ok ⟨"t", .table, [{ field := "k", name := "k", type := .int64, notNull := true },
        { field := "c", name := "é", type := .int64, notNull := true },
        { field := "d", name := "É", type := .int64, notNull := true }], [],
        [⟨some "u", ["k", "é"]⟩]⟩ := by
    rfl
  let live : LiveTable := ⟨"t", [⟨"k", "INTEGER", false, false, false, true, none⟩,
    ⟨"é", "INTEGER", false, false, false, true, none⟩,
    ⟨"É", "INTEGER", false, false, false, true, none⟩], [], [⟨none, ["k", "É"]⟩]⟩
  have hlower : Text.lowercase "é" = Text.lowercase "É" := by decide
  have halike : Unique.LooksLike ⟨some "u", ["k", "é"]⟩ ⟨none, ["k", "É"]⟩ := by
    simp [Unique.LooksLike, Text.SameMembers, hlower]
  have hother : ¬ Unique.SameColumns ⟨some "u", ["k", "é"]⟩ ⟨none, ["k", "É"]⟩ := by
    simp only [Unique.SameColumns, Text.SameMembers]
    decide
  have hlists := listsUniques_diagnose .sqlite ⟨"t", .table,
    [{ field := "k", name := "k", type := .int64, notNull := true },
      { field := "c", name := "é", type := .int64, notNull := true },
      { field := "d", name := "É", type := .int64, notNull := true }], [],
    [⟨some "u", ["k", "é"]⟩]⟩ live
  refine ⟨_, _, live, hbuild, by decide, rfl, rfl, ?_, ?_, fun hcompares => ?_⟩
  · simpa [live] using hother
  · refine List.eq_nil_iff_forall_not_mem.mpr fun u hu => ?_
    obtain ⟨hmodel, hnone⟩ := (hlists.missing u).mp hu
    obtain rfl := List.mem_singleton.mp hmodel
    exact hnone _ List.mem_cons_self halike
  · obtain ⟨⟨w, hw, hsame⟩, -⟩ := hlists.compares_iff.mp hcompares _ List.mem_cons_self _
      List.mem_cons_self halike
    obtain rfl := List.mem_singleton.mp hw
    exact hother hsame

end Difference

end EntitySql
