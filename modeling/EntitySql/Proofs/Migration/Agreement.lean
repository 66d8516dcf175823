import EntitySql.Proofs.Migration.Convergence

/-!
# Nothing to do means that model and table agree

Planning leaves a table alone in two cases: when no difference is found, and when the differences
that are found give nothing to execute. In both the table is as its model says. What that means is
stated here without looking anything up: the columns of model and table can be paired, each with the
one that corresponds to it, and so can their indexes, and each constraint of the model is on the
table. Defaults, the order of columns and further constraints of the table have no part in it.

The planner compares by looking up names in both directions. On lists without repeated names that
comes to the same as a pairing, which is `Text.paired_iff`.

## Main definitions

* `Text.Paired`: two lists can be paired item by item, in some order
* `Column.Matches`, `Index.Matches`, `Model.Matches`: a column, an index, a table is as the model
  says

## Main results

* `Difference.agrees_iff_matches`: looking up names in both directions decides the pairing
* `Difference.agrees_of_inPlaceChanges_eq_nil`: differences that give no change are none
* `Difference.planTable_eq_noOp_iff_matches`: nothing is to be done exactly if model and table agree
-/

namespace EntitySql

namespace Text

variable {α β : Type}

/-- The items of two lists can be paired, each with one that it is related to. -/
def Paired (R : α → β → Prop) (xs : List α) (ys : List β) : Prop :=
  ∃ zs, zs.Perm ys ∧ List.Forall₂ R xs zs

theorem Paired.exists_right {R : α → β → Prop} {xs : List α} {ys : List β} (h : Paired R xs ys)
    {a : α} (ha : a ∈ xs) : ∃ b ∈ ys, R a b := by
  obtain ⟨zs, hperm, hzs⟩ := h
  obtain ⟨i, hi, rfl⟩ := List.getElem_of_mem ha
  have hi' : i < zs.length := hzs.length_eq ▸ hi
  exact ⟨zs[i], hperm.mem_iff.mp (List.getElem_mem hi'), hzs.get hi hi'⟩

theorem Paired.exists_left {R : α → β → Prop} {xs : List α} {ys : List β} (h : Paired R xs ys)
    {b : β} (hb : b ∈ ys) : ∃ a ∈ xs, R a b := by
  obtain ⟨zs, hperm, hzs⟩ := h
  obtain ⟨i, hi, rfl⟩ := List.getElem_of_mem (hperm.mem_iff.mpr hb)
  have hi' : i < xs.length := hzs.length_eq ▸ hi
  exact ⟨xs[i], List.getElem_mem hi', hzs.get hi' hi⟩

/-- Related items have one name, and neither list repeats a name. Then the lists are paired as soon
as each item on the left is related to one on the right, and no name is on the right only. -/
theorem paired_iff {R : α → β → Prop} {f : α → String} {g : β → String}
    (hR : ∀ a b, R a b → sameName (f a) (g b) = true) {xs : List α} {ys : List β}
    (hxs : xs.Pairwise fun a b => sameName (f a) (f b) = false)
    (hys : ys.Pairwise fun a b => sameName (g a) (g b) = false) :
    Paired R xs ys ↔
      (∀ a ∈ xs, ∃ b ∈ ys, R a b) ∧ ∀ b ∈ ys, ∃ a ∈ xs, sameName (f a) (g b) = true := by
  constructor
  · intro h
    refine ⟨fun a ha => h.exists_right ha, fun b hb => ?_⟩
    obtain ⟨a, ha, hab⟩ := h.exists_left hb
    exact ⟨a, ha, hR a b hab⟩
  · rintro ⟨hright, hleft⟩
    induction xs generalizing ys with
    | nil =>
      have hnil : ys = [] := List.eq_nil_iff_forall_not_mem.mpr fun b hb => by
        obtain ⟨a, ha, -⟩ := hleft b hb
        exact List.not_mem_nil ha
      exact ⟨[], by rw [hnil], .nil⟩
    | cons a xs ih =>
      obtain ⟨hfirst, hrest⟩ := List.pairwise_cons.mp hxs
      obtain ⟨b, hb, hab⟩ := hright a List.mem_cons_self
      obtain ⟨before, behind, rfl⟩ := List.append_of_mem hb
      have hperm : (b :: (before ++ behind)).Perm (before ++ b :: behind) :=
        List.perm_middle.symm
      have hsymm : Std.Symm fun x y : β => sameName (g x) (g y) = false :=
        ⟨fun x y hxy => by rw [sameName_comm]; exact hxy⟩
      obtain ⟨hother, hothers⟩ :=
        List.pairwise_cons.mp (hys.perm hperm.symm fun hxy => hsymm.symm _ _ hxy)
      have hnames := hR a b hab
      obtain ⟨zs, hzs, hpairs⟩ := ih hrest hothers
        (by
          -- another item on the left is not related to `b`, whose name is that of `a`
          intro c hc
          obtain ⟨e, he, hce⟩ := hright c (List.mem_cons_of_mem a hc)
          rcases List.mem_cons.mp (hperm.mem_iff.mpr he) with rfl | he
          · have hsame := sameName_trans hnames (by rw [sameName_comm]; exact hR c e hce)
            rw [hfirst c hc] at hsame
            exact absurd hsame (by decide)
          · exact ⟨e, he, hce⟩)
        (by
          intro e he
          obtain ⟨c, hc, hce⟩ := hleft e (hperm.mem_iff.mp (List.mem_cons_of_mem b he))
          rcases List.mem_cons.mp hc with rfl | hc
          · have hsame := sameName_trans (by rw [sameName_comm]; exact hnames) hce
            rw [hother e he] at hsame
            exact absurd hsame (by decide)
          · exact ⟨c, hc, hce⟩)
      exact ⟨b :: zs, (hzs.cons b).trans hperm, .cons hab hpairs⟩

theorem sameNames_iff_forall₂ {xs ys : List String} :
    sameNames xs ys = true ↔ List.Forall₂ (fun x y => sameName x y = true) xs ys := by
  rw [sameNames, beq_iff_eq]
  induction xs generalizing ys with
  | nil => cases ys <;> simp
  | cons x xs ih => cases ys <;> simp [ih, sameName_iff]

end Text

/-- A column of a table is as the model says: it has the name, up to case, an equivalent type, and
the same key, numbering, uniqueness and nullability. -/
structure Column.Matches (d : Dialect) (c : Column) (e : LiveColumn) : Prop where
  name : Text.sameName c.name e.name = true
  type : d.normalType (d.nativeType c.type c.size) = d.normalType e.nativeType
  primaryKey : c.primaryKey = e.primaryKey
  autoincrement : c.autoincrement = e.autoincrement
  uniqueness : c.rejectsDuplicates = e.rejectsDuplicates
  nullability : c.requiresValue = e.requiresValue

/-- An index of a table is as the model says: it has the name and the columns in their order, up to
case. -/
structure Index.Matches (i j : Index) : Prop where
  name : Text.sameName i.name j.name = true
  columns : List.Forall₂ (fun x y => Text.sameName x y = true) i.columns j.columns

/-- Model and table agree. -/
structure Model.Matches (d : Dialect) (m : Model) (t : LiveTable) : Prop where
  /-- The columns are the same up to order and case. -/
  columns : Text.Paired (Column.Matches d) m.columns t.columns
  /-- The indexes are the same up to order and case. -/
  indexes : Text.Paired Index.Matches m.indexes t.indexes
  /-- Each constraint of the model is on the table. -/
  uniques : ∀ u ∈ m.uniques, ∃ v ∈ t.uniques, v.columnSet = u.columnSet

namespace Difference

variable {d : Dialect} {m : Model} {t : LiveTable}

theorem matches_iff {c : Column} {e : LiveColumn} :
    c.Matches d e ↔ Text.sameName c.name e.name = true ∧ c.differs d e = false := by
  simp only [Column.differs, Bool.or_eq_false_iff, Bool.not_eq_false', bne_eq_false_iff_eq,
    Dialect.sameType, beq_iff_eq, and_assoc]
  constructor
  · rintro ⟨hname, htype, hkey, hauto, hunique, hvalue⟩
    exact ⟨hname, htype, hkey, hauto, hunique, hvalue⟩
  · rintro ⟨hname, htype, hkey, hauto, hunique, hvalue⟩
    exact ⟨hname, htype, hkey, hauto, hunique, hvalue⟩

/-- Looking up the columns of each side by name on the other decides whether they can be paired, and
likewise for the indexes. -/
theorem agrees_iff_matches
    (hm : m.columns.Pairwise fun a b => Text.sameName a.name b.name = false)
    (hmi : m.indexes.Pairwise fun i j => Text.sameName i.name j.name = false)
    (ht : t.columns.Pairwise fun a b => Text.sameName a.name b.name = false)
    (hti : t.indexes.Pairwise fun i j => Text.sameName i.name j.name = false) :
    Agrees d m t ↔ m.Matches d t := by
  have hcolumn : ∀ n e, t.column? n = some e ↔ e ∈ t.columns ∧ Text.sameName e.name n = true :=
    fun n e => ⟨LiveTable.of_column?, fun h => Text.find?_of_pairwise ht h.1 h.2⟩
  have hindex : ∀ n j, t.index? n = some j ↔ j ∈ t.indexes ∧ Text.sameName j.name n = true :=
    fun n j => ⟨LiveTable.of_index?, fun h => Text.find?_of_pairwise hti h.1 h.2⟩
  have hcolumns := Text.paired_iff (R := Column.Matches d) (fun _ _ h => h.name) hm ht
  have hindexes := Text.paired_iff (R := Index.Matches) (fun _ _ h => h.name) hmi hti
  constructor
  · intro h
    refine ⟨hcolumns.mpr ⟨fun c hc => ?_, fun e he => ?_⟩,
      hindexes.mpr ⟨fun i hi => ?_, h.no_obsolete_index⟩, fun u hu => ?_⟩
    · obtain ⟨e, he, hdiffers⟩ := h.columns c hc
      obtain ⟨hmem, hname⟩ := (hcolumn _ _).mp he
      rw [Text.sameName_comm] at hname
      exact ⟨e, hmem, matches_iff.mpr ⟨hname, hdiffers⟩⟩
    · have hsome := h.no_obsolete e.name (LiveTable.isSome_column?_of_mem he)
      exact Model.isSome_column?_iff.mp hsome
    · obtain ⟨j, hj, hsame⟩ := h.indexes i hi
      obtain ⟨hmem, hname⟩ := (hindex _ _).mp hj
      rw [Text.sameName_comm] at hname
      exact ⟨j, hmem, hname, Text.sameNames_iff_forall₂.mp hsame⟩
    · simpa [Unique.isAmong] using h.uniques u hu
  · intro h
    obtain ⟨hright, hleft⟩ := hcolumns.mp h.columns
    obtain ⟨hiright, hileft⟩ := hindexes.mp h.indexes
    refine ⟨fun n hn => ?_, fun c hc => ?_, fun i hi => ?_, hileft, fun u hu => ?_⟩
    · obtain ⟨e, he⟩ := Option.isSome_iff_exists.mp hn
      obtain ⟨hmem, hname⟩ := (hcolumn _ _).mp he
      obtain ⟨c, hc, hce⟩ := hleft e hmem
      exact Model.isSome_column?_iff.mpr ⟨c, hc, Text.sameName_trans hce hname⟩
    · obtain ⟨e, he, hce⟩ := hright c hc
      obtain ⟨hname, hdiffers⟩ := matches_iff.mp hce
      rw [Text.sameName_comm] at hname
      exact ⟨e, (hcolumn _ _).mpr ⟨he, hname⟩, hdiffers⟩
    · obtain ⟨j, hj, hij⟩ := hiright i hi
      have hname := hij.name
      rw [Text.sameName_comm] at hname
      exact ⟨j, (hindex _ _).mpr ⟨hj, hname⟩, Text.sameNames_iff_forall₂.mpr hij.columns⟩
    · simpa [Unique.isAmong] using h.uniques u hu

/-- Differences that give no change are none, except for constraints that only the table has. -/
theorem agrees_of_inPlaceChanges_eq_nil (h : (diagnose d m t).inPlaceChanges = []) :
    Agrees d m t := by
  simp only [inPlaceChanges, List.append_eq_nil_iff, List.map_eq_nil_iff] at h
  obtain ⟨⟨⟨⟨⟨hobsolete, hmissing⟩, haltered⟩, hdropped, -⟩, haltereds, hcreated⟩, huniques⟩ := h
  refine ⟨fun n hn => ?_, fun c hc => ?_, fun i hi => ?_, fun j hj => ?_, fun u hu => ?_⟩
  · obtain ⟨e, he⟩ := Option.isSome_iff_exists.mp hn
    obtain ⟨hmem, hname⟩ := LiveTable.of_column? he
    rw [← m.column?_congr hname, Option.isSome_iff_ne_none]
    intro hnone
    have hin : e ∈ (diagnose d m t).obsolete := mem_obsolete.mpr ⟨hmem, hnone⟩
    simp [hobsolete] at hin
  · cases hfind : t.column? c.name with
    | none =>
      have hin : c ∈ (diagnose d m t).missing := mem_missing.mpr ⟨hc, hfind⟩
      simp [hmissing] at hin
    | some e =>
      refine ⟨e, rfl, ?_⟩
      rw [Bool.eq_false_iff]
      intro hdiffers
      have hin : (c, e) ∈ (diagnose d m t).altered := mem_altered.mpr ⟨hc, hfind, hdiffers⟩
      simp [haltered] at hin
  · have hsome := List.filter_eq_nil_iff.mp hcreated i hi
    obtain ⟨j, hj⟩ : ∃ j, t.index? i.name = some j := by
      simpa [Option.isNone_iff_eq_none, ← Option.isSome_iff_ne_none, Option.isSome_iff_exists]
        using hsome
    have hsame := List.filter_eq_nil_iff.mp haltereds i hi
    simp only [isAltered, hj, Bool.not_eq_true', Bool.not_eq_false] at hsame
    exact ⟨j, hj, hsame⟩
  · simpa using List.filter_eq_nil_iff.mp hdropped j hj
  · simpa using List.filter_eq_nil_iff.mp huniques u hu

/-- A plan that leaves a table alone has found nothing to change. -/
theorem agrees_of_planTable_eq_noOp (h : planTable d m (some t) = .noOp) : Agrees d m t := by
  refine agrees_of_inPlaceChanges_eq_nil ?_
  simp only [planTable] at h
  split at h
  · next hempty =>
    simp only [isEmpty, Bool.and_eq_true, List.isEmpty_iff] at hempty
    obtain ⟨⟨⟨⟨⟨hcolumns, hmissing⟩, hobsolete⟩, haltered⟩, huniques⟩, -⟩ := hempty
    simp [inPlaceChanges, obsolete, missing, altered, hcolumns, hmissing, hobsolete, haltered,
      huniques]
  · split at h
    · simp at h
    · split at h
      · next hchanges => simpa using hchanges
      · simp at h

/-- What the plan of a table leads to agrees with the model, also where there was nothing to do. -/
theorem agrees_of_outcome (hd : d ∈ Dialect.shipped) (hm : m.Valid)
    (hmodel : ∀ n ∈ m.columnNames, Text.IsAscii n)
    (hindexes : m.indexes.Pairwise fun i j => Text.sameName i.name j.name = false)
    {live : Option LiveTable} (hlive : ∀ t ∈ live, ∀ e ∈ t.columns, Text.IsAscii e.name)
    {after : LiveTable} (h : (planTable d m live).outcome d m.name live = some after) :
    Agrees d m after := by
  rcases Plan.agrees_outcome hd hm hmodel hindexes hlive with hplan | ⟨after', hafter, hagrees⟩
  · cases live with
    | none => cases hplan
    | some t =>
      rw [hplan] at h
      obtain rfl : t = after := Option.some.inj h
      exact agrees_of_planTable_eq_noOp hplan
  · obtain rfl : after' = after := Option.some.inj (hafter.symm.trans h)
    exact hagrees

/-! ### What is planned is executed -/

theorem alterColumn?_ne_some_nil (d : Dialect) (table : String) (c : Column) :
    d.alterColumn? table c ≠ some [] := by
  rw [Dialect.alterColumn?]
  split <;> simp

/-- A change that alters a column in place has a statement where the table need not be rebuilt, and
so has every other change. -/
theorem statements_ne_nil (hd : d ∈ Dialect.shipped) {x : Difference}
    (h : x.requiresRebuild d = false) {change : Change} (hchange : change ∈ x.inPlaceChanges) :
    change.statements d ≠ [] := by
  simp only [inPlaceChanges, List.mem_append, List.mem_map] at hchange
  rcases hchange with ((((⟨_, _, rfl⟩ | ⟨_, _, rfl⟩) | ⟨altered, haltered, rfl⟩) | ⟨_, _, rfl⟩) |
    ⟨_, _, rfl⟩) | ⟨_, _, rfl⟩
  case inl.inl.inl.inr =>
    obtain ⟨statements, hstatements⟩ := Option.isSome_iff_exists.mp
      ((of_requiresRebuild_eq_false hd h altered haltered).2 x.table)
    rw [Change.statements, hstatements, Option.getD_some]
    rintro rfl
    exact alterColumn?_ne_some_nil d x.table altered.1 hstatements
  all_goals simp [Change.statements]

/-- A plan for a table that exists executes nothing only if it leaves the table alone. -/
theorem planTable_eq_noOp_of_statements (hd : d ∈ Dialect.shipped)
    (h : (planTable d m (some t)).statements d = []) : planTable d m (some t) = .noOp := by
  simp only [planTable] at h ⊢
  split at h
  · next hempty => rw [if_pos hempty]
  · next hempty =>
    rw [if_neg hempty]
    split at h
    · -- a rebuild starts by dropping what has the name that the table is moved to
      simp [Plan.statements, Plan.changes, Rebuild.allChanges, Rebuild.steps, Rebuild.changes,
        Change.statements] at h
    · next hrebuild =>
      rw [if_neg hrebuild]
      split at h
      · next hchanges => rw [if_pos hchanges]
      · next hchanges =>
        obtain ⟨change, hchange⟩ := List.exists_mem_of_ne_nil _ (by simpa using hchanges)
        have hnone := List.flatMap_eq_nil_iff.mp h change hchange
        exact absurd hnone (statements_ne_nil hd (by simpa using hrebuild) hchange)

/-- **Nothing is to be done exactly if model and table agree**, and then nothing is executed: a
difference is neither overlooked nor planned without a statement that removes it. -/
theorem planTable_eq_noOp_iff_matches (hd : d ∈ Dialect.shipped)
    (hm : m.columns.Pairwise fun a b => Text.sameName a.name b.name = false)
    (hmi : m.indexes.Pairwise fun i j => Text.sameName i.name j.name = false)
    (ht : t.columns.Pairwise fun a b => Text.sameName a.name b.name = false)
    (hti : t.indexes.Pairwise fun i j => Text.sameName i.name j.name = false) :
    (planTable d m (some t) = .noOp ↔ m.Matches d t) ∧
      ((planTable d m (some t)).statements d = [] ↔ m.Matches d t) := by
  have hiff : planTable d m (some t) = .noOp ↔ m.Matches d t := by
    rw [← agrees_iff_matches hm hmi ht hti]
    exact ⟨agrees_of_planTable_eq_noOp, planTable_of_agrees⟩
  refine ⟨hiff, fun h => hiff.mp (planTable_eq_noOp_of_statements hd h), fun h => ?_⟩
  rw [hiff.mpr h]
  rfl

/-- A table with its columns in another order and another case, a wider constraint and a default of
its own agrees with the model. -/
theorem planTable_eq_noOp_reordered :
    planTable .postgres
        ⟨"t", .table, [{ field := "id", name := "id", type := .int64, primaryKey := true },
          { field := "a", name := "a", type := .text, notNull := true }], [⟨"ia", ["a", "id"]⟩], []⟩
        (some ⟨"t", [⟨"A", "TEXT", false, false, false, true, some "'x'"⟩,
          ⟨"ID", "BIGINT", true, false, false, true, none⟩], [⟨"IA", ["A", "id"]⟩],
          [⟨some "u", ["ID", "A"]⟩]⟩) = .noOp := by
  have hiff := planTable_eq_noOp_iff_matches (d := .postgres)
    (m := ⟨"t", .table, [{ field := "id", name := "id", type := .int64, primaryKey := true },
      { field := "a", name := "a", type := .text, notNull := true }], [⟨"ia", ["a", "id"]⟩], []⟩)
    (t := ⟨"t", [⟨"A", "TEXT", false, false, false, true, some "'x'"⟩,
      ⟨"ID", "BIGINT", true, false, false, true, none⟩], [⟨"IA", ["A", "id"]⟩],
      [⟨some "u", ["ID", "A"]⟩]⟩)
    (by simp [Dialect.shipped]) (by simp; decide) (by simp) (by simp; decide) (by simp)
  have htext : Dialect.postgres.nativeType .text none = "TEXT" := rfl
  have hint : Dialect.postgres.nativeType .int64 none = "BIGINT" := rfl
  refine hiff.1.mpr ⟨⟨_, .swap _ _ [], .cons ?_ (.cons ?_ .nil)⟩, ⟨_, .refl _, .cons ?_ .nil⟩, ?_⟩
  · exact ⟨by decide, by rw [hint], rfl, rfl, rfl, rfl⟩
  · exact ⟨by decide, by rw [htext], rfl, rfl, rfl, rfl⟩
  · exact ⟨by decide, .cons (by decide) (.cons (by decide) .nil)⟩
  · simp

end Difference

end EntitySql
