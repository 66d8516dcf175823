import EntitySql.Proofs.Migration.Agreement
import EntitySql.Proofs.Migration.Uniques
import EntitySql.Proofs.Names.Folding
import EntitySql.Proofs.Reading.Symbol

/-!
# Plans do not depend on how a catalog lists a table

A catalog may report the columns, indexes and constraints of a table in any order and their names
and types in any case. Two reports of one table lead to the same plan: it is of the same kind, and
its statements are the same up to their order and to case.

What makes it so is that nothing takes the first item of a list without asking for its name, and
that each text taken from a report is compared by what folding leaves of it: names by
`Text.sameName`, the names in constraints by their lower case, types by their normal form. Each step
from the report to the statements then takes items that can be paired to items that can be paired.

## Main definitions

* `LiveTable.Respelled`: two reports differ only in order and case
* `Difference.Respelled`: so do two differences
* `Change.Respelled`: two changes have the same statements up to case

## Main results

* `Text.Paired.rel_find?`: looking up by name does not depend on the order
* `Dialect.normalType_congr`: the normal form of a type does not depend on case
* `Difference.respelled_diagnose`: what separates a table from its model does not depend on either
* `planTable_respelled`: nor does the plan
-/

namespace EntitySql

namespace Text.Paired

/-! ### Lists that can be paired -/

variable {α β γ δ : Type} {R : α → β → Prop} {S : γ → δ → Prop} {xs : List α} {ys : List β}

theorem of_forall₂ (h : List.Forall₂ R xs ys) : Paired R xs ys := ⟨ys, .refl ys, h⟩

theorem refl {R : α → α → Prop} (h : ∀ a, R a a) (xs : List α) : Paired R xs xs :=
  of_forall₂ (List.forall₂_same.mpr fun a _ => h a)

theorem append {xs' : List α} {ys' : List β} (h : Paired R xs ys) (h' : Paired R xs' ys') :
    Paired R (xs ++ xs') (ys ++ ys') := by
  obtain ⟨zs, hperm, hzs⟩ := h
  obtain ⟨zs', hperm', hzs'⟩ := h'
  exact ⟨zs ++ zs', hperm.append hperm', List.rel_append hzs hzs'⟩

theorem map {f : α → γ} {g : β → δ} (h : Paired R xs ys) (hfg : ∀ a b, R a b → S (f a) (g b)) :
    Paired S (xs.map f) (ys.map g) := by
  obtain ⟨zs, hperm, hzs⟩ := h
  exact ⟨zs.map g, hperm.map g, List.rel_map (fun a b => hfg a b) hzs⟩

theorem filterMap {f : α → Option γ} {g : β → Option δ} (h : Paired R xs ys)
    (hfg : ∀ a b, R a b → Option.Rel S (f a) (g b)) :
    Paired S (xs.filterMap f) (ys.filterMap g) := by
  obtain ⟨zs, hperm, hzs⟩ := h
  exact ⟨zs.filterMap g, hperm.filterMap g, List.rel_filterMap (fun a b => hfg a b) hzs⟩

theorem filter {p : α → Bool} {q : β → Bool} (h : Paired R xs ys) (hpq : ∀ a b, R a b → p a = q b) :
    Paired R (xs.filter p) (ys.filter q) := by
  obtain ⟨zs, hperm, hzs⟩ := h
  exact ⟨zs.filter q, hperm.filter q,
    List.rel_filter (fun a b hab => iff_of_eq (congrArg (· = true) (hpq a b hab))) hzs⟩

theorem flatMap {f : α → List γ} {g : β → List δ} (h : Paired R xs ys)
    (hfg : ∀ a b, R a b → Paired S (f a) (g b)) : Paired S (xs.flatMap f) (ys.flatMap g) := by
  obtain ⟨zs, hperm, hzs⟩ := h
  have hitems : Paired S (xs.flatMap f) (zs.flatMap g) := by
    clear hperm
    induction hzs with
    | nil => exact of_forall₂ .nil
    | cons hab _ ih => exact (hfg _ _ hab).append ih
  obtain ⟨items, hitems, hrel⟩ := hitems
  exact ⟨items, hitems.trans (hperm.flatMap_right g), hrel⟩

theorem any_eq {p : α → Bool} {q : β → Bool} (h : Paired R xs ys)
    (hpq : ∀ a b, R a b → p a = q b) : xs.any p = ys.any q := by
  rw [Bool.eq_iff_iff, List.any_eq_true, List.any_eq_true]
  constructor
  · rintro ⟨a, ha, hp⟩
    obtain ⟨b, hb, hab⟩ := h.exists_right ha
    exact ⟨b, hb, hpq a b hab ▸ hp⟩
  · rintro ⟨b, hb, hq⟩
    obtain ⟨a, ha, hab⟩ := h.exists_left hb
    exact ⟨a, ha, hpq a b hab ▸ hq⟩

theorem isEmpty_eq (h : Paired R xs ys) : xs.isEmpty = ys.isEmpty := by
  obtain ⟨zs, hperm, hzs⟩ := h
  rw [← hperm.isEmpty_eq]
  cases hzs <;> rfl

section

variable {f : α → String} {g : β → String}

/-- Of lists that can be paired with the same names, both repeat a name or none does. -/
theorem pairwise_right (hR : ∀ a b, R a b → sameName (f a) (g b) = true) (h : Paired R xs ys)
    (hxs : xs.Pairwise fun a b => sameName (f a) (f b) = false) :
    ys.Pairwise fun a b => sameName (g a) (g b) = false := by
  obtain ⟨zs, hperm, hzs⟩ := h
  have hsymm : ∀ {a b : β}, sameName (g a) (g b) = false → sameName (g b) (g a) = false := by
    intro a b hab
    rw [sameName_comm]
    exact hab
  refine List.Pairwise.perm ?_ hperm hsymm
  have hnames : xs.map (foldCase ∘ f) = zs.map (foldCase ∘ g) := by
    rw [← List.forall₂_eq_eq_eq, List.forall₂_map_left_iff, List.forall₂_map_right_iff]
    exact hzs.imp fun a b hab => sameName_iff.mp (hR a b hab)
  have hxs' : (xs.map (foldCase ∘ f)).Pairwise (· ≠ ·) :=
    List.pairwise_map.mpr (hxs.imp fun hab heq => by simp [sameName_iff.mpr heq] at hab)
  rw [hnames, List.pairwise_map] at hxs'
  exact hxs'.imp fun hne => Bool.eq_false_iff.mpr fun hsame => hne (sameName_iff.mp hsame)

/-- **Looking up by name does not depend on the order**, nor on the case of the name. -/
theorem rel_find? (hR : ∀ a b, R a b → sameName (f a) (g b) = true) (h : Paired R xs ys)
    (hxs : xs.Pairwise fun a b => sameName (f a) (f b) = false) (n : String) :
    Option.Rel R (xs.find? fun a => sameName (f a) n) (ys.find? fun b => sameName (g b) n) := by
  have hys := h.pairwise_right hR hxs
  cases hfind : xs.find? fun a => sameName (f a) n with
  | none =>
    have hnone : ys.find? (fun b => sameName (g b) n) = none := by
      rw [List.find?_eq_none] at hfind ⊢
      intro b hb hbn
      obtain ⟨a, ha, hab⟩ := h.exists_left hb
      exact hfind a ha (sameName_trans (hR a b hab) hbn)
    rw [hnone]
    exact .none
  | some a =>
    obtain ⟨ha, han⟩ := of_find?_eq_some hfind
    obtain ⟨b, hb, hab⟩ := h.exists_right ha
    have hba : sameName (g b) (f a) = true := by
      rw [sameName_comm]
      exact hR a b hab
    rw [find?_of_pairwise hys hb (sameName_trans hba han)]
    exact .some hab

end

end Text.Paired

/-! ### Texts that differ in case -/

namespace Text.Quoted

theorem encode_map_toLower {close : Char} (hclose : close.isAlpha = false) (cs : List Char) :
    encode close (cs.map Char.toLower) = (encode close cs).map Char.toLower := by
  have hlower : close.toLower = close := (toLower_eq_iff hclose).mpr rfl
  induction cs with
  | nil => rfl
  | cons c cs ih =>
    by_cases hc : c = close
    · subst hc
      simp [encode, hlower, ih]
    · have hc' : c.toLower ≠ close := fun h => hc ((toLower_eq_iff hclose).mp h)
      simp [encode, hc, hc', ih]

/-- Quoting names that are the same gives texts that are the same. -/
theorem sameName_enclose {opening close : Char} (hclose : close.isAlpha = false) {a b : String}
    (h : sameName a b = true) :
    sameName (enclose opening close a) (enclose opening close b) = true := by
  have hfold : ∀ s : String, foldCase (enclose opening close s) =
      opening.toLower :: encode close (foldCase s) ++ [close.toLower] := by
    intro s
    rw [foldCase, enclose, String.toList_ofList, encloseChars, foldCase,
      encode_map_toLower hclose]
    simp
  rw [sameName_iff, hfold, hfold, sameName_iff.mp h]

end Text.Quoted

theorem baseType_lowerAscii (s : String) : baseType (Text.lowerAscii s) = baseType s := by
  have hhead : (Text.foldCase s).takeWhile (· != '(') =
      (s.toList.takeWhile (· != '(')).map Char.toLower := by
    have hparen : (fun c => c != '(') ∘ Char.toLower = fun c => c != '(' := by
      funext c
      have hc : c.toLower = '(' ↔ c = '(' := Text.toLower_eq_iff (by decide)
      simp [bne, Bool.beq_eq_decide_eq, hc]
    rw [Text.foldCase, List.takeWhile_map, hparen]
  have hjoin : ∀ ws : List (List Char), [' '].intercalate (ws.map (·.map Char.toLower)) =
      ([' '].intercalate ws).map Char.toLower := by
    intro ws
    induction ws with
    | nil => rfl
    | cons w ws ih =>
      cases ws with
      | nil => simp
      | cons v ws => simpa [List.intercalate_cons_cons] using ih
  have hupper : ∀ cs : List Char, Text.upperAscii (String.ofList (cs.map Char.toLower)) =
      Text.upperAscii (String.ofList cs) := by
    intro cs
    have hlower := Text.upperAscii_lowerAscii (String.ofList cs)
    rwa [Text.lowerAscii, String.toList_ofList] at hlower
  simp only [baseType, Text.toList_lowerAscii, hhead, Text.words_map_toLower, hjoin, hupper]

theorem baseType_congr {a b : String} (h : Text.sameName a b = true) : baseType a = baseType b := by
  rw [← baseType_lowerAscii a, ← baseType_lowerAscii b, Text.lowerAscii_congr h]

namespace Dialect

variable {d : Dialect} (hd : d ∈ shipped)

include hd

/-- **The normal form of a native type does not depend on case.** -/
theorem normalType_congr {a b : String} (h : Text.sameName a b = true) :
    d.normalType a = d.normalType b := by
  rcases mem_shipped.mp hd with rfl | rfl | rfl
  · simp only [sqlite, Affinity.ofType, Text.upperAscii_congr h]
  · simp only [postgres, Postgres.normalType, baseType_congr h]
  · simp only [sqlServer, SqlServer.normalType, baseType_congr h]

theorem sameName_quote {a b : String} (h : Text.sameName a b = true) :
    Text.sameName (d.quote a) (d.quote b) = true := by
  have hclose : d.closeQuote.isAlpha = false := by
    rcases hasPlainQuotes_of_shipped hd with ⟨-, hclose⟩ | ⟨-, hclose⟩ <;> rw [hclose] <;> decide
  exact Text.Quoted.sameName_enclose hclose h

end Dialect

/-! ### Reports and differences -/

/-- Two reports of a column differ only in the case of its name and type. Defaults are not
compared. -/
structure LiveColumn.Respelled (e f : LiveColumn) : Prop where
  name : Text.sameName e.name f.name = true
  nativeType : Text.sameName e.nativeType f.nativeType = true
  primaryKey : e.primaryKey = f.primaryKey
  autoincrement : e.autoincrement = f.autoincrement
  unique : e.unique = f.unique
  notNull : e.notNull = f.notNull

/-- Two reports of a constraint differ only in the order and the case of its columns. The name of a
constraint is not compared. -/
def Unique.Respelled (u v : Unique) : Prop :=
  Text.Paired (fun x y => Text.sameName x y = true) u.columns v.columns

/-- Two reports of a table differ only in the order of its columns, indexes and constraints and in
case. -/
structure LiveTable.Respelled (t s : LiveTable) : Prop where
  columns : Text.Paired LiveColumn.Respelled t.columns s.columns
  indexes : Text.Paired Index.Matches t.indexes s.indexes
  uniques : Text.Paired Unique.Respelled t.uniques s.uniques

/-- Two changes of a column differ only in how the table's column is reported. -/
inductive ColumnChange.Respelled : ColumnChange → ColumnChange → Prop where
  | missing (c : Column) : Respelled (.missing c) (.missing c)
  | obsolete {e f : LiveColumn} : e.Respelled f → Respelled (.obsolete e) (.obsolete f)
  | altered (c : Column) {e f : LiveColumn} : e.Respelled f →
      Respelled (.altered c e) (.altered c f)

/-- Two differences differ only in how the table is reported. -/
structure Difference.Respelled (x y : Difference) : Prop where
  table : x.table = y.table
  columns : Text.Paired ColumnChange.Respelled x.columns y.columns
  missingIndexes : x.missingIndexes = y.missingIndexes
  obsoleteIndexes : Text.Paired Index.Matches x.obsoleteIndexes y.obsoleteIndexes
  alteredIndexes : x.alteredIndexes = y.alteredIndexes
  missingUniques : x.missingUniques = y.missingUniques
  obsoleteUniques : Text.Paired Unique.Respelled x.obsoleteUniques y.obsoleteUniques
  live : x.live.Respelled y.live

theorem LiveColumn.Respelled.requiresValue {e f : LiveColumn} (h : e.Respelled f) :
    e.requiresValue = f.requiresValue := by
  rw [LiveColumn.requiresValue, LiveColumn.requiresValue, h.notNull, h.primaryKey]

theorem LiveColumn.Respelled.rejectsDuplicates {e f : LiveColumn} (h : e.Respelled f) :
    e.rejectsDuplicates = f.rejectsDuplicates := by
  rw [LiveColumn.rejectsDuplicates, LiveColumn.rejectsDuplicates, h.unique, h.primaryKey]

theorem Column.differs_respelled {d : Dialect} (hd : d ∈ Dialect.shipped) (c : Column)
    {e f : LiveColumn} (h : e.Respelled f) : c.differs d e = c.differs d f := by
  rw [Column.differs, Column.differs, Dialect.sameType, Dialect.sameType,
    Dialect.normalType_congr hd h.nativeType, h.primaryKey, h.autoincrement, h.rejectsDuplicates,
    h.requiresValue]

theorem Index.Matches.sameNames {i j : Index} (h : i.Matches j) (columns : List String) :
    Text.sameNames columns i.columns = Text.sameNames columns j.columns := by
  have hkeys : i.columns.map Text.foldCase = j.columns.map Text.foldCase := by
    simpa [Text.sameNames] using Text.sameNames_iff_forall₂.mpr h.columns
  rw [Text.sameNames, Text.sameNames, hkeys]

/-- Constraints that differ in order and case have one set of columns. -/
theorem Unique.Respelled.columnSet_eq {u v : Unique} (h : u.Respelled v) :
    u.columnSet = v.columnSet :=
  Unique.columnSet_eq_iff.mpr
    (SameColumns.looksLike ⟨fun _ hx => h.exists_right hx, fun _ hy => h.exists_left hy⟩)

theorem Unique.isAmong_respelled {us vs : List Unique} (h : Text.Paired Respelled us vs)
    {u v : Unique} (huv : u.columnSet = v.columnSet) : u.isAmong us = v.isAmong vs :=
  h.any_eq fun a b hab => by rw [hab.columnSet_eq, huv]

section

variable {d : Dialect} (hd : d ∈ Dialect.shipped) (m : Model) {t s : LiveTable} (h : t.Respelled s)
  (hcolumns : t.columns.Pairwise fun a b => Text.sameName a.name b.name = false)
  (hindexes : t.indexes.Pairwise fun i j => Text.sameName i.name j.name = false)

include h

include hcolumns in
theorem LiveTable.Respelled.rel_column? (n : String) :
    Option.Rel LiveColumn.Respelled (t.column? n) (s.column? n) :=
  h.columns.rel_find? (fun _ _ hef => hef.name) hcolumns n

include hindexes in
theorem LiveTable.Respelled.rel_index? (n : String) :
    Option.Rel Index.Matches (t.index? n) (s.index? n) :=
  h.indexes.rel_find? (fun _ _ hij => hij.name) hindexes n

theorem LiveTable.Respelled.isIndexed_eq {n n' : String} (hn : Text.sameName n n' = true) :
    t.isIndexed n = s.isIndexed n' := by
  have hnames : Text.Paired (fun x y => Text.sameName x y = true)
      (t.indexes.flatMap (·.columns) ++ t.uniques.flatMap (·.columns))
      (s.indexes.flatMap (·.columns) ++ s.uniques.flatMap (·.columns)) :=
    (h.indexes.flatMap fun i j hij => .of_forall₂ hij.columns).append
      (h.uniques.flatMap fun u v huv => huv)
  refine hnames.any_eq fun x y hxy => ?_
  rw [Text.sameName, Text.sameName, Text.sameName_iff.mp hxy, Text.sameName_iff.mp hn]

namespace Difference

include hd hcolumns in
theorem rel_ofColumn (c : Column) :
    Option.Rel ColumnChange.Respelled (ofColumn d t c) (ofColumn d s c) := by
  have hfound := h.rel_column? hcolumns c.name
  rw [ofColumn, ofColumn]
  generalize t.column? c.name = found, s.column? c.name = found' at hfound ⊢
  cases hfound with
  | none => exact .some (.missing c)
  | @some e f hef =>
    simp only [Column.differs_respelled hd c hef]
    split
    · exact .some (.altered c hef)
    · exact .none

omit h in
theorem rel_ofLiveColumn {e f : LiveColumn} (hef : e.Respelled f) :
    Option.Rel ColumnChange.Respelled (ofLiveColumn m e) (ofLiveColumn m f) := by
  rw [ofLiveColumn, ofLiveColumn, m.column?_congr hef.name]
  split
  · exact .some (.obsolete hef)
  · exact .none

include hindexes in
theorem isAltered_respelled (i : Index) : isAltered t i = isAltered s i := by
  have hfound := h.rel_index? hindexes i.name
  rw [isAltered, isAltered]
  generalize t.index? i.name = found, s.index? i.name = found' at hfound ⊢
  cases hfound with
  | none => rfl
  | some hij => simp only [hij.sameNames]

include hd hcolumns hindexes

/-- **What separates a table from its model does not depend on how the table is reported.** -/
theorem respelled_diagnose : (diagnose d m t).Respelled (diagnose d m s) where
  table := rfl
  columns := by
    refine (h.columns.filterMap fun e f hef => rel_ofLiveColumn m hef).append ?_
    exact .of_forall₂ (List.rel_filterMap (R := Eq)
      (by rintro c _ rfl; exact rel_ofColumn hd h hcolumns c) (List.forall₂_refl m.columns))
  missingIndexes := by
    refine List.filter_congr fun i _ => ?_
    have hfound := h.rel_index? hindexes i.name
    generalize t.index? i.name = found, s.index? i.name = found' at hfound ⊢
    cases hfound <;> rfl
  obsoleteIndexes := by
    refine h.indexes.filter fun i j hij => ?_
    simp only [Text.sameName_congr_right hij.name]
  alteredIndexes := List.filter_congr fun i _ => isAltered_respelled h hindexes i
  missingUniques := List.filter_congr fun u _ => by rw [Unique.isAmong_respelled h.uniques rfl]
  obsoleteUniques := by
    refine h.uniques.filter fun u v huv => ?_
    rw [Unique.isAmong, Unique.isAmong, huv.columnSet_eq]
  live := h

end Difference

end

/-! ### Changes -/

/-- Two changes have the same statements up to case. -/
def Change.Respelled (d : Dialect) (a b : Change) : Prop :=
  List.Forall₂ (fun x y => Text.sameName x y = true) (a.statements d) (b.statements d)

namespace Change

theorem Respelled.refl (d : Dialect) (a : Change) : a.Respelled d a :=
  List.forall₂_same.mpr fun sql _ => Text.sameName_refl sql

theorem respelled_of_statement {d : Dialect} {a b : Change} {sql sql' : String}
    (ha : a.statements d = [sql]) (hb : b.statements d = [sql'])
    (h : Text.sameName sql sql' = true) : a.Respelled d b := by
  rw [Respelled, ha, hb]
  exact .cons h .nil

variable {d : Dialect} (hd : d ∈ Dialect.shipped)

include hd

theorem respelled_dropColumn (table : String) {a b : String} (h : Text.sameName a b = true) :
    (dropColumn table a).Respelled d (dropColumn table b) := by
  refine respelled_of_statement rfl rfl ?_
  exact Text.sameName_append (Text.sameName_refl _) (Dialect.sameName_quote hd h)

theorem respelled_dropIndex (table : String) {a b : String} (h : Text.sameName a b = true) :
    (dropIndex table a).Respelled d (dropIndex table b) := by
  refine respelled_of_statement rfl rfl ?_
  refine Text.sameName_append ?_ (Text.sameName_refl _)
  exact Text.sameName_append (Text.sameName_refl _) (Dialect.sameName_quote hd h)

omit hd in
/-- Copying takes the values of the same columns in the same order. -/
theorem respelled_copyRows (scratch table : String) {cells cells' : List (String × CopySource)}
    (h : List.Forall₂ (fun x y => x.1 = y.1 ∧
      Text.sameName (d.copyExpression x.2) (d.copyExpression y.2) = true) cells cells') :
    (copyRows scratch table cells).Respelled d (copyRows scratch table cells') := by
  refine respelled_of_statement rfl rfl ?_
  have htargets : cells.map (·.1) = cells'.map (·.1) := by
    rw [← List.forall₂_eq_eq_eq, List.forall₂_map_left_iff, List.forall₂_map_right_iff]
    exact h.imp fun x y hxy => hxy.1
  have hsources : List.Forall₂ (fun x y => Text.sameName x y = true)
      (cells.map fun cell => d.copyExpression cell.2)
      (cells'.map fun cell => d.copyExpression cell.2) := by
    rw [List.forall₂_map_left_iff, List.forall₂_map_right_iff]
    exact h.imp fun x y hxy => hxy.2
  unfold Dialect.copyRows
  rw [htargets]
  refine Text.sameName_append (Text.sameName_append ?_ ?_) (Text.sameName_refl _)
  · exact Text.sameName_append (Text.sameName_refl _) (Text.sameName_intercalate hsources ", ")
  · exact Text.sameName_refl _

end Change

namespace Difference

variable {d : Dialect} (hd : d ∈ Dialect.shipped) {x y : Difference} (h : x.Respelled y)

include h

theorem Respelled.missing : Text.Paired (· = ·) x.missing y.missing := by
  refine h.columns.filterMap fun a b hab => ?_
  cases hab with
  | missing c => exact .some rfl
  | obsolete _ | altered _ _ => exact .none

theorem Respelled.obsolete : Text.Paired LiveColumn.Respelled x.obsolete y.obsolete := by
  refine h.columns.filterMap fun a b hab => ?_
  cases hab with
  | obsolete hef => exact .some hef
  | missing _ | altered _ _ => exact .none

theorem Respelled.altered :
    Text.Paired (fun p q => p.1 = q.1 ∧ p.2.Respelled q.2) x.altered y.altered := by
  refine h.columns.filterMap fun a b hab => ?_
  cases hab with
  | altered c hef => exact .some ⟨rfl, hef⟩
  | missing _ | obsolete _ => exact .none

theorem Respelled.isEmpty_eq : x.isEmpty = y.isEmpty := by
  rw [isEmpty, isEmpty, h.columns.isEmpty_eq, h.missingIndexes, h.obsoleteIndexes.isEmpty_eq,
    h.alteredIndexes, h.missingUniques, h.obsoleteUniques.isEmpty_eq]

theorem Respelled.requiresRebuild_eq (d : Dialect) :
    x.requiresRebuild d = y.requiresRebuild d := by
  have hmissing : ∀ p : Column → Bool, x.missing.any p = y.missing.any p :=
    fun p => h.missing.any_eq fun a b hab => congrArg p hab
  rw [requiresRebuild, requiresRebuild]
  split
  · rw [hmissing]
    congr 1
    refine h.altered.any_eq fun p q hpq => ?_
    rw [changesKeyOrUniqueness, changesKeyOrUniqueness, hpq.1, hpq.2.primaryKey,
      hpq.2.autoincrement, hpq.2.rejectsDuplicates]
  · rw [h.altered.isEmpty_eq, h.missingUniques, hmissing]
    congr 1
    refine h.obsolete.any_eq fun e f hef => ?_
    rw [hef.primaryKey, hef.unique, h.live.isIndexed_eq hef.name]

include hd in
theorem Respelled.inPlaceChanges :
    Text.Paired (Change.Respelled d) x.inPlaceChanges y.inPlaceChanges := by
  have hsame : ∀ {xs : List Index} {f : Index → Change},
      Text.Paired (Change.Respelled d) (xs.map f) (xs.map f) := .refl (.refl d) _
  rw [Difference.inPlaceChanges, Difference.inPlaceChanges, List.map_append, List.map_append,
    List.map_append, List.map_append, h.alteredIndexes, h.missingIndexes, h.missingUniques,
    h.table]
  refine .append (.append (.append (.append (.append ?_ ?_) ?_) (.append ?_ hsame))
    (.append hsame hsame)) (.refl (.refl d) _)
  · exact h.obsolete.map fun e f hef => Change.respelled_dropColumn hd _ hef.name
  · refine h.missing.map fun c c' hc => ?_
    rw [hc]
    exact .refl d _
  · refine h.altered.map fun p q hpq => ?_
    rw [hpq.1]
    exact .refl d _
  · exact h.obsoleteIndexes.map fun i j hij => Change.respelled_dropIndex hd _ hij.name

end Difference

/-! ### Plans -/

namespace Rebuild

/-- A copied column takes its value from the same place, however that is reported. -/
theorem rel_cell? {d : Dialect} (hd : d ∈ Dialect.shipped) {t s : LiveTable} (h : t.Respelled s)
    (hcolumns : t.columns.Pairwise fun a b => Text.sameName a.name b.name = false) (c : Column) :
    Option.Rel (fun x y => x.1 = y.1 ∧
      Text.sameName (d.copyExpression x.2) (d.copyExpression y.2) = true)
      (cell? t c) (cell? s c) := by
  have hfound := h.rel_column? hcolumns c.name
  rw [cell?, cell?]
  generalize t.column? c.name = found, s.column? c.name = found' at hfound ⊢
  cases hfound with
  | none =>
    dsimp only
    split
    · exact .some ⟨rfl, Text.sameName_refl _⟩
    · exact .none
  | @some e f hef =>
    have hquote := Dialect.sameName_quote hd hef.name
    simp only [hef.requiresValue]
    split
    · refine .some ⟨rfl, ?_⟩
      refine Text.sameName_append (Text.sameName_append (Text.sameName_append ?_ ?_) ?_) ?_
      · exact Text.sameName_append (Text.sameName_refl _) hquote
      all_goals exact Text.sameName_refl _
    · exact .some ⟨rfl, hquote⟩

/-- **A rebuild does the same at every step**, however the table is reported. -/
theorem respelled_changes {d : Dialect} (hd : d ∈ Dialect.shipped) {x y : Difference}
    (h : x.live.Respelled y.live)
    (hcolumns : x.live.columns.Pairwise fun a b => Text.sameName a.name b.name = false) (m : Model)
    (step : RebuildStep) :
    Text.Paired (Change.Respelled d) ((⟨m, x⟩ : Rebuild).changes step)
      ((⟨m, y⟩ : Rebuild).changes step) := by
  cases step with
  | diagnose | done => exact .of_forall₂ .nil
  | createNew | dropOld => exact .refl (.refl d) _
  | moveAside =>
    have hdropped : Text.Paired (Change.Respelled d)
        (x.live.indexes.map fun i => .dropIndex (scratchStart ++ m.name) i.name)
        (y.live.indexes.map fun i => .dropIndex (scratchStart ++ m.name) i.name) :=
      h.indexes.map fun i j hij => Change.respelled_dropIndex hd _ hij.name
    exact .append (.refl (.refl d)
      [.dropTable (scratchStart ++ m.name), .moveAside m.name (scratchStart ++ m.name)]) hdropped
  | copyData =>
    have hcells : List.Forall₂ _ (m.columns.filterMap (cell? x.live))
        (m.columns.filterMap (cell? y.live)) :=
      List.rel_filterMap (R := Eq) (by rintro c _ rfl; exact rel_cell? hd h hcolumns c)
        (List.forall₂_refl m.columns)
    have hempty := (Text.Paired.of_forall₂ hcells).isEmpty_eq
    have hcopied := Change.respelled_copyRows (scratchStart ++ m.name) m.name hcells
    simp only [changes, cells, hempty]
    cases (m.columns.filterMap (cell? y.live)).isEmpty with
    | true => exact .of_forall₂ .nil
    | false => exact .of_forall₂ (.cons hcopied .nil)

end Rebuild

/-- **Plans do not depend on how a catalog lists a table**: neither on the order of its columns,
indexes and constraints nor on the case of their names and types. -/
theorem planTable_respelled {d : Dialect} (hd : d ∈ Dialect.shipped) (m : Model)
    {t s : LiveTable} (h : t.Respelled s)
    (hcolumns : t.columns.Pairwise fun a b => Text.sameName a.name b.name = false)
    (hindexes : t.indexes.Pairwise fun i j => Text.sameName i.name j.name = false) :
    (planTable d m (some t)).kind = (planTable d m (some s)).kind ∧
      Text.Paired (fun x y => Text.sameName x y = true)
        ((planTable d m (some t)).statements d) ((planTable d m (some s)).statements d) := by
  have hdiff := Difference.respelled_diagnose hd m h hcolumns hindexes
  have hstatements : ∀ {p q : Plan}, Text.Paired (Change.Respelled d) p.changes q.changes →
      Text.Paired (fun x y => Text.sameName x y = true) (p.statements d) (q.statements d) :=
    fun hpq => hpq.flatMap fun a b hab => .of_forall₂ hab
  have hinPlace := hdiff.inPlaceChanges hd
  have hrebuild : Text.Paired (Change.Respelled d)
      (Plan.rebuild ⟨m, .diagnose d m t⟩).changes (Plan.rebuild ⟨m, .diagnose d m s⟩).changes :=
    Text.Paired.flatMap (.refl (fun _ => rfl) Rebuild.steps) fun step _ hstep =>
      hstep ▸ Rebuild.respelled_changes hd h hcolumns m step
  simp only [planTable, hdiff.isEmpty_eq, hdiff.requiresRebuild_eq, hinPlace.isEmpty_eq]
  cases (Difference.diagnose d m s).isEmpty with
  | true => exact ⟨rfl, .of_forall₂ .nil⟩
  | false =>
    cases (Difference.diagnose d m s).requiresRebuild d with
    | true => exact ⟨rfl, hstatements hrebuild⟩
    | false =>
      cases (Difference.diagnose d m s).inPlaceChanges.isEmpty with
      | true => exact ⟨rfl, .of_forall₂ .nil⟩
      | false => exact ⟨rfl, hstatements hinPlace⟩

/-- A table with an obsolete column `b` and an index on it loses both, though a second report lists
its columns backwards and in capitals. -/
theorem planTable_respelled_capitals :
    ∃ t s : LiveTable,
      t.columns.map (·.name) = ["a", "b"] ∧ s.columns.map (·.name) = ["B", "A"] ∧
      (planTable .postgres ⟨"t", .table, [{ field := "a", name := "a", type := .text }], [], []⟩
        (some s)).kind = "in-place" ∧
      Text.Paired (fun x y => Text.sameName x y = true)
        ["ALTER TABLE \"t\" DROP COLUMN \"b\"", "DROP INDEX IF EXISTS \"i\""]
        ((planTable .postgres
          ⟨"t", .table, [{ field := "a", name := "a", type := .text }], [], []⟩
          (some s)).statements .postgres) := by
  let t : LiveTable := ⟨"t", [⟨"a", "text", false, false, false, false, none⟩,
    ⟨"b", "bigint", false, false, false, false, none⟩], [⟨"i", ["b"]⟩], []⟩
  let s : LiveTable := ⟨"T", [⟨"B", "BIGINT", false, false, false, false, none⟩,
    ⟨"A", "TEXT", false, false, false, false, none⟩], [⟨"I", ["B"]⟩], []⟩
  have hts : t.Respelled s := by
    refine ⟨⟨_, .swap _ _ [], .cons ?_ (.cons ?_ .nil)⟩, .of_forall₂ (.cons ?_ .nil),
      .of_forall₂ .nil⟩
    · exact ⟨by decide, by decide, rfl, rfl, rfl, rfl⟩
    · exact ⟨by decide, by decide, rfl, rfl, rfl, rfl⟩
    · exact ⟨by decide, .cons (by decide) .nil⟩
  have hplan := planTable_respelled (d := .postgres) (by simp [Dialect.shipped])
    ⟨"t", .table, [{ field := "a", name := "a", type := .text }], [], []⟩ hts
    (by decide) (by decide)
  have hkind : (planTable .postgres
      ⟨"t", .table, [{ field := "a", name := "a", type := .text }], [], []⟩ (some t)).kind =
        "in-place" := by
    decide +kernel
  have hstatements : (planTable .postgres
      ⟨"t", .table, [{ field := "a", name := "a", type := .text }], [], []⟩ (some t)).statements
        .postgres = ["ALTER TABLE \"t\" DROP COLUMN \"b\"", "DROP INDEX IF EXISTS \"i\""] := by
    decide +kernel
  rw [hkind, hstatements] at hplan
  exact ⟨t, s, rfl, rfl, hplan.1.symm, hplan.2⟩

end EntitySql
