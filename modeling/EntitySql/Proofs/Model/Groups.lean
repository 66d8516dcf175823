import EntitySql.Proofs.Model
import Mathlib.Data.List.Induction

/-!
# What groups collect

Groups are collected one membership at a time, and a group is told by its name alone. So what is
collected is determined by the memberships as a whole: there is one group of each name that occurs,
and it has the columns of the memberships of that name, each once, in the order in which they first
occur. If every item contributes memberships of its own column only, and no two items have the same
column, then a group has the columns of the items that contribute to it, in the order of the items.

## Main definitions

* `Groups.columnsOf`: the columns of the group of a name

## Main results

* `Groups.nodup_names_collect`: collected groups have different names
* `Groups.columnsOf_collect`: the columns of a collected group
* `Groups.mem_collect_iff`: the collected groups
* `Groups.columns_flatMap`: the columns of the group that items contribute to
-/

namespace EntitySql.Groups

/-- The columns of the group of that name, none if there is no such group. -/
def columnsOf : Groups → String → List String
  | [], _ => []
  | (n, columns) :: rest, name => if n = name then columns else columnsOf rest name

/-- Adding to a group leaves the others as they are. -/
theorem columnsOf_add (groups : Groups) (name column n : String) :
    (groups.add name column).columnsOf n =
      if name = n then
        if column ∈ groups.columnsOf n then groups.columnsOf n else groups.columnsOf n ++ [column]
      else groups.columnsOf n := by
  induction groups with
  | nil => by_cases hn : name = n <;> simp [add, columnsOf, hn]
  | cons first rest ih =>
    obtain ⟨m, columns⟩ := first
    rw [add]
    by_cases hm : m = name
    · rw [if_pos hm, columnsOf, columnsOf, hm]
      by_cases hn : name = n <;> simp [hn]
    · rw [if_neg hm, columnsOf, columnsOf, ih]
      by_cases hn : m = n
      · have hname : name ≠ n := fun h => hm (hn.trans h.symm)
        rw [if_pos hn, if_pos hn, if_neg hname]
      · rw [if_neg hn, if_neg hn]

/-- Adding to a group makes a new one behind the others, unless there is one of that name. -/
theorem names_add (groups : Groups) (name column : String) :
    (groups.add name column).map (·.1) =
      if name ∈ groups.map (·.1) then groups.map (·.1) else groups.map (·.1) ++ [name] := by
  induction groups with
  | nil => rfl
  | cons first rest ih =>
    obtain ⟨m, columns⟩ := first
    rw [add]
    by_cases hm : m = name
    · simp [hm]
    · rw [if_neg hm, List.map_cons, ih, List.map_cons]
      by_cases hmem : name ∈ rest.map (·.1)
      · rw [if_pos hmem, if_pos (List.mem_cons_of_mem m hmem)]
      · have hnew : name ∉ m :: rest.map (·.1) :=
          List.not_mem_cons_of_ne_of_not_mem (Ne.symm hm) hmem
        rw [if_neg hmem, if_neg hnew]
        rfl

theorem collect_concat (members : List (String × String)) (m : String × String) :
    collect (members ++ [m]) = (collect members).add m.1 m.2 := by
  rw [collect, List.foldl_append]
  rfl

/-- **Collected groups have different names.** -/
theorem nodup_names_collect (members : List (String × String)) :
    ((collect members).map (·.1)).Nodup := by
  induction members using List.reverseRecOn with
  | nil => exact List.nodup_nil
  | append_singleton members m ih =>
    rw [collect_concat, names_add]
    split
    · exact ih
    · next hnew =>
      refine List.nodup_append.mpr ⟨ih, by simp, fun a ha b hb => ?_⟩
      obtain rfl := List.mem_singleton.mp hb
      exact fun hab => hnew (hab ▸ ha)

theorem eraseDups_concat (columns : List String) (column : String) :
    (columns ++ [column]).eraseDups =
      if column ∈ columns then columns.eraseDups else columns.eraseDups ++ [column] := by
  rw [List.eraseDups_append, List.removeAll]
  by_cases h : column ∈ columns
  · simp [h]
  · simp [List.eraseDups_cons, h]

/-- **The columns of a collected group** are those of the memberships of its name, in the order in
which they first occur. -/
theorem columnsOf_collect (members : List (String × String)) (name : String) :
    (collect members).columnsOf name =
      ((members.filter (·.1 = name)).map (·.2)).eraseDups := by
  induction members using List.reverseRecOn with
  | nil => rfl
  | append_singleton members m ih =>
    rw [collect_concat, columnsOf_add, ih, List.filter_append, List.map_append]
    by_cases hname : m.1 = name
    · have hlast : [m].filter (·.1 = name) = [m] := by simp [hname]
      rw [if_pos hname, hlast, List.map_singleton, eraseDups_concat]
      simp only [List.mem_eraseDups]
    · have hlast : [m].filter (·.1 = name) = [] := by simp [hname]
      rw [if_neg hname, hlast, List.map_nil, List.append_nil]

/-- Groups with different names, none of them empty, are told by their names. -/
theorem mem_iff_columnsOf {groups : Groups} (hnames : (groups.map (·.1)).Nodup)
    (hne : ∀ g ∈ groups, g.2 ≠ []) {g : String × List String} :
    g ∈ groups ↔ g.2 ≠ [] ∧ groups.columnsOf g.1 = g.2 := by
  induction groups with
  | nil => simp [columnsOf, eq_comm]
  | cons first rest ih =>
    obtain ⟨m, columns⟩ := first
    obtain ⟨hfirst, hrest⟩ := List.nodup_cons.mp hnames
    have ih := ih hrest fun g hg => hne g (List.mem_cons_of_mem _ hg)
    rw [columnsOf, List.mem_cons]
    by_cases hname : m = g.1
    · have hnot : g ∉ rest := by
        intro hg
        exact hfirst (List.mem_map.mpr ⟨g, hg, hname.symm⟩)
      rw [if_pos hname]
      constructor
      · rintro (rfl | hg)
        · exact ⟨hne _ List.mem_cons_self, rfl⟩
        · exact absurd hg hnot
      · rintro ⟨-, hcolumns⟩
        exact .inl (Prod.ext hname.symm hcolumns.symm)
    · have hother : g ≠ (m, columns) := fun h => hname (congrArg Prod.fst h).symm
      rw [if_neg hname, ih]
      simp [hother]

/-- **The collected groups**: one for each name that occurs. -/
theorem mem_collect_iff {members : List (String × String)} {g : String × List String} :
    g ∈ collect members ↔
      g.2 ≠ [] ∧ g.2 = ((members.filter (·.1 = g.1)).map (·.2)).eraseDups := by
  rw [mem_iff_columnsOf (nodup_names_collect members) fun g hg => ne_nil_of_mem_collect hg,
    columnsOf_collect]
  exact and_congr_right fun _ => eq_comm

/-! ### Items that contribute their column -/

/-- An item that contributes to a group, however often, contributes its column once. -/
theorem eraseDups_of_forall_eq {c : String} {columns : List String} (h : ∀ x ∈ columns, x = c) :
    columns.eraseDups = if columns.isEmpty then [] else [c] := by
  cases columns with
  | nil => rfl
  | cons x rest =>
    obtain rfl := h x List.mem_cons_self
    have hrest : rest.filter (fun y => !y == x) = [] := by
      refine List.filter_eq_nil_iff.mpr fun y hy => ?_
      simp [h y (List.mem_cons_of_mem _ hy)]
    rw [List.eraseDups_cons, hrest]
    rfl

section

variable {α : Type} {column : α → String} {members : α → List (String × String)}

/-- **The columns of the group that items contribute to** are those of the items, in order. -/
theorem columns_flatMap (hcolumn : ∀ a, ∀ m ∈ members a, m.2 = column a) {items : List α}
    (hdistinct : (items.map column).Nodup) (name : String) :
    (((items.flatMap members).filter (·.1 = name)).map (·.2)).eraseDups =
      (items.filter fun a => (members a).any (·.1 = name)).map column := by
  induction items with
  | nil => rfl
  | cons a items ih =>
    obtain ⟨hnew, hrest⟩ := List.nodup_cons.mp hdistinct
    -- the columns that the first item contributes, all of them its own
    obtain ⟨own, hown⟩ : ∃ own, own = ((members a).filter (·.1 = name)).map (·.2) := ⟨_, rfl⟩
    have hsame : ∀ x ∈ own, x = column a := by
      intro x hx
      rw [hown] at hx
      obtain ⟨m, hm, rfl⟩ := List.mem_map.mp hx
      exact hcolumn a m (List.mem_of_mem_filter hm)
    have hothers : ∀ x ∈ ((items.flatMap members).filter (·.1 = name)).map (·.2), x ∉ own := by
      intro x hx hmem
      obtain rfl := hsame x hmem
      obtain ⟨m, hm, hmx⟩ := List.mem_map.mp hx
      obtain ⟨b, hb, hmb⟩ := List.mem_flatMap.mp (List.mem_of_mem_filter hm)
      exact hnew (List.mem_map.mpr ⟨b, hb, (hcolumn b m hmb).symm.trans hmx⟩)
    have hempty : own.isEmpty = !(members a).any (·.1 = name) := by
      rw [hown, List.isEmpty_map, Bool.eq_iff_iff]
      simp
    rw [List.flatMap_cons, List.filter_append, List.map_append, ← hown, List.eraseDups_append,
      List.removeAll, List.filter_eq_self.mpr (by simpa using hothers), ih hrest,
      eraseDups_of_forall_eq hsame, hempty, List.filter_cons]
    cases (members a).any (·.1 = name) <;> rfl

end

end EntitySql.Groups
