import EntitySql.Proofs.Query.Built
import EntitySql.Proofs.Query.Legible

/-!
# Queries with a page

A query with a limit or an offset is written as the query without them and the paging clause behind
it. The text in front of the clause is legible, so it is read in the same way whether the clause
follows or not.

## Main definitions

* `Select.unpaged`, `Select.page`: a query in two parts
* `Select.Clauses.SignsApart`: no sign stands directly in front of another one

## Main results

* `Scope.respects_turns`: no part of a compiled expression is a paging clause
* `Select.isSelect_fragments`: a query without its page is written as a legible text
* `Select.exists_tokens`: the tokens of a query, with and without its page
-/

namespace EntitySql

namespace Scope

variable {P Q : Term → Prop}

/-- What a property of its nodes says of every term that is no paging clause. -/
def Turns (P Q : Term → Prop) : Prop := ∀ t, (∀ l o b, t ≠ .paging l o b) → P t → Q t

theorem apply_ne_paging (callee : Callee) (args : List Term) (limit offset : Option UInt64)
    (ordered : Bool) : callee.apply args ≠ .paging limit offset ordered := by
  unfold Callee.apply
  split <;> simp

/-- **No part of a compiled expression is a paging clause.** What a property says of every other
term, it says of all parts. -/
theorem respects_turns (hPQ : Turns P Q) (s : Scope) :
    s.Respects fun _ t => t.Forall P → t.Forall Q where
  property _ ht := .column (hPQ _ (by simp) ht.here)
  constant _ ht := .constant (hPQ _ (by simp) ht.here)
  arg ht := .argument (hPQ _ (by simp) ht.here)
  listArg ht := .argument (hPQ _ (by simp) ht.here)
  all ht := .all (hPQ _ (by simp) ht.here)
  swapped _ hr ht := by
    cases ht with
    | operation hnode hright hnull =>
      exact .operation (hPQ _ (by simp) hnode) (hr hright)
        (.constant (hPQ _ (by simp) hnull.here))
  binary _ _ _ hl hr ht := by
    cases ht with
    | operation hnode hleft hright =>
      exact .operation (hPQ _ (by simp) hnode) (hl hleft) (hr hright)
  unary _ ho ht := by
    cases ht with
    | unary hnode hoperand => exact .unary (hPQ _ (by simp) hnode) (ho hoperand)
  call _ callee hargs ht := by
    obtain ⟨hnode, hparts⟩ := callee.forall_apply_iff.mp ht
    exact callee.forall_apply_iff.mpr ⟨hPQ _ (apply_ne_paging callee _) hnode,
      fun t ht => forall_of_forall₂ hargs t ht (hparts t ht)⟩
  case ho hbs he ht := by
    cases ht with
    | case hnode hoperand hconditions hresults hotherwise =>
      have hall := forall_of_forall₂ hbs
      exact .case (hPQ _ (by simp) hnode)
        (fun t ht => forall_of_rel ho t ht (hoperand t ht))
        (fun b hb => (hall b hb).1 (hconditions b hb))
        (fun b hb => (hall b hb).2 (hresults b hb))
        (fun t ht => forall_of_rel he t ht (hotherwise t ht))
  cast _ ho ht := by
    cases ht with
    | cast hnode hoperand => exact .cast (hPQ _ (by simp) hnode) (ho hoperand)
  tuple hitems ht := by
    cases ht with
    | tuple hnode hparts =>
      exact .tuple (hPQ _ (by simp) hnode) fun t ht => forall_of_forall₂ hitems t ht (hparts t ht)
  named _ ho ht := by
    cases ht with
    | named hnode hoperand => exact .named (hPQ _ (by simp) hnode) (ho hoperand)
  rowNumber hpartition horder ht := by
    cases ht with
    | rowNumber hnode hterms hkeys =>
      exact .rowNumber (hPQ _ (by simp) hnode)
        (fun t ht => forall_of_forall₂ hpartition t ht (hterms t ht))
        (fun b hb => forall_of_forall₂ (horder.imp fun _ _ h => h.1) b hb (hkeys b hb))

end Scope

namespace Select

open Fragment (All all_text)
open Token (Legible Trails Spells ofWord breaks_cons)

/-! ### A query without its page -/

/-- The query with no limit and no offset. -/
def unpaged (q : Select) : Select := { q with limit := none, offset := none }

/-- The rows that are wanted. -/
def page (q : Select) : Page := ⟨q.limit, q.offset⟩

/-- The terms of all clauses. -/
def Clauses.terms (c : Clauses) : List Term :=
  c.projection ++ c.condition.toList ++ c.groups ++ c.order.map (·.1)

/-- In no clause a sign stands directly in front of another one. -/
def Clauses.SignsApart (c : Clauses) : Prop := ∀ t ∈ c.terms, t.SignsApart

variable {q : Select} {c : Clauses}

theorem compile_unpaged (q : Select) : q.unpaged.compile = q.compile := rfl

/-- The fragments of a query are those in front of its page, and the paging clause. -/
theorem fragments_eq (q : Select) (d : Dialect) (c : Clauses) :
    q.fragments d c = q.unpaged.fragments d c ++ q.pagingFragments d := by
  have hnone : q.unpaged.pagingFragments d = [] := rfl
  rw [fragments, fragments, hnone, List.append_nil]
  rfl

theorem projection_ne_nil {ts : List Term} (h : q.projection = .ok ts) : ts ≠ [] := by
  rw [projection] at h
  split at h
  · split at h
    · obtain rfl := Except.ok.inj h
      simp
    · next hcolumns =>
      obtain rfl := Except.ok.inj h
      simpa using hcolumns
  · next hcolumns =>
    intro hnil
    have hlength := (Scope.forall₂_compileList h).length_eq
    rw [hnil] at hlength
    exact hcolumns (List.isEmpty_iff_length_eq_zero.mpr hlength)

/-- A term of a query in which no sign stands directly in front of another one is legible. -/
theorem respects_signsApart (q : Select) : q.scope.Respects fun _ t => t.SignsApart →
    t.Forall fun s => (∀ l o b, s ≠ .paging l o b) ∧ s.signsApart = true :=
  Scope.respects_turns (fun _ h => .intro h) q.scope

/-- What a query selects is written as legible texts. -/
theorem isLegible_projection {ts : List Term} (h : q.projection = .ok ts)
    (hsigns : ∀ t ∈ ts, t.SignsApart) : ∀ t ∈ ts, t.IsLegible := by
  rw [projection] at h
  split at h
  · split at h
    · obtain rfl := Except.ok.inj h
      have hall : (Term.all q.scope.qualifier).IsLegible := Term.isLegible (.all ⟨by simp, rfl⟩)
      simpa using hall
    · obtain rfl := Except.ok.inj h
      refine List.forall_mem_map.mpr fun column _ => ?_
      exact Term.isLegible (.column ⟨by simp, rfl⟩)
  · have hall := q.respects_signsApart.compileList q.columns h
    exact fun t ht => Term.isLegible (Scope.forall_of_forall₂ hall t ht (hsigns t ht))

/-- So are the terms of all clauses. -/
theorem isLegible_of_compile (h : q.compile = .ok c) (hsigns : c.SignsApart) :
    (c.projection ≠ [] ∧ ∀ t ∈ c.projection, t.IsLegible) ∧ (∀ t ∈ c.condition, t.IsLegible) ∧
      (∀ t ∈ c.groups, t.IsLegible) ∧ ∀ o ∈ c.order, o.1.IsLegible := by
  obtain ⟨projection, hprojection, h⟩ := exists_of_bind_eq_ok h
  obtain ⟨condition, hcondition, h⟩ := exists_of_bind_eq_ok h
  obtain ⟨groups, hgroups, h⟩ := exists_of_bind_eq_ok h
  obtain ⟨order, horder, h⟩ := exists_of_bind_eq_ok h
  obtain rfl := Except.ok.inj h
  have hturns := q.respects_signsApart
  simp only [Clauses.SignsApart, Clauses.terms, List.forall_mem_append, List.forall_mem_map,
    Option.mem_toList] at hsigns
  obtain ⟨⟨⟨hfirst, hsecond⟩, hthird⟩, hfourth⟩ := hsigns
  refine ⟨⟨projection_ne_nil hprojection, isLegible_projection hprojection hfirst⟩, ?_, ?_, ?_⟩
  · have hall := hturns.compileOption q.condition hcondition
    exact fun t ht => Term.isLegible (Scope.forall_of_rel hall t ht (hsecond t ht))
  · have hall := hturns.compileList q.groups hgroups
    exact fun t ht => Term.isLegible (Scope.forall_of_forall₂ hall t ht (hthird t ht))
  · have hall := (hturns.compileOrder q.order horder).imp fun _ _ h => h.1
    exact fun o ho => Term.isLegible (Scope.forall_of_forall₂ hall o ho (hfourth o ho))

/-- The characters of a query: its first word, and what follows. -/
def IsSelect (cs : List Char) : Prop := ∃ rest, cs = "SELECT".toList ++ rest ∧ Trails rest

theorem IsSelect.append {xs ys : List Char} (hx : IsSelect xs) (hy : Trails ys) :
    IsSelect (xs ++ ys) := by
  obtain ⟨rest, rfl, hrest⟩ := hx
  exact ⟨rest ++ ys, List.append_assoc _ _ _, hrest.append hy⟩

theorem IsSelect.exists_spells {cs : List Char} (h : IsSelect cs) :
    ∃ ts, (∀ t ∈ ts, t.Quiet) ∧ Spells (ofWord "" "SELECT" :: ts) cs := by
  obtain ⟨rest, rfl, hrest⟩ := h
  have hword : Spells [ofWord "" "SELECT"] ("".toList ++ "SELECT".toList) :=
    Token.spells_word Token.isGap_empty (by decide)
  rcases hrest with rfl | ⟨hb, t, ts, hspells, hquiet⟩
  · exact ⟨[], by simp, by simpa using hword⟩
  · exact ⟨t :: ts, hquiet, hword.append hspells hb⟩

/-- **A query without its page is written as a legible text.** -/
theorem isSelect_fragments (h : q.compile = .ok c) (hsigns : c.SignsApart) :
    All IsSelect (q.unpaged.fragments .sqlite c) := by
  obtain ⟨⟨hne, hprojection⟩, hcondition, hgroups, horder⟩ := isLegible_of_compile h hsigns
  have hselect : All IsSelect (.text "SELECT " :: Term.listFragments .sqlite c.projection) :=
    (Term.legible_list hprojection hne).behind fun cs hcs =>
      ⟨' ' :: cs, rfl, hcs.behind_blank.trails (breaks_cons rfl)⟩
  have htable : All Legible (tableFragments .sqlite q.scope.model.name q.scope.qualifier) := by
    have hname : All Legible [.text (Dialect.sqlite.quote q.scope.model.name)] :=
      all_text (Token.legible_name _)
    cases q.scope.qualifier with
    | none => exact hname
    | some a => exact Term.legible_append hname (Term.trails_as a)
  have hfrom := Term.trails_keyword (w := "FROM") (s := " FROM ") (by decide) rfl htable
  have hwhere := Term.trails_option (w := "WHERE") (s := " WHERE ") (by decide) rfl hcondition
  have hgroup : All Trails (groupFragments .sqlite c.groups) := by
    cases hc : c.groups with
    | nil => exact Term.trails_nil
    | cons t ts =>
      rw [hc] at hgroups
      exact Term.trails_by (w := "GROUP") (s := " GROUP BY ") (by decide) rfl
        (Term.legible_list hgroups (List.cons_ne_nil t ts))
  have hby : All Trails (orderFragments .sqlite c.order) := by
    cases hc : c.order with
    | nil => exact Term.trails_nil
    | cons o os =>
      rw [hc] at horder
      exact Term.trails_by (w := "ORDER") (s := " ORDER BY ") (by decide) rfl
        (Term.legible_order horder (List.cons_ne_nil o os))
  have hclauses :=
    Term.trails_append (Term.trails_append (Term.trails_append hfrom hwhere) hgroup) hby
  have hall := hselect.append hclauses fun _ _ => IsSelect.append
  have hnone : q.unpaged.pagingFragments .sqlite = [] := rfl
  rw [fragments, hnone, List.append_nil]
  simpa [unpaged, List.append_assoc] using hall

/-- The paging clause is a text behind a blank. -/
theorem renders_page (hpaged : (q.limit.isSome || q.offset.isSome) = true) (next : Nat) :
    Fragment.Renders .sqlite next (q.pagingFragments .sqlite) []
      (" " ++ Sqlite.paging q.limit q.offset !q.order.isEmpty) [] := by
  have hclause : Fragment.Renders .sqlite next
      [.text " ", .text (Sqlite.paging q.limit q.offset !q.order.isEmpty)] []
      (" " ++ Sqlite.paging q.limit q.offset !q.order.isEmpty) [] := by
    have hpaging : Fragment.Renders .sqlite next _ [] _ [] :=
      .text (Sqlite.paging q.limit q.offset !q.order.isEmpty) .nil
    simpa using hpaging.text " "
  rwa [pagingFragments, if_pos hpaged]

/-- **The tokens of a query, with and without its page.** -/
theorem exists_tokens (q : Select) (h : q.compile = .ok c) (hsigns : c.SignsApart)
    (hpaged : (q.limit.isSome || q.offset.isSome) = true) {args : List Argument} {st : Statement}
    (hst : (Operation.ofFragments .sqlite (q.unpaged.fragments .sqlite c)).statement args =
      .ok st) :
    ∃ ts sql, (∀ t ∈ ts, t.Quiet) ∧ Token.ofText st.sql = ofWord "" "SELECT" :: ts ∧
      (Operation.ofFragments .sqlite (q.fragments .sqlite c)).statement args =
        .ok ⟨sql, st.params⟩ ∧
      Token.ofText sql = ofWord "" "SELECT" :: (ts ++ Token.limit :: q.page.tokens) := by
  have hrenders := Operation.statement_ofFragments_iff.mp hst
  obtain ⟨ts, hquiet, hspells⟩ :=
    (isSelect_fragments h hsigns _ ⟨_, _, _, _, hrenders, rfl⟩).exists_spells
  have hall := hrenders.append (q.renders_page hpaged (1 + st.params.length))
  rw [← fragments_eq, List.append_nil, List.append_nil] at hall
  refine ⟨ts, _, hquiet, hspells.ofText rfl, Operation.statement_ofFragments_iff.mpr hall, ?_⟩
  exact Token.ofText_paged hspells q.page hpaged (!q.order.isEmpty) (by simp [page])

end Select

end EntitySql
