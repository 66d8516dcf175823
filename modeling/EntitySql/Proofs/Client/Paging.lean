import EntitySql.Proofs.Client.Running
import EntitySql.Proofs.Query.Paging

/-!
# The rows of a page

What a connection answers to a query with a limit and an offset, of which the query without them is
answered: the rows of the page, at their positions among all rows, or a refusal because a number of
the page is too long.

Which rows stand at these positions is not settled by the query alone. The order that it names may
not tell all rows apart, and it may name none; then the database chooses, by the indexes that it
has and also by the limit. So the page and all rows are compared with the same scans, and where the
answer without the page is the same with all of them, with any two. That is so where the query
orders its rows without ties (`Connection.executeBy_eq_of_total`); where it does not, two scans may
lead to two pages (`Select.execute_page_unordered`).

## Main definitions

* `Connection.executeBy`: what is answered to a text with given scans
* `Select.SignsApart`: no sign of a query stands directly in front of another one

## Main results

* `Connection.executeBy_inOrder`: the order of row numbers is one of those that are open
* `Connection.executeBy_paged`: a query that is answered with a page
* `Select.execute_page`: what is answered to a query is a page of what is answered without it
-/

namespace EntitySql

namespace Connection

/-- Runs a text with bound values. If it is a query, that is answered with the orders of scans; what
writes takes the order of row numbers. -/
def executeBy (scans : TableScans) (c : Connection) (sql : String) (params : List Value) :
    Except Fault Outcome × Connection :=
  match Reading.command?.run ⟨Token.ofText sql, 0⟩ with
  | .ok (some (.query q), ⟨[], _⟩) =>
    ((c.database.answerBy scans ⟨params.map Datum.ofValue, .epoch⟩ q).map outcome, c)
  | _ => c.execute sql params

section

variable {c after : Connection} {scans : TableScans} {sql : String} {params : List Value}
  {q : Query} {k : Nat} {all : Outcome}

theorem executeBy_of_read
    (hread : Reading.command?.run ⟨Token.ofText sql, 0⟩ = .ok (some (.query q), ⟨[], k⟩)) :
    c.executeBy scans sql params =
      ((c.database.answerBy scans ⟨params.map Datum.ofValue, .epoch⟩ q).map outcome, c) := by
  rw [executeBy, hread]

/-- A query writes nothing, so it is answered on every connection. -/
theorem execute_of_read
    (hread : Reading.command?.run ⟨Token.ofText sql, 0⟩ = .ok (some (.query q), ⟨[], k⟩)) :
    c.execute sql params =
      ((c.database.answer ⟨params.map Datum.ofValue, .epoch⟩ q).map outcome, c) := by
  have hcommand : (Command.query q).changesTable = false := rfl
  rw [execute_of_run hread]
  cases hanswer : c.database.answer ⟨params.map Datum.ofValue, .epoch⟩ q with
  | error fault => simp [run, perform, hanswer, Except.map]
  | ok r => simp [run, perform, hanswer, hcommand, Except.map, pure, Except.pure]

/-- **The order of row numbers** is one of those that are open. -/
theorem executeBy_inOrder (c : Connection) (sql : String) (params : List Value) :
    c.executeBy .inOrder sql params = c.execute sql params := by
  rw [executeBy]
  split
  · next hread => rw [Database.answerBy_inOrder, execute_of_read hread]
  · rfl

/-- A text that is answered is read, at least up to a first statement. -/
theorem exists_read_of_executeBy (h : c.executeBy scans sql params = (.ok all, after)) :
    ∃ command u, Reading.command?.run ⟨Token.ofText sql, 0⟩ = .ok (command, u) := by
  rw [executeBy] at h
  split at h
  · next hread => exact ⟨_, _, hread⟩
  · rw [execute, runAll] at h
    cases hread : Reading.command?.run ⟨Token.ofText sql, 0⟩ with
    | error fault => simp [hread] at h
    | ok r => exact ⟨r.1, r.2, rfl⟩

/-- **A query that is answered is answered with a page**, with the same scans. -/
theorem executeBy_paged (hnone : q.limit = none ∧ q.offset = none)
    (hread : Reading.command?.run ⟨Token.ofText sql, 0⟩ = .ok (some (.query q), ⟨[], k⟩))
    (h : c.executeBy scans sql params = (.ok all, after)) {p : Page} {paged : String} {m : Nat}
    (hpaged : Reading.command?.run ⟨Token.ofText paged, 0⟩ =
      .ok (some (.query (q.paged p)), ⟨[], m⟩)) :
    c.executeBy scans paged params =
      if p.Fits then (.ok { all with rows := p.cut all.rows }, after)
      else (.error .mismatch, c) := by
  rw [executeBy_of_read hread] at h
  obtain ⟨hanswer, rfl⟩ := Prod.mk.inj h
  obtain ⟨r, hr, rfl⟩ := exists_of_map_eq_ok hanswer
  rw [executeBy_of_read hpaged, Database.answerBy_paged hnone hr p]
  split <;> rfl

/-- **A query of a table that orders its rows without ties** is answered alike with all scans. -/
theorem executeBy_eq_of_total
    (hread : Reading.command?.run ⟨Token.ofText sql, 0⟩ = .ok (some (.query q), ⟨[], k⟩))
    (htotal : c.database.Asks ⟨params.map Datum.ofValue, .epoch⟩ q Selection.IsTotal)
    (h : (c.execute sql params).1 = .ok all) (scans : TableScans) :
    (c.executeBy scans sql params).1 = .ok all := by
  rw [execute_of_read hread] at h
  obtain ⟨r, hr, rfl⟩ := exists_of_map_eq_ok h
  rw [executeBy_of_read hread, Database.answerBy_eq_of_total htotal hr]
  rfl

end

end Connection

namespace Select

/-- No sign of the query stands directly in front of another one. -/
def SignsApart (q : Select) : Prop := ∀ c, q.compile = .ok c → c.SignsApart

/-- **A query is answered by the rows of its page**, if the numbers of the page are integers of 64
bits with a sign; else it is refused. With the same scans, these are the rows at the positions of
the page among those that are answered without it. If all scans lead to one answer without the page,
they all lead to its page. -/
theorem execute_page (q : Select) (c : Connection) (args : List Argument) {o : Operation}
    {st : Statement} (hsigns : q.SignsApart) (hbuild : q.unpaged.build .sqlite = .ok o)
    (hst : o.statement args = .ok st) :
    ∃ o' st', q.build .sqlite = .ok o' ∧ o'.statement args = .ok st' ∧ st'.params = st.params ∧
      (∀ (scans : TableScans) (all : Outcome) (after : Connection),
        c.executeBy scans st.sql st.params = (.ok all, after) →
          c.executeBy scans st'.sql st'.params =
            if q.page.Fits then (.ok { all with rows := q.page.cut all.rows }, after)
            else (.error .mismatch, c)) ∧
      ∀ all : Outcome, (∀ scans, (c.executeBy scans st.sql st.params).1 = .ok all) →
        ∀ scans, (c.executeBy scans st'.sql st'.params).1 =
          if q.page.Fits then .ok { all with rows := q.page.cut all.rows }
          else .error .mismatch := by
  obtain ⟨cl, hcompile, rfl⟩ := exists_of_map_eq_ok hbuild
  have hbuilt : q.build .sqlite = .ok (.ofFragments .sqlite (q.fragments .sqlite cl)) := by
    rw [build, ← compile_unpaged, hcompile]
    rfl
  -- what holds with each scan by itself holds with all of them
  suffices h : ∃ st', (Operation.ofFragments .sqlite (q.fragments .sqlite cl)).statement args =
      .ok st' ∧ st'.params = st.params ∧
      ∀ (scans : TableScans) (all : Outcome) (after : Connection),
        c.executeBy scans st.sql st.params = (.ok all, after) →
          c.executeBy scans st'.sql st'.params =
            if q.page.Fits then (.ok { all with rows := q.page.cut all.rows }, after)
            else (.error .mismatch, c) by
    obtain ⟨st', hst', hparams, heach⟩ := h
    refine ⟨_, st', hbuilt, hst', hparams, heach, fun all hall scans => ?_⟩
    rw [heach scans all _ (Prod.ext (hall scans) rfl)]
    split <;> rfl
  by_cases hpaged : (q.limit.isSome || q.offset.isSome) = true
  · obtain ⟨ts, sql, hquiet, htokens, hst', htokens'⟩ :=
      q.exists_tokens hcompile (hsigns cl hcompile) hpaged hst
    refine ⟨_, hst', rfl, fun scans all after hall => ?_⟩
    obtain ⟨command, u, hread⟩ := Connection.exists_read_of_executeBy hall
    rw [htokens] at hread
    obtain ⟨query, m, rfl, rfl, hnone, hread'⟩ :=
      Reading.run_command?_paged q.page.bounds_tokens hquiet hread
    rw [← htokens] at hread
    rw [← htokens'] at hread'
    exact Connection.executeBy_paged hnone hread hall hread'
  · -- there is nothing to cut
    obtain ⟨scope, columns, condition, groups, order, limit, offset⟩ := q
    obtain ⟨rfl, rfl⟩ : limit = none ∧ offset = none := by simpa using hpaged
    have hfits : (⟨none, none⟩ : Page).Fits := by decide
    exact ⟨st, hst, rfl, fun scans all after hall => hall.trans (if_pos hfits).symm⟩

/-- A table has one row. A query for as many rows as no integer of 64 bits with a sign can count is
refused, with any scans, and without the limit it has that row. -/
theorem execute_page_long : ∃ (q : Select) (c : Connection) (o o' : Operation) (st st' : Statement)
    (all : Outcome), q.limit = some 9223372036854775808 ∧ q.SignsApart ∧
      q.unpaged.build .sqlite = .ok o ∧ o.statement [] = .ok st ∧
      (c.executeBy .inOrder st.sql st.params).1 = .ok all ∧ all.rows = [[.int 1]] ∧
      q.build .sqlite = .ok o' ∧ o'.statement [] = .ok st' ∧
      (c.executeBy .inOrder st'.sql st'.params).1 = .error .mismatch := by
  obtain ⟨q, hq⟩ : ∃ q : Select, q = (ofModel ⟨"t", .table,
      [{ field := "a", name := "a", type := .int64 }], [], []⟩ false).take 9223372036854775808 :=
    ⟨_, rfl⟩
  obtain ⟨c, hc⟩ : ∃ c : Connection, c = (({} : Connection).execute
      "CREATE TABLE t (a INTEGER); INSERT INTO t (a) VALUES (1)" []).2 := ⟨_, rfl⟩
  have hsigns : q.SignsApart := by
    subst hq
    intro cl hcl
    obtain rfl : ⟨[.column none "a"], none, [], []⟩ = cl := Except.ok.inj hcl
    have hcolumn : (Term.column none "a").SignsApart := .column rfl
    simpa [Clauses.SignsApart, Clauses.terms] using hcolumn
  have hwritten : (q.unpaged.build .sqlite >>= fun o => o.statement []) =
      .ok ⟨"SELECT \"a\" FROM \"t\"", []⟩ := by
    rw [hq]
    decide +kernel
  obtain ⟨o, hbuild, hst⟩ := exists_of_bind_eq_ok hwritten
  have hrows : (c.executeBy .inOrder "SELECT \"a\" FROM \"t\"" []).1 =
      .ok ⟨["a"], [[.int 1]], 0⟩ := by
    rw [hc, Connection.executeBy_inOrder]
    decide +kernel
  have hlong : ¬ q.page.Fits := by
    rw [hq]
    decide
  obtain ⟨o', st', hbuild', hst', -, hpage, -⟩ := execute_page q c [] hsigns hbuild hst
  have hrefused := hpage .inOrder _ _ (Prod.ext hrows rfl)
  rw [if_neg hlong] at hrefused
  exact ⟨q, c, o, o', _, st', _, by rw [hq]; rfl, hsigns, hbuild, hst, hrows, rfl, hbuild', hst',
    congrArg Prod.fst hrefused⟩

/-- A query names no order. With scans from both ends there are two answers to the query for the
first row: the page of all rows in one order is not the page of all rows in the other. -/
theorem execute_page_unordered : ∃ (q : Select) (c : Connection) (o o' : Operation)
    (st st' : Statement) (all : Outcome) (scans : TableScans), q.page.Fits ∧
      q.unpaged.build .sqlite = .ok o ∧ o.statement [] = .ok st ∧
      (c.execute st.sql st.params).1 = .ok all ∧
      q.build .sqlite = .ok o' ∧ o'.statement [] = .ok st' ∧
      (c.execute st'.sql st'.params).1 = .ok { all with rows := q.page.cut all.rows } ∧
      (c.executeBy scans st'.sql st'.params).1 ≠ .ok { all with rows := q.page.cut all.rows } := by
  obtain ⟨q, hq⟩ : ∃ q : Select, q = (ofModel ⟨"t", .table,
      [{ field := "a", name := "a", type := .int64 }], [], []⟩ false).take 1 := ⟨_, rfl⟩
  obtain ⟨c, hc⟩ : ∃ c : Connection, c = (({} : Connection).execute
      "CREATE TABLE t (a INTEGER); INSERT INTO t (a) VALUES (1), (2)" []).2 := ⟨_, rfl⟩
  have hwritten : (q.unpaged.build .sqlite >>= fun o => o.statement []) =
      .ok ⟨"SELECT \"a\" FROM \"t\"", []⟩ := by
    rw [hq]
    decide +kernel
  have hpaged : (q.build .sqlite >>= fun o => o.statement []) =
      .ok ⟨"SELECT \"a\" FROM \"t\" LIMIT 1", []⟩ := by
    rw [hq]
    decide +kernel
  obtain ⟨o, hbuild, hst⟩ := exists_of_bind_eq_ok hwritten
  obtain ⟨o', hbuild', hst'⟩ := exists_of_bind_eq_ok hpaged
  refine ⟨q, c, o, o', _, _, ⟨["a"], [[.int 1], [.int 2]], 0⟩,
    fun _ => { TableScan.inOrder with rows := List.reverse, rows_perm := List.reverse_perm }, ?_,
    hbuild, hst, ?_, hbuild', hst', ?_, ?_⟩
  · rw [hq]
    decide
  · rw [hc]
    decide +kernel
  · rw [hc, hq]
    decide +kernel
  · rw [hc, hq]
    decide +kernel

/-- Two signs begin a comment. It ends with the line, which here is within a name, and another one
that is in the name hides the limit: a table has two rows, and both are answered where one is
wanted. -/
theorem execute_page_comment : ∃ (q : Select) (c : Connection) (o o' : Operation)
    (st st' : Statement) (all : Outcome), q.page.Fits ∧
      q.unpaged.build .sqlite = .ok o ∧ o.statement [] = .ok st ∧
      (c.execute st.sql st.params).1 = .ok all ∧
      q.build .sqlite = .ok o' ∧ o'.statement [] = .ok st' ∧
      (c.execute st'.sql st'.params).1 = .ok all ∧ q.page.cut all.rows ≠ all.rows := by
  obtain ⟨q, hq⟩ : ∃ q : Select, q = (ofModel ⟨"t", .table,
      [{ field := "a", name := "a", type := .int64 }], [], []⟩ false
      |>.column (.unary .neg (.named (.unary .neg (.property "a")) "\n1 FROM t --"))
      |>.take 1) := ⟨_, rfl⟩
  obtain ⟨c, hc⟩ : ∃ c : Connection, c = (({} : Connection).execute
      "CREATE TABLE t (a INTEGER); INSERT INTO t (a) VALUES (1), (2)" []).2 := ⟨_, rfl⟩
  have hwritten : (q.unpaged.build .sqlite >>= fun o => o.statement []) =
      .ok ⟨"SELECT --\"a\" AS \"\n1 FROM t --\" FROM \"t\"", []⟩ := by
    rw [hq]
    decide +kernel
  have hpaged : (q.build .sqlite >>= fun o => o.statement []) =
      .ok ⟨"SELECT --\"a\" AS \"\n1 FROM t --\" FROM \"t\" LIMIT 1", []⟩ := by
    rw [hq]
    decide +kernel
  obtain ⟨o, hbuild, hst⟩ := exists_of_bind_eq_ok hwritten
  obtain ⟨o', hbuild', hst'⟩ := exists_of_bind_eq_ok hpaged
  refine ⟨q, c, o, o', _, _, ⟨["1"], [[.int 1], [.int 1]], 0⟩, ?_, hbuild, hst, ?_, hbuild', hst',
    ?_, ?_⟩
  · rw [hq]
    decide
  · rw [hc]
    decide +kernel
  · rw [hc]
    decide +kernel
  · rw [hq]
    decide

end Select

end EntitySql
