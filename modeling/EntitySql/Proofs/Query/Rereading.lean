import EntitySql.Proofs.Query.Built
import EntitySql.Proofs.Reading.Query
import Mathlib.Data.Option.Basic

/-!
# Reading a query back

The text of a query is read as the query that its calls build: what is selected, the table and its
alias, the conjunction of the conditions, what the rows are grouped and ordered by, and how many
are skipped and returned. The text is split at the keywords of its clauses and each clause is read
on its own, so nothing of one clause can become a part of another.

Databases page in different ways. SQLite has no offset without a limit, and writes `-1` for none.
SQL Server skips and fetches rows of an ordered query only, and writes an offset and an order where
there are none. The order stands between the grouping and the offset in any case, so it is read as
the clause that it is.

## Main definitions

* `Select.pagingPart`, `Select.part`: the contents of the clauses of a query

## Main results

* `Select.symbols_eq`: a query consists of its clauses, one after the other
* `Select.readQuery?_symbols`: its clauses are read back
* `Select.reads_ofCalls`: the query that calls build is read back from its text
-/

namespace EntitySql

namespace Select

open Grammar

variable {d : Dialect}

/-! ### The paging clause -/

/-- The clauses that page a query, which is ordered or not. -/
def pagingPart (d : Dialect) (limit offset : Option UInt64) (ordered : Bool) :
    String → Option (List Symbol)
  | "ORDER" =>
    if d.name = "mssql" ∧ (limit.isSome || offset.isSome) ∧ !ordered then
      some (.word "BY" :: nothing)
    else none
  | "LIMIT" =>
    if d.name = "mssql" then none
    else
      match limit with
      | some l => some [.word (toString l.toNat)]
      | none =>
        if d.name = "sqlite" ∧ offset.isSome then some [.mark "-", .word "1"] else none
  | "OFFSET" =>
    if d.name = "mssql" then
      if limit.isSome || offset.isSome then
        some [.word (toString (offset.getD 0).toNat), .word "ROWS"]
      else none
    else offset.map fun o => [.word (toString o.toNat)]
  | "FETCH" =>
    if d.name = "mssql" then
      limit.map fun l => [.word "NEXT", .word (toString l.toNat), .word "ROWS", .word "ONLY"]
    else none
  | _ => none

/-- Word characters go on with a word. -/
theorem run_word (d : Dialect) {cs : List Char} (h : ∀ c ∈ cs, Symbol.isWordChar c = true)
    (ws : List Char) : Scan.run d (.word ws) (cs.map .char) = ([], .word (ws ++ cs)) := by
  induction cs generalizing ws with
  | nil => simp [Scan.run]
  | cons c cs ih =>
    have hc := h c List.mem_cons_self
    simp [Scan.run, Scan.step, Scan.takeChar, hc, ih fun e he => h e (List.mem_cons_of_mem _ he)]

/-- A number is scanned as a word. -/
theorem scans_number (hd : d ∈ Dialect.shipped) (n : Nat) :
    Scans d (Sign.ofText (toString n)) [.word (toString n)] := by
  obtain ⟨c, cs, hcs⟩ := List.exists_cons_of_ne_nil (toList_number_ne_nil n)
  have hword : ∀ e ∈ c :: cs, Symbol.isWordChar e = true := by
    intro e he
    have hdigit := isDigit_of_mem_number (hcs ▸ he)
    simp [Symbol.isWordChar, Text.isWordChar, Char.isAlphanum, hdigit]
  have hfirst : Scan.start d.openQuote c = ([], .word [c]) := by
    have hdigit := isDigit_of_mem_number (hcs ▸ List.mem_cons_self)
    have hopen : c ≠ d.openQuote := by
      rcases Dialect.mem_shipped.mp hd with rfl | rfl | rfl <;>
        exact fun h => absurd (h ▸ hdigit) (by decide)
    have hblank : c ≠ ' ' := fun h => absurd (h ▸ hdigit) (by decide)
    simp [Scan.start, hopen, hblank, hword c List.mem_cons_self]
  refine ⟨[], .word (c :: cs), ?_, rfl, ?_⟩
  · have hrest := run_word d (fun e he => hword e (List.mem_cons_of_mem _ he)) [c]
    rw [Sign.ofText, hcs, List.map_cons, Scan.run]
    simp [Scan.step, Scan.takeChar, hfirst, hrest]
  · rw [Scan.pending, ← hcs, String.ofList_toList, List.nil_append]

/-- A number between two texts. -/
theorem scans_numbered (hd : d ∈ Dialect.shipped) {s : String} {a : List Symbol}
    (h : ∀ e ∈ Dialect.shipped, Settles e (Sign.ofText s) a) (n : Nat) :
    Scans d (Sign.ofText (s ++ toString n)) (a ++ [.word (toString n)]) := by
  rw [Sign.ofText_append]
  exact (Term.settles_text hd h).append_scans (scans_number hd n)

/-- Rows are skipped and fetched in an order, which is written where there is none. -/
theorem scans_fetch (limit offset : Option UInt64) (ordered : Bool) :
    Scans .sqlServer (Sign.ofText (SqlServer.paging limit offset ordered))
      (clauseWords.flatMap fun w =>
        partSymbols w (pagingPart .sqlServer limit offset ordered w)) := by
  have hname : Dialect.sqlServer.name = "mssql" := rfl
  have hd : Dialect.sqlServer ∈ Dialect.shipped := by simp [Dialect.shipped]
  have hquotes := Dialect.hasPlainQuotes_of_shipped hd
  have hrows : ∀ {xs : List Sign} {as : List Symbol}, Scans .sqlServer xs as →
      Scans .sqlServer (xs ++ Sign.ofText " ROWS") (as ++ [Symbol.word "ROWS"]) := fun h => by
    have hword : ScansBehind .sqlServer _ ([] ++ [Symbol.word "ROWS"]) :=
      Term.behind_text (s := " ") hd rfl rfl (by decide) (Term.scans_word hd "ROWS" (by decide))
    exact h.append_behind hquotes hword
  have hskip : ∀ n : Nat, Scans .sqlServer
      (Sign.ofText ((if ordered then "" else "ORDER BY (SELECT NULL) ") ++
        ("OFFSET " ++ toString n)) ++ Sign.ofText " ROWS")
      ((if ordered then [] else .word "ORDER" :: .word "BY" :: nothing) ++
        [.word "OFFSET", .word (toString n), .word "ROWS"]) := by
    intro n
    cases ordered with
    | true =>
      exact hrows (scans_numbered hd (s := "OFFSET ") (a := [.word "OFFSET"]) (by decide) n)
    | false =>
      have horder : Settles .sqlServer (Sign.ofText "ORDER BY (SELECT NULL) ")
          (.word "ORDER" :: .word "BY" :: nothing) :=
        Term.settles_text hd (by decide)
      have hoffset := horder.append_scans
        (scans_numbered hd (s := "OFFSET ") (a := [.word "OFFSET"]) (by decide) n)
      rw [← Sign.ofText_append] at hoffset
      exact hrows hoffset
  have hfetch : ∀ n : Nat, ScansBehind .sqlServer
      (Sign.ofText (" FETCH NEXT " ++ toString n) ++ Sign.ofText " ROWS ONLY")
      [.word "FETCH", .word "NEXT", .word (toString n), .word "ROWS", .word "ONLY"] := by
    intro n
    have honly : ScansBehind .sqlServer _ ([Symbol.word "ROWS"] ++ [Symbol.word "ONLY"]) :=
      Term.behind_text (s := " ROWS ") hd rfl rfl (by decide)
        (Term.scans_word hd "ONLY" (by decide))
    have hnumber : ScansBehind .sqlServer _ ([Symbol.word "FETCH", .word "NEXT"] ++ _) :=
      Term.behind_text (s := " FETCH NEXT ") hd rfl rfl (by decide) (scans_number hd n)
    rw [Sign.ofText_append]
    exact hnumber.append hquotes honly
  cases limit with
  | none =>
    cases offset with
    | none => exact Term.scans_nil
    | some o =>
      have hall := hskip o.toNat
      cases ordered <;>
        simpa [SqlServer.paging, hname, clauseWords, pagingPart, partSymbols, toString]
          using hall
  | some l =>
    have hall := (hskip (offset.getD 0).toNat).append_behind hquotes (hfetch l.toNat)
    cases ordered <;>
      simpa [SqlServer.paging, hname, clauseWords, pagingPart, partSymbols, toString]
        using hall

/-- **A paging clause is scanned as the clauses that it consists of.** -/
theorem scans_paging (hd : d ∈ Dialect.shipped) (limit offset : Option UInt64) (ordered : Bool) :
    Scans d (Sign.ofText (d.paging limit offset ordered))
      (clauseWords.flatMap fun w => partSymbols w (pagingPart d limit offset ordered w)) := by
  have hquotes := Dialect.hasPlainQuotes_of_shipped hd
  have hlimit := fun n => scans_numbered hd (s := "LIMIT ") (a := [.word "LIMIT"]) (by decide) n
  have hboth : ∀ l o : Nat, Scans d (Sign.ofText ("LIMIT " ++ toString l) ++
      Sign.ofText (" OFFSET " ++ toString o))
      [.word "LIMIT", .word (toString l), .word "OFFSET", .word (toString o)] := by
    intro l o
    have hbehind : ScansBehind d _ ([Symbol.word "OFFSET"] ++ _) :=
      Term.behind_text (s := " OFFSET ") hd rfl rfl (by decide) (scans_number hd o)
    rw [Sign.ofText_append " OFFSET "]
    exact (hlimit l).append_behind hquotes hbehind
  rcases Dialect.mem_shipped.mp hd with rfl | rfl | rfl
  · have hname : Dialect.sqlite.name = "sqlite" := rfl
    have hpaging : Dialect.sqlite.paging = Sqlite.paging := rfl
    have hnone := fun n => scans_numbered hd (s := "LIMIT -1 OFFSET ")
      (a := [.word "LIMIT", .mark "-", .word "1", .word "OFFSET"]) (by decide) n
    rw [hpaging]
    unfold Sqlite.paging
    cases limit <;> cases offset
    case none.none => exact Term.scans_nil
    case none.some o =>
      simpa [hname, clauseWords, pagingPart, partSymbols, toString]
        using hnone o.toNat
    case some.none l =>
      simpa [hname, clauseWords, pagingPart, partSymbols, toString]
        using hlimit l.toNat
    case some.some l o =>
      simpa [hname, clauseWords, pagingPart, partSymbols, toString]
        using hboth l.toNat o.toNat
  · have hname : Dialect.postgres.name = "postgresql" := rfl
    have hpaging : Dialect.postgres.paging = plainPaging := rfl
    have hoffset := fun n =>
      scans_numbered hd (s := "OFFSET ") (a := [.word "OFFSET"]) (by decide) n
    rw [hpaging]
    unfold plainPaging
    cases limit <;> cases offset
    case none.none => exact Term.scans_nil
    case none.some o =>
      simpa [hname, clauseWords, pagingPart, partSymbols, toString]
        using hoffset o.toNat
    case some.none l =>
      simpa [hname, clauseWords, pagingPart, partSymbols, toString]
        using hlimit l.toNat
    case some.some l o =>
      simpa [hname, clauseWords, pagingPart, partSymbols, toString]
        using hboth l.toNat o.toNat
  · exact scans_fetch limit offset ordered

/-! ### The clauses of a query -/

/-- The content of the clause with a keyword, if a query with these terms has it. -/
def part (q : Select) (d : Dialect) (c : Clauses) : String → Option (List Symbol)
  | "SELECT" => some (Term.listSymbols d c.projection)
  | "FROM" => some (tableSymbols q.scope.model.name q.scope.qualifier)
  | "WHERE" => c.condition.map (Term.symbols d)
  | "GROUP" => if c.groups.isEmpty then none else some (.word "BY" :: Term.listSymbols d c.groups)
  | "ORDER" =>
    if c.order.isEmpty then pagingPart d q.limit q.offset false "ORDER"
    else some (.word "BY" :: Term.orderSymbols d c.order)
  | w => pagingPart d q.limit q.offset (!c.order.isEmpty) w

theorem pagingSymbols_eq (hd : d ∈ Dialect.shipped) (q : Select) :
    q.pagingSymbols d = clauseWords.flatMap fun w =>
      partSymbols w (pagingPart d q.limit q.offset (!q.order.isEmpty) w) := by
  rw [pagingSymbols]
  split
  · exact (scans_paging hd q.limit q.offset !q.order.isEmpty).symbols_eq
  · next hpages =>
    obtain ⟨hlimit, hoffset⟩ : q.limit = none ∧ q.offset = none := by
      simpa [not_or] using hpages
    simp [clauseWords, pagingPart, partSymbols, hlimit, hoffset]

/-- **A query consists of its clauses, one after the other.** -/
theorem symbols_eq (hd : d ∈ Dialect.shipped) {q : Select} {c : Clauses}
    (hordered : q.order.isEmpty = c.order.isEmpty) :
    q.symbols d c = clauseSymbols (assemble (q.part d c)) := by
  have hcondition : Term.optionSymbols d [.word "WHERE"] c.condition =
      partSymbols "WHERE" (c.condition.map (Term.symbols d)) := by
    cases c.condition <;> rfl
  have hgroups : groupSymbols d c.groups = partSymbols "GROUP" (q.part d c "GROUP") := by
    simp only [part]
    cases c.groups <;> rfl
  have horder : orderSymbols d c.order ++ q.pagingSymbols d =
      partSymbols "ORDER" (q.part d c "ORDER") ++ (partSymbols "LIMIT" (q.part d c "LIMIT") ++
        (partSymbols "OFFSET" (q.part d c "OFFSET") ++
          partSymbols "FETCH" (q.part d c "FETCH"))) := by
    rw [pagingSymbols_eq hd, hordered]
    simp only [part]
    cases c.order with
    | nil => simp [orderSymbols, clauseWords, partSymbols, pagingPart]
    | cons b os => simp [orderSymbols, clauseWords, partSymbols, pagingPart]
  rw [symbols, hcondition, hgroups, horder, clauseSymbols_assemble]
  simp [clauseWords, part, partSymbols]

/-- The terms of the clauses are where they may be: names and all columns are selected only. -/
structure Clauses.IsPlaced (c : Clauses) : Prop where
  /-- Something is selected. -/
  selects : c.projection ≠ []
  /-- What is selected may have a name. -/
  projection : ∀ t ∈ c.projection, IsSelected t
  /-- The condition has none. -/
  condition : ∀ t ∈ c.condition, t.IsOperand
  /-- The terms to group by have none. -/
  groups : ∀ t ∈ c.groups, t.IsOperand
  /-- The terms to order by have none. -/
  order : ∀ b ∈ c.order, b.1.IsOperand

theorem passes_operand (hd : d ∈ Dialect.shipped) {t : Term} (h : t.IsOperand) :
    Passes 0 (t.symbols d) :=
  passes_symbols hd (h.mono fun s hs l o b heq => by simp [heq, Term.isOperandNode] at hs)

theorem passes_selected (hd : d ∈ Dialect.shipped) {t : Term} (h : IsSelected t) :
    Passes 0 (t.symbols d) := by
  cases h with
  | all qualifier => exact passes_symbols hd (.all fun _ _ _ => by simp)
  | named name h =>
    exact (passes_operand hd h).append (((Passes.nil 0).name _).word (.inr (by decide)))
  | operand h => exact passes_operand hd h

theorem passes_table (name : String) (qualifier : Option String) :
    Passes 0 (tableSymbols name qualifier) := by
  cases qualifier with
  | none => exact (Passes.nil 0).name name
  | some a => exact (((Passes.nil 0).name a).word (.inr (by decide))).name name

/-- No keyword is a number. -/
theorem number_not_mem_clauseWords (n : Nat) : toString n ∉ clauseWords := by
  intro hmem
  have hletters : (clauseWords.all fun w => w.toList.any (!·.isDigit)) = true := by decide
  obtain ⟨c, hc, hletter⟩ := List.any_eq_true.mp (List.all_eq_true.mp hletters _ hmem)
  exact absurd (isDigit_of_mem_number hc) (by simpa using hletter)

theorem passes_paging {limit offset : Option UInt64} {ordered : Bool} {w : String}
    {xs : List Symbol} (h : pagingPart d limit offset ordered w = some xs) : Passes 0 xs := by
  have hnumber : ∀ {ys} (n : Nat), Passes 0 ys → Passes 0 (.word (toString n) :: ys) :=
    fun n hys => hys.word (.inr (number_not_mem_clauseWords n))
  have hword : ∀ {ys} {v : String}, v ∉ clauseWords → Passes 0 ys → Passes 0 (.word v :: ys) :=
    fun hv hys => hys.word (.inr hv)
  unfold pagingPart at h
  split at h
  · split at h
    · obtain rfl := Option.some.inj h
      have hnothing : Passes 1 [.word "SELECT", .word "NULL"] :=
        ((Passes.nil 1).word (.inl Nat.one_pos)).word (.inl Nat.one_pos)
      exact (hnothing.parens (.nil 0)).word (.inr (by decide))
    · simp at h
  · split at h
    · simp at h
    · split at h
      · obtain rfl := Option.some.inj h
        exact hnumber _ (.nil 0)
      · split at h
        · obtain rfl := Option.some.inj h
          exact (hword (by decide) (.nil 0)).mark (by decide)
        · simp at h
  · split at h
    · split at h
      · obtain rfl := Option.some.inj h
        exact hnumber _ (hword (by decide) (.nil 0))
      · simp at h
    · obtain ⟨o, -, rfl⟩ := Option.map_eq_some_iff.mp h
      exact hnumber _ (.nil 0)
  · split at h
    · obtain ⟨l, -, rfl⟩ := Option.map_eq_some_iff.mp h
      exact hword (by decide) (hnumber _ (hword (by decide) (hword (by decide) (.nil 0))))
    · simp at h
  · simp at h

/-- No clause of a query begins or ends in another. -/
theorem passes_part (hd : d ∈ Dialect.shipped) {q : Select} {c : Clauses} (hc : c.IsPlaced)
    {w : String} {xs : List Symbol} (h : q.part d c w = some xs) : Passes 0 xs := by
  unfold part at h
  split at h
  · obtain rfl := Option.some.inj h
    exact passes_list fun t ht => passes_selected hd (hc.projection t ht)
  · obtain rfl := Option.some.inj h
    exact passes_table _ _
  · obtain ⟨t, ht, rfl⟩ := Option.map_eq_some_iff.mp h
    exact passes_operand hd (hc.condition t ht)
  · split at h
    · simp at h
    · obtain rfl := Option.some.inj h
      exact (passes_list fun t ht => passes_operand hd (hc.groups t ht)).word (.inr (by decide))
  · split at h
    · exact passes_paging h
    · obtain rfl := Option.some.inj h
      exact (passes_order fun b hb => passes_operand hd (hc.order b hb)).word (.inr (by decide))
  · exact passes_paging h

theorem split_symbols (hd : d ∈ Dialect.shipped) {q : Select} {c : Clauses} (hc : c.IsPlaced)
    (hordered : q.order.isEmpty = c.order.isEmpty) :
    split 0 (q.symbols d c) = ([], assemble (q.part d c)) := by
  rw [symbols_eq hd hordered]
  refine split_clauseSymbols fun e he => ?_
  obtain ⟨w, hw, hpart⟩ := List.mem_filterMap.mp he
  obtain ⟨xs, hxs, rfl⟩ := Option.map_eq_some_iff.mp hpart
  exact ⟨hw, passes_part hd hc hxs⟩

/-- A clause is not longer than the query. -/
theorem length_part_le (hd : d ∈ Dialect.shipped) {q : Select} {c : Clauses}
    (hordered : q.order.isEmpty = c.order.isEmpty) {w : String} (hw : w ∈ clauseWords)
    {xs : List Symbol} (h : q.part d c w = some xs) : xs.length ≤ (q.symbols d c).length := by
  rw [symbols_eq hd hordered, clauseSymbols_assemble]
  obtain ⟨before, after, hwords⟩ := List.append_of_mem hw
  simp [hwords, h, partSymbols]
  omega

/-! ### Reading the clauses -/

/-- The greatest number of rows as it is written: SQLite has no offset without one, and writes `-1`
for none. -/
def writtenLimit (d : Dialect) (limit offset : Option UInt64) : Option Int :=
  match limit with
  | some l => some l.toNat
  | none => if d.name = "sqlite" ∧ offset.isSome then some (-1) else none

/-- The number of rows skipped as it is written: SQL Server has no limit without one. -/
def writtenOffset (d : Dialect) (limit offset : Option UInt64) : Option Nat :=
  match offset with
  | some o => some o.toNat
  | none => if d.name = "mssql" ∧ limit.isSome then some 0 else none

/-- Whether a query must be ordered and is not: SQL Server pages no other. -/
def writesNothing (d : Dialect) (limit offset : Option UInt64) (ordered : Bool) : Bool :=
  d.name = "mssql" && (limit.isSome || offset.isSome) && !ordered

theorem mapM_bound (d : Dialect) (limit offset : Option UInt64) (ordered : Bool) :
    ((pagingPart d limit offset ordered "LIMIT").or
      (pagingPart d limit offset ordered "FETCH")).mapM bound =
        some (writtenLimit d limit offset) := by
  have hword : ∀ n : Nat, (some [.word (toString n)]).mapM bound = some (some (n : Int)) := by
    intro n
    have hread : bound [.word (toString n)] = (number? (toString n)).map fun n => (n : Int) := rfl
    rw [Option.mapM_some, hread, number?_toString]
    rfl
  have hnext : ∀ n : Nat, (some [.word "NEXT", .word (toString n), .word "ROWS",
      .word "ONLY"]).mapM bound = some (some (n : Int)) := by
    intro n
    have hread : bound [.word "NEXT", .word (toString n), .word "ROWS", .word "ONLY"] =
      (number? (toString n)).map fun n => (n : Int) := rfl
    rw [Option.mapM_some, hread, number?_toString]
    rfl
  have hnone : (some [.mark "-", .word "1"]).mapM bound = some (some (-1 : Int)) := by
    have hread : bound [.mark "-", .word "1"] = (number? "1").map fun n => -(n : Int) := rfl
    have hone : number? "1" = some 1 := number?_toString 1
    rw [Option.mapM_some, hread, hone]
    rfl
  have hlimit : pagingPart d limit offset ordered "LIMIT" = if d.name = "mssql" then none
      else match limit with
        | some l => some [.word (toString l.toNat)]
        | none =>
          if d.name = "sqlite" ∧ offset.isSome then some [.mark "-", .word "1"] else none := rfl
  have hfetch : pagingPart d limit offset ordered "FETCH" = if d.name = "mssql" then
      limit.map fun l => [.word "NEXT", .word (toString l.toNat), .word "ROWS", .word "ONLY"]
    else none := rfl
  rw [hlimit, hfetch, writtenLimit.eq_def]
  by_cases hname : d.name = "mssql"
  · simp only [hname, if_true, Option.none_or]
    cases limit with
    | some l => exact hnext l.toNat
    | none =>
      rw [if_neg (by simp)]
      rfl
  · simp only [hname, if_false, Option.or_none]
    cases limit with
    | some l => exact hword l.toNat
    | none =>
      dsimp only
      split
      · exact hnone
      · rfl

theorem mapM_skipped (d : Dialect) (limit offset : Option UInt64) (ordered : Bool) :
    (pagingPart d limit offset ordered "OFFSET").mapM skipped =
      some (writtenOffset d limit offset) := by
  have hword : ∀ n : Nat, skipped [.word (toString n)] = some n := number?_toString
  have hrows : ∀ n : Nat, skipped [.word (toString n), .word "ROWS"] = some n := number?_toString
  have hwritten : writtenOffset d limit offset = if d.name = "mssql" then
      if limit.isSome || offset.isSome then some (offset.getD 0).toNat else none
    else offset.map UInt64.toNat := by
    by_cases h : d.name = "mssql" <;> cases limit <;> cases offset <;> simp [writtenOffset, h]
  have hpart : pagingPart d limit offset ordered "OFFSET" = if d.name = "mssql" then
      if limit.isSome || offset.isSome then
        some [.word (toString (offset.getD 0).toNat), .word "ROWS"]
      else none
    else offset.map fun o => [.word (toString o.toNat)] := rfl
  rw [hpart, hwritten]
  split
  · split
    · exact congrArg (Option.map some) (hrows _)
    · rfl
  · cases offset with
    | none => rfl
    | some o => exact congrArg (Option.map some) (hword _)

section

variable {q : Select} {c : Clauses} {term : Reader Term}

theorem read_source (q : Select) (d : Dialect) (c : Clauses) :
    (q.part d c "FROM").bind source = some (q.scope.model.name, q.scope.qualifier) := by
  simp only [part]
  cases q.scope.qualifier <;> rfl

theorem read_condition (h : ∀ t ∈ c.condition, Takes d term t) :
    (q.part d c "WHERE").mapM (whole term) = some (c.condition.map (Term.canonical d)) := by
  cases hcondition : c.condition with
  | none => simp [part, hcondition]
  | some t => simp [part, hcondition, whole_symbols (h t hcondition)]

theorem read_groups (h : ∀ t ∈ c.groups, Takes d term t) :
    (q.part d c "GROUP").mapM (behindBy (items term)) =
      some (if c.groups.isEmpty then none else some (c.groups.map (Term.canonical d))) := by
  by_cases hnone : c.groups = []
  · simp [part, hnone]
  · simp [part, hnone, behindBy, items_list hnone h]

theorem read_order (h : ∀ b ∈ c.order, Takes d term b.1)
    (hnothing : orderItems term nothing = some none) :
    (q.part d c "ORDER").mapM (behindBy (orderItems term)) =
      some (if c.order.isEmpty then
          if writesNothing d q.limit q.offset (!c.order.isEmpty) then some none else none
        else some (some (c.order.map fun b => (b.1.canonical d, b.2)))) := by
  by_cases hnone : c.order = []
  · have hpart : q.part d c "ORDER" =
        if writesNothing d q.limit q.offset (!c.order.isEmpty) then some (.word "BY" :: nothing)
        else none := by
      simp [part, pagingPart, writesNothing, hnone]
    rw [hpart]
    split <;> simp [hnone, behindBy, hnothing]
  · simp [part, hnone, behindBy, orderItems_order hnone h]

theorem read_limit :
    ((q.part d c "LIMIT").or (q.part d c "FETCH")).mapM bound =
      some (writtenLimit d q.limit q.offset) :=
  mapM_bound d q.limit q.offset (!c.order.isEmpty)

theorem read_offset :
    (q.part d c "OFFSET").mapM skipped = some (writtenOffset d q.limit q.offset) :=
  mapM_skipped d q.limit q.offset (!c.order.isEmpty)

/-- A query that SQL Server pages has an order. -/
theorem isSome_order (hname : d.name = "mssql")
    (hpages : (q.limit.isSome || q.offset.isSome) = true) : (q.part d c "ORDER").isSome = true := by
  simp only [part, pagingPart]
  split
  · rw [if_pos ⟨hname, hpages, rfl⟩]
    rfl
  · rfl

/-- A term of a list is not longer than the query whose clause the list is. -/
theorem length_le_of_mem_part (hd : d ∈ Dialect.shipped)
    (hordered : q.order.isEmpty = c.order.isEmpty) {w : String} (hw : w ∈ clauseWords)
    {l : List (List Symbol)} {x : List Symbol}
    (hpart : q.part d c w = some (x ++ joined l)) {xs : List Symbol} (hxs : xs ∈ l) :
    xs.length ≤ (q.symbols d c).length := by
  have hle := length_part_le hd hordered hw hpart
  have hmem := length_le_of_mem_joined hxs
  rw [List.length_append] at hle
  omega

end

/-- **The clauses of a query are read back from its symbols.** -/
theorem readQuery?_symbols (hd : d ∈ Dialect.shipped) {q : Select} {c : Clauses} (hc : c.IsPlaced)
    (hordered : q.order.isEmpty = c.order.isEmpty) :
    readQuery? d .declared (q.symbols d c) = some
      { projection := c.projection.map (Term.canonical d)
        table := q.scope.model.name
        qualifier := q.scope.qualifier
        condition := c.condition.map (Term.canonical d)
        groups := c.groups.map (Term.canonical d)
        order := c.order.map fun b => (b.1.canonical d, b.2)
        orderedByNothing := writesNothing d q.limit q.offset (!c.order.isEmpty)
        limit := writtenLimit d q.limit q.offset
        offset := writtenOffset d q.limit q.offset } := by
  have htakes : ∀ s : Term, s.IsOperand → (s.symbols d).length ≤ (q.symbols d c).length →
      Takes d (phraseOf (openAtom d) .declared ((q.symbols d c).length + 1)) s := by
    intro s hs hle
    have hread := isRead_of_isGroupedBy (g := .declared) hd (readsAtoms_openAtom d _)
      (hs.mono fun u hu => ⟨hu, grouped_declared u⟩)
    exact hread.takes (grouped_declared s) (Nat.lt_succ_of_le hle)
  have hselect : (q.part d c "SELECT").bind
      (items (selected (phraseOf (openAtom d) .declared ((q.symbols d c).length + 1)))) =
        some (c.projection.map (Term.canonical d)) :=
    items_selected hc.selects hc.projection fun s hs hle => htakes s hs
      (Nat.le_trans hle (length_part_le hd hordered (w := "SELECT") (by decide) rfl))
  have hwhere := read_condition (q := q) fun t ht => htakes t (hc.condition t ht)
    (length_part_le hd hordered (w := "WHERE") (by decide) (by simp [part, Option.mem_def.mp ht]))
  have hgroup := read_groups (q := q) fun t ht => htakes t (hc.groups t ht)
    (length_le_of_mem_part hd hordered (w := "GROUP") (x := [.word "BY"]) (by decide)
      (by simp [part, List.ne_nil_of_mem ht, listSymbols_eq]) (List.mem_map_of_mem ht))
  have horder := read_order (q := q) (fun b hb => htakes b.1 (hc.order b hb) (by
    have hle := length_le_of_mem_part hd hordered (w := "ORDER") (x := [.word "BY"])
      (by decide) (by simp [part, List.ne_nil_of_mem hb, orderSymbols_eq])
      (List.mem_map_of_mem
        (f := fun b : Term × Bool => b.1.symbols d ++ Term.directionSymbols b.2) hb)
    rw [List.length_append] at hle
    omega)) (orderItems_nothing d .declared _)
  -- a clause without terms is not written, and is read as no terms
  have hwrites : writesNothing d q.limit q.offset (!c.order.isEmpty) = true → c.order = [] := by
    simp [writesNothing]
  rw [readQuery?, split_symbols hd hc hordered]
  simp only [lookup_assemble _ (by decide : "SELECT" ∈ clauseWords),
    lookup_assemble _ (by decide : "FROM" ∈ clauseWords),
    lookup_assemble _ (by decide : "WHERE" ∈ clauseWords),
    lookup_assemble _ (by decide : "GROUP" ∈ clauseWords),
    lookup_assemble _ (by decide : "ORDER" ∈ clauseWords),
    lookup_assemble _ (by decide : "LIMIT" ∈ clauseWords),
    lookup_assemble _ (by decide : "OFFSET" ∈ clauseWords),
    lookup_assemble _ (by decide : "FETCH" ∈ clauseWords)]
  rw [hselect, read_source, hwhere, hgroup, horder, read_limit, read_offset]
  generalize writesNothing d q.limit q.offset (!c.order.isEmpty) = nothing at hwrites ⊢
  cases hgroups : c.groups <;> cases horders : c.order <;> cases nothing <;>
    simp_all [guard, sublist_assemble]

/-! ### The query that calls build -/

/-- What a query selects that names no column: every mapped column, or everything. -/
def everything (s : Scope) : List Term :=
  if s.model.columns.isEmpty then [.all s.qualifier]
  else s.model.columns.map fun c => .column s.qualifier c.name

theorem canonical_everything (d : Dialect) (s : Scope) :
    (everything s).map (Term.canonical d) = everything s := by
  rw [everything]
  split
  · rfl
  · simp [Function.comp_def, Term.canonical]

theorem isSelected_everything (s : Scope) : ∀ t ∈ everything s, IsSelected t := by
  rw [everything]
  split
  · simpa using IsSelected.all s.qualifier
  · intro t ht
    obtain ⟨c, -, rfl⟩ := List.mem_map.mp ht
    exact .operand (.column rfl)

theorem everything_ne_nil (s : Scope) : everything s ≠ [] := by
  rw [everything]
  split
  · simp
  · next hne => simpa using hne

theorem canonical_conjunction (d : Dialect) (ts : List Term) :
    (Term.conjunction ts).map (Term.canonical d) =
      Term.conjunction (ts.map (Term.canonical d)) := by
  cases ts with
  | nil => rfl
  | cons u us =>
    simp only [Term.conjunction, Option.map_some, List.map_cons, Option.some.injEq]
    induction us generalizing u with
    | nil => rfl
    | cons v us ih => exact ih (.operation u .and v)

/-- What a call selects is compiled to what may be selected. -/
theorem Call.isSelected {e : Expr} (h : (Call.column e).IsPlaced) {s : Scope} {t : Term}
    (ht : s.compile e = .ok t) : IsSelected t := by
  cases e with
  | named operand name =>
    rw [Scope.compile] at ht
    obtain ⟨u, hu, ht⟩ := exists_of_bind_eq_ok ht
    obtain rfl := Except.ok.inj ht
    exact .named name (Scope.isOperand_compile s operand h hu)
  | all =>
    obtain rfl := Except.ok.inj ht
    exact .all s.qualifier
  | _ => exact .operand (Scope.isOperand_compile s _ h ht)

/-- A call filters by an operand. -/
theorem Call.isOperand_of_filter? {call : Call} {e : Expr} (hplace : call.IsPlaced)
    (h : call.filter? = some e) : e.isOperand = true := by
  cases call with
  | filter f => exact Option.some.inj h ▸ hplace
  | _ => cases h

/-- A call groups by an operand. -/
theorem Call.isOperand_of_group? {call : Call} {e : Expr} (hplace : call.IsPlaced)
    (h : call.group? = some e) : e.isOperand = true := by
  cases call with
  | groupBy f => exact Option.some.inj h ▸ hplace
  | _ => cases h

/-- What calls build compiles to clauses. -/
theorem exists_clauses {m : Model} {enabled : Bool} {calls : List Call} {c : Clauses}
    (h : (ofCalls m enabled calls).compile = .ok c) :
    ∃ columns conditions,
      (scopeOf m enabled calls).compileList (calls.filterMap Call.column?) = .ok columns ∧
      (scopeOf m enabled calls).compileList (calls.filterMap Call.filter?) = .ok conditions ∧
      (scopeOf m enabled calls).compileList (calls.filterMap Call.group?) = .ok c.groups ∧
      (scopeOf m enabled calls).compileOrder (calls.filterMap Call.order?) = .ok c.order ∧
      c.projection =
        (if columns.isEmpty then everything (scopeOf m enabled calls) else columns) ∧
      c.condition = Term.conjunction conditions := by
  rw [ofCalls_eq] at h
  obtain ⟨projection, hprojection, h⟩ := exists_of_bind_eq_ok h
  obtain ⟨condition, hcondition, h⟩ := exists_of_bind_eq_ok h
  obtain ⟨groups, hgroups, h⟩ := exists_of_bind_eq_ok h
  obtain ⟨order, horder, h⟩ := exists_of_bind_eq_ok h
  obtain rfl := Except.ok.inj h
  obtain ⟨conditions, hconditions, rfl⟩ := Scope.compileOption_conjunction _ hcondition
  generalize calls.filterMap Call.column? = es at hprojection ⊢
  rw [Select.projection] at hprojection
  split at hprojection
  · next hnone =>
    obtain rfl := List.isEmpty_iff.mp hnone
    refine ⟨[], conditions, rfl, hconditions, hgroups, horder, ?_, rfl⟩
    rw [everything]
    split at hprojection
    · next hempty => simp [hempty, Except.ok.inj hprojection]
    · next hmapped => simp [hmapped, Except.ok.inj hprojection]
  · next hsome =>
    refine ⟨projection, conditions, hprojection, hconditions, hgroups, horder, ?_, rfl⟩
    have hlength := (Scope.forall₂_compileList hprojection).length_eq
    have hne : ¬projection.isEmpty = true := by
      rw [List.isEmpty_iff] at hsome ⊢
      rintro rfl
      exact hsome (List.eq_nil_of_length_eq_zero hlength)
    rw [if_neg hne]

/-- Where calls have names and all columns only where they are selected, so have the clauses. -/
theorem isPlaced_clauses {m : Model} {enabled : Bool} {calls : List Call}
    (hplaced : ∀ call ∈ calls, call.IsPlaced) {c : Clauses}
    (h : (ofCalls m enabled calls).compile = .ok c) : c.IsPlaced := by
  obtain ⟨columns, conditions, hcolumns, hconditions, hgroups, horder, hprojection, hcondition⟩ :=
    exists_clauses h
  have hoperand : ∀ {give : Call → Option Expr}, (∀ {call e}, call.IsPlaced → give call = some e →
      e.isOperand = true) → ∀ {ts}, (scopeOf m enabled calls).compileList (calls.filterMap give) =
        .ok ts → ∀ t ∈ ts, t.IsOperand := by
    intro give hgive ts hts t ht
    obtain ⟨e, he, hcompile⟩ := Text.exists_mem_of_forall₂ (Scope.forall₂_compileList hts) ht
    obtain ⟨call, hcall, hgiven⟩ := List.mem_filterMap.mp he
    exact Scope.isOperand_compile _ e (hgive (hplaced call hcall) hgiven) hcompile
  have hselected : ∀ t ∈ columns, IsSelected t := by
    intro t ht
    obtain ⟨e, he, hcompile⟩ := Text.exists_mem_of_forall₂ (Scope.forall₂_compileList hcolumns) ht
    obtain ⟨call, hcall, hgiven⟩ := List.mem_filterMap.mp he
    have hplace := hplaced call hcall
    cases call <;> simp [Call.column?] at hgiven
    subst hgiven
    exact Call.isSelected hplace hcompile
  refine ⟨?_, ?_, ?_, ?_, ?_⟩
  · rw [hprojection]
    split
    · exact everything_ne_nil _
    · next hne => simpa using hne
  · rw [hprojection]
    split
    · exact isSelected_everything _
    · exact hselected
  · rw [hcondition]
    exact Term.isOperand_conjunction (hoperand Call.isOperand_of_filter? hconditions)
  · exact hoperand Call.isOperand_of_group? hgroups
  · intro b hb
    obtain ⟨e, he, hcompile, -⟩ := Text.exists_mem_of_forall₂ (Scope.forall₂_compileOrder horder) hb
    obtain ⟨call, hcall, hgiven⟩ := List.mem_filterMap.mp he
    have hplace := hplaced call hcall
    cases call <;> simp [Call.order?] at hgiven
    subst hgiven
    exact Scope.isOperand_compile _ _ hplace hcompile

/-- **The query that calls build is read back from its text.** -/
theorem reads_ofCalls (hd : d ∈ Dialect.shipped) {m : Model} {enabled : Bool} {calls : List Call}
    (hplaced : ∀ call ∈ calls, call.IsPlaced) {o : Operation}
    (h : (ofCalls m enabled calls).build d = .ok o) :
    let s := scopeOf m enabled calls
    let limit := lastOf Call.limit? calls
    let offset := lastOf Call.offset? calls
    ∃ columns conditions groups order,
      s.compileList (calls.filterMap Call.column?) = .ok columns ∧
      s.compileList (calls.filterMap Call.filter?) = .ok conditions ∧
      s.compileList (calls.filterMap Call.group?) = .ok groups ∧
      s.compileOrder (calls.filterMap Call.order?) = .ok order ∧
      readQuery? d .declared (d.symbols (Fragment.allSigns o.fragments)) = some
        { projection :=
            if columns.isEmpty then everything s else columns.map (Term.canonical d)
          table := m.name
          qualifier := s.qualifier
          condition := Term.conjunction (conditions.map (Term.canonical d))
          groups := groups.map (Term.canonical d)
          order := order.map fun b => (b.1.canonical d, b.2)
          orderedByNothing := writesNothing d limit offset (!order.isEmpty)
          limit := writtenLimit d limit offset
          offset := writtenOffset d limit offset } ∧
      (d.name = "mssql" → (limit.isSome || offset.isSome) = true →
        ((split 0 (d.symbols (Fragment.allSigns o.fragments))).2.map Prod.fst).count "ORDER" =
          1) := by
  intro s limit offset
  obtain ⟨c, hcompile, rfl⟩ := exists_of_map_eq_ok h
  obtain ⟨columns, conditions, hcolumns, hconditions, hgroups, horder, hprojection, hcondition⟩ :=
    exists_clauses hcompile
  have hc := isPlaced_clauses hplaced hcompile
  have hordered : (ofCalls m enabled calls).order.isEmpty = c.order.isEmpty := by
    have hlength := (Scope.forall₂_compileOrder horder).length_eq
    rw [ofCalls_eq, Bool.eq_iff_iff, List.isEmpty_iff_length_eq_zero,
      List.isEmpty_iff_length_eq_zero, hlength]
  have hsymbols : d.symbols (Fragment.allSigns (Operation.ofFragments d
      ((ofCalls m enabled calls).fragments d c)).fragments) =
        (ofCalls m enabled calls).symbols d c := by
    have hnormal : (Operation.ofFragments d ((ofCalls m enabled calls).fragments d c)).fragments =
        Fragment.normalize ((ofCalls m enabled calls).fragments d c) := rfl
    rw [hnormal, Fragment.allSigns_normalize, (scans_fragments hd _ c).symbols_eq]
  rw [hsymbols]
  refine ⟨columns, conditions, c.groups, c.order, hcolumns, hconditions, hgroups, horder, ?_, ?_⟩
  · have hselected : c.projection.map (Term.canonical d) =
        if columns.isEmpty then everything s else columns.map (Term.canonical d) := by
      rw [hprojection]
      split
      · exact canonical_everything d s
      · rfl
    rw [readQuery?_symbols hd hc hordered, hcondition, canonical_conjunction, hselected, ofCalls_eq]
    rfl
  · intro hname hpages
    have hpages' : ((ofCalls m enabled calls).limit.isSome ||
        (ofCalls m enabled calls).offset.isSome) = true := by rwa [ofCalls_eq]
    rw [split_symbols hd hc hordered, count_assemble _ (by decide),
      if_pos (isSome_order hname hpages')]

/-- Filters of looser operators, a window, a name that is a keyword, and a choice without branches;
SQL Server pages the query in the order `(SELECT NULL)`. -/
theorem reads_ofCalls_paged :
    let m : Model :=
      ⟨"t WHERE", .table, [{ field := "a", name := "ORDER", type := .int64 }], [], []⟩
    let a : Expr := .property "a"
    let calls : List Call :=
      [.column (.named (.rowNumber [a] [(a, true)]) "FROM"), .column .all, .qualify "x",
        .filter (.binary .or a (.unary .not .arg)), .filter (.case none [] (some a)), .take 5]
    Dialect.sqlServer ∈ Dialect.shipped ∧ (∀ call ∈ calls, call.IsPlaced) ∧
      ∃ o, (ofCalls m false calls).build .sqlServer = .ok o ∧
        readQuery? .sqlServer .declared
          (Dialect.sqlServer.symbols (Fragment.allSigns o.fragments)) = some
            { projection :=
                [.named (.rowNumber [.column (some "x") "ORDER"]
                  [(.column (some "x") "ORDER", true)]) "FROM", .all (some "x")]
              table := "t WHERE"
              qualifier := some "x"
              condition := some (.operation
                (.operation (.column (some "x") "ORDER") .or (.unary .not (.argument false))) .and
                (.case none [] (some (.column (some "x") "ORDER"))))
              groups := []
              order := []
              orderedByNothing := true
              limit := some 5
              offset := some 0 } := by
  intro m a calls
  have hd : Dialect.sqlServer ∈ Dialect.shipped := by simp [Dialect.shipped]
  have hplaced : ∀ call ∈ calls, call.IsPlaced := by
    simp [calls, a, Call.IsPlaced, Expr.isOperand, Expr.listIsOperand, Expr.orderIsOperand,
      Expr.optionIsOperand, Expr.branchesAreOperands]
  obtain ⟨o, ho⟩ : ∃ o, (ofCalls m false calls).build .sqlServer = .ok o := ⟨_, rfl⟩
  refine ⟨hd, hplaced, o, ho, ?_⟩
  obtain ⟨columns, conditions, groups, order, hcolumns, hconditions, hgroups, horder, hread, -⟩ :=
    reads_ofCalls hd hplaced ho
  obtain rfl := Except.ok.inj hcolumns
  obtain rfl := Except.ok.inj hconditions
  obtain rfl := Except.ok.inj hgroups
  obtain rfl := Except.ok.inj horder
  rw [hread]
  rfl

end Select

end EntitySql
