import EntitySql.Proofs.Reading.Symbol

/-!
# The symbols of a term

What the scanner makes of a rendered term: `Term.symbols` mirrors `Term.fragments`, and
`Term.scans_fragments` says that the rendered term is scanned as these symbols, whatever names,
values and nesting it has. Statements about all parts of a term go through `Term.Forall`.

## Main definitions

* `Term.Forall`: a property of a term and of all terms inside it
* `Term.symbols`: the symbols of a term

## Main result

* `Term.scans_fragments`: a rendered term is scanned as its symbols
-/

namespace EntitySql

namespace Term

/-- A property holds of a term and of every term inside it. -/
inductive Forall (P : Term → Prop) : Term → Prop where
  | column {qualifier : Option String} {name : String} :
      P (.column qualifier name) → Forall P (.column qualifier name)
  | constant {v : Value} : P (.constant v) → Forall P (.constant v)
  | argument {list : Bool} : P (.argument list) → Forall P (.argument list)
  | operation {left right : Term} {op : Operator} :
      P (.operation left op right) → Forall P left → Forall P right →
      Forall P (.operation left op right)
  | unary {op : UnaryOperator} {operand : Term} :
      P (.unary op operand) → Forall P operand → Forall P (.unary op operand)
  | call {function : Function} {distinct : Bool} {args : List Term} :
      P (.call function distinct args) → (∀ t ∈ args, Forall P t) →
      Forall P (.call function distinct args)
  | case {operand : Option Term} {branches : List (Term × Term)} {otherwise : Option Term} :
      P (.case operand branches otherwise) → (∀ t ∈ operand, Forall P t) →
      (∀ b ∈ branches, Forall P b.1) → (∀ b ∈ branches, Forall P b.2) →
      (∀ t ∈ otherwise, Forall P t) → Forall P (.case operand branches otherwise)
  | cond {condition yes no : Term} :
      P (.cond condition yes no) → Forall P condition → Forall P yes → Forall P no →
      Forall P (.cond condition yes no)
  | cast {operand : Term} {target : ColumnType} :
      P (.cast operand target) → Forall P operand → Forall P (.cast operand target)
  | tuple {items : List Term} :
      P (.tuple items) → (∀ t ∈ items, Forall P t) → Forall P (.tuple items)
  | named {operand : Term} {name : String} :
      P (.named operand name) → Forall P operand → Forall P (.named operand name)
  | all {qualifier : Option String} : P (.all qualifier) → Forall P (.all qualifier)
  | rowNumber {partition : List Term} {order : List (Term × Bool)} :
      P (.rowNumber partition order) → (∀ t ∈ partition, Forall P t) →
      (∀ b ∈ order, Forall P b.1) → Forall P (.rowNumber partition order)
  | paging {limit offset : Option UInt64} {ordered : Bool} :
      P (.paging limit offset ordered) → Forall P (.paging limit offset ordered)

/-- What holds of all parts of a term holds of the term. -/
theorem Forall.here {P : Term → Prop} {t : Term} (h : t.Forall P) : P t := by
  cases h <;> assumption

theorem Forall.mono {P Q : Term → Prop} (hPQ : ∀ t, P t → Q t) {t : Term} (h : t.Forall P) :
    t.Forall Q := by
  induction h with
  | column h => exact .column (hPQ _ h)
  | constant h => exact .constant (hPQ _ h)
  | argument h => exact .argument (hPQ _ h)
  | operation h _ _ hleft hright => exact .operation (hPQ _ h) hleft hright
  | unary h _ ih => exact .unary (hPQ _ h) ih
  | call h _ ih => exact .call (hPQ _ h) ih
  | case h _ _ _ _ hoperand hconditions hresults hotherwise =>
    exact .case (hPQ _ h) hoperand hconditions hresults hotherwise
  | cond h _ _ _ hcondition hyes hno => exact .cond (hPQ _ h) hcondition hyes hno
  | cast h _ ih => exact .cast (hPQ _ h) ih
  | tuple h _ ih => exact .tuple (hPQ _ h) ih
  | named h _ ih => exact .named (hPQ _ h) ih
  | all h => exact .all (hPQ _ h)
  | rowNumber h _ _ hpartition horder => exact .rowNumber (hPQ _ h) hpartition horder
  | paging h => exact .paging (hPQ _ h)

mutual

/-- What holds of every term holds of all parts of a term. So statements about all terms are proved
by induction on this. -/
theorem Forall.of_forall {P : Term → Prop} (h : ∀ t, P t) : ∀ t : Term, t.Forall P
  | .column _ _ => .column (h _)
  | .constant _ => .constant (h _)
  | .argument _ => .argument (h _)
  | .operation left _ right => .operation (h _) (of_forall h left) (of_forall h right)
  | .unary _ operand => .unary (h _) (of_forall h operand)
  | .call _ _ args => .call (h _) (of_forall_list h args)
  | .case operand branches otherwise =>
    .case (h _) (of_forall_option h operand) (fun b hb => (of_forall_branches h branches b hb).1)
      (fun b hb => (of_forall_branches h branches b hb).2) (of_forall_option h otherwise)
  | .cond condition yes no =>
    .cond (h _) (of_forall h condition) (of_forall h yes) (of_forall h no)
  | .cast operand _ => .cast (h _) (of_forall h operand)
  | .tuple items => .tuple (h _) (of_forall_list h items)
  | .named operand _ => .named (h _) (of_forall h operand)
  | .all _ => .all (h _)
  | .rowNumber partition order =>
    .rowNumber (h _) (of_forall_list h partition) (of_forall_order h order)
  | .paging _ _ _ => .paging (h _)

theorem Forall.of_forall_list {P : Term → Prop} (h : ∀ t, P t) :
    ∀ ts : List Term, ∀ t ∈ ts, t.Forall P
  | [] => List.forall_mem_nil _
  | t :: ts => List.forall_mem_cons.mpr ⟨of_forall h t, of_forall_list h ts⟩

theorem Forall.of_forall_option {P : Term → Prop} (h : ∀ t, P t) :
    ∀ o : Option Term, ∀ t ∈ o, t.Forall P
  | none => fun _ ht => absurd ht (by simp)
  | some t => fun _ ht => Option.some.inj ht ▸ of_forall h t

theorem Forall.of_forall_branches {P : Term → Prop} (h : ∀ t, P t) :
    ∀ bs : List (Term × Term), ∀ b ∈ bs, b.1.Forall P ∧ b.2.Forall P
  | [] => List.forall_mem_nil _
  | (condition, result) :: bs =>
    List.forall_mem_cons.mpr ⟨⟨of_forall h condition, of_forall h result⟩, of_forall_branches h bs⟩

theorem Forall.of_forall_order {P : Term → Prop} (h : ∀ t, P t) :
    ∀ os : List (Term × Bool), ∀ b ∈ os, b.1.Forall P
  | [] => List.forall_mem_nil _
  | (t, _) :: os => List.forall_mem_cons.mpr ⟨of_forall h t, of_forall_order h os⟩

end

/-- The symbols of an operand that is put in parentheses if they are wanted. -/
def wrapSymbols (wanted : Bool) (inner : List Symbol) : List Symbol :=
  if wanted then .mark "(" :: inner ++ [.mark ")"] else inner

/-- The symbols of an operator. -/
def operatorSymbols : Operator → List Symbol
  | .isNot => [.word "IS", .word "NOT"]
  | .like => [.word "LIKE"]
  | .is => [.word "IS"]
  | .isIn => [.word "IN"]
  | .and => [.word "AND"]
  | .or => [.word "OR"]
  | op => [.mark op.sql]

/-- The symbol of an operator in front of an operand. -/
def unarySymbol : UnaryOperator → Symbol
  | .negate => .mark "-"
  | .not => .word "NOT"

/-- The symbols of the native name of a type. -/
def typeSymbols (d : Dialect) (target : ColumnType) : List Symbol :=
  d.symbols (Sign.ofText (d.nativeType target none))

/-- The symbols of a qualifier. -/
def qualifierSymbols : Option String → List Symbol
  | some a => [.name a, .mark "."]
  | none => []

/-- The symbol of a descending order. -/
def directionSymbols (descending : Bool) : List Symbol := if descending then [.word "DESC"] else []

mutual

/-- The symbols of a term. -/
def symbols (d : Dialect) : Term → List Symbol
  | column qualifier name => qualifierSymbols qualifier ++ [.name name]
  | constant v => [if v.isNull then .word "NULL" else .value v]
  | argument list => [.slot list]
  | operation left op right =>
    wrapSymbols (left.needsParens op false) (left.symbols d) ++
      (operatorSymbols op ++ wrapSymbols (wrapsRight op right) (right.symbols d))
  | unary op operand => unarySymbol op :: wrapSymbols operand.priority?.isSome (operand.symbols d)
  | call function distinct args =>
    .word function.sql :: .mark "(" :: (if distinct then [.word "DISTINCT"] else []) ++
      ((if args.isEmpty then [.mark "*"] else listSymbols d args) ++ [.mark ")"])
  | case operand branches otherwise =>
    .word "CASE" :: (optionSymbols d [] operand ++ (branchSymbols d branches ++
      (optionSymbols d [.word "ELSE"] otherwise ++ [.word "END"])))
  | cond condition yes no =>
    .word "CASE" :: .word "WHEN" :: (condition.symbols d ++ .word "THEN" :: (yes.symbols d ++
      .word "ELSE" :: (no.symbols d ++ [.word "END"])))
  | cast operand target =>
    .word "CAST" :: .mark "(" :: (operand.symbols d ++ .word "AS" ::
      (typeSymbols d target ++ [.mark ")"]))
  | tuple items => .mark "(" :: (listSymbols d items ++ [.mark ")"])
  | named operand name => operand.symbols d ++ [.word "AS", .name name]
  | all qualifier => qualifierSymbols qualifier ++ [.mark "*"]
  | rowNumber partition order =>
    .word "ROW_NUMBER" :: .mark "(" :: .mark ")" :: .word "OVER" :: .mark "(" ::
      ((if partition.isEmpty then []
        else .word "PARTITION" :: .word "BY" :: listSymbols d partition) ++
      ((if order.isEmpty then [] else .word "ORDER" :: .word "BY" :: orderSymbols d order) ++
      [.mark ")"]))
  | paging limit offset ordered => d.symbols (Sign.ofText (d.paging limit offset ordered))

/-- The symbols of terms that are divided by commas. -/
def listSymbols (d : Dialect) : List Term → List Symbol
  | [] => []
  | [t] => t.symbols d
  | t :: ts => t.symbols d ++ .mark "," :: listSymbols d ts

/-- The symbols of an optional term behind a keyword. -/
def optionSymbols (d : Dialect) (keyword : List Symbol) : Option Term → List Symbol
  | none => []
  | some t => keyword ++ t.symbols d

/-- The symbols of the branches of a choice. -/
def branchSymbols (d : Dialect) : List (Term × Term) → List Symbol
  | [] => []
  | (condition, result) :: rest =>
    .word "WHEN" :: (condition.symbols d ++ .word "THEN" :: (result.symbols d ++
      branchSymbols d rest))

/-- The symbols of order terms that are divided by commas. -/
def orderSymbols (d : Dialect) : List (Term × Bool) → List Symbol
  | [] => []
  | [(t, descending)] => t.symbols d ++ directionSymbols descending
  | (t, descending) :: rest =>
    t.symbols d ++ (directionSymbols descending ++ .mark "," :: orderSymbols d rest)

end

/-! ### Scanning the pieces of a term -/

variable {d : Dialect}

/-- A fixed text is scanned dialect by dialect. -/
theorem settles_text (hd : d ∈ Dialect.shipped) {s : String} {as : List Symbol}
    (h : ∀ e ∈ Dialect.shipped, Settles e (Sign.ofText s) as) : Settles d (Sign.ofText s) as :=
  h d hd

/-- A fixed text that begins with a break, in front of what is scanned on its own. -/
theorem behind_text (hd : d ∈ Dialect.shipped) {s : String} {c : Char} {as bs : List Symbol}
    {ys : List Sign} (hc : s.toList.head? = some c) (hb : Sign.isBreak c = true)
    (h : ∀ e ∈ Dialect.shipped, Settles e (Sign.ofText s) as) (hy : Scans d ys bs) :
    ScansBehind d (Sign.ofText s ++ ys) (as ++ bs) := by
  exact (h d hd).behind (by rw [Sign.ofText, List.head?_map, hc]; rfl) hb hy

/-- A fixed word is scanned dialect by dialect. -/
theorem scans_word (hd : d ∈ Dialect.shipped) (s : String)
    (h : ∀ e ∈ Dialect.shipped,
      Scan.run e .between (Sign.ofText s) = ([], .word s.toList)) :
    Scans d (Sign.ofText s) [.word s] :=
  ⟨[], .word s.toList, h d hd, rfl, by simp [Scan.pending]⟩

theorem scans_nil : Scans d [] [] := ScansBehind.nil.scans

/-- Three texts that are given by their characters are scanned as one. -/
theorem settles_ofList {as bs cs : List Char} {xs : List Symbol}
    (h : Settles d ((as ++ bs ++ cs).map .char) xs) :
    Settles d (Sign.ofText (.ofList as ++ .ofList bs ++ .ofList cs)) xs := by
  simpa [Sign.ofText] using h

theorem settles_operator (hd : d ∈ Dialect.shipped) (op : Operator) :
    Settles d (Sign.ofText s!" {op.sql} ") (operatorSymbols op) := by
  rcases Dialect.mem_shipped.mp hd with rfl | rfl | rfl <;> cases op <;> exact settles_ofList rfl

theorem head?_operator (op : Operator) :
    (Sign.ofText s!" {op.sql} ").head? = some (.char ' ') := by
  cases op <;> rfl

theorem settles_unary (hd : d ∈ Dialect.shipped) (op : UnaryOperator) :
    Settles d (Sign.ofText op.sql) [unarySymbol op] := by
  rcases Dialect.mem_shipped.mp hd with rfl | rfl | rfl <;> cases op <;> rfl

theorem settles_call (hd : d ∈ Dialect.shipped) (f : Function) (distinct : Bool) :
    Settles d (Sign.ofText (f.sql ++ "(" ++ if distinct then "DISTINCT " else ""))
      (.word f.sql :: .mark "(" :: if distinct then [.word "DISTINCT"] else []) := by
  rcases Dialect.mem_shipped.mp hd with rfl | rfl | rfl <;> cases distinct <;> cases f <;>
    exact settles_ofList rfl

/-- A type of the declaring program is stored as text. -/
theorem nativeType_custom (hd : d ∈ Dialect.shipped) (name : String) :
    d.nativeType (.custom name) none = d.nativeType .text none := by
  rcases Dialect.mem_shipped.mp hd with rfl | rfl | rfl <;> rfl

theorem plain_nativeType (hd : d ∈ Dialect.shipped) (target : ColumnType) :
    PlainText (d.nativeType target none) := by
  cases target with
  | custom name =>
    rw [nativeType_custom hd]
    rcases Dialect.mem_shipped.mp hd with rfl | rfl | rfl <;> exact .ofList rfl
  | _ => rcases Dialect.mem_shipped.mp hd with rfl | rfl | rfl <;> exact .ofList rfl

theorem plain_paging (hd : d ∈ Dialect.shipped) (limit offset : Option UInt64) (ordered : Bool) :
    PlainText (d.paging limit offset ordered) := by
  have hnat : ∀ {s : String} (n : Nat), PlainText s → PlainText (s ++ toString n) :=
    fun n hs => hs.append (.nat n)
  rcases Dialect.mem_shipped.mp hd with rfl | rfl | rfl
  · cases limit <;> cases offset
    · exact (.ofList rfl : PlainText "")
    · exact hnat _ (.ofList rfl : PlainText "LIMIT -1 OFFSET ")
    · exact hnat _ (.ofList rfl : PlainText "LIMIT ")
    · exact hnat _ ((hnat _ (.ofList rfl : PlainText "LIMIT ")).append
        (.ofList rfl : PlainText " OFFSET "))
  · cases limit <;> cases offset
    · exact (.ofList rfl : PlainText "")
    · exact hnat _ (.ofList rfl : PlainText "OFFSET ")
    · exact hnat _ (.ofList rfl : PlainText "LIMIT ")
    · exact hnat _ ((hnat _ (.ofList rfl : PlainText "LIMIT ")).append
        (.ofList rfl : PlainText " OFFSET "))
  · have hoffset : PlainText s!"OFFSET {(offset.getD 0).toNat} ROWS" :=
      (hnat _ (.ofList rfl : PlainText "OFFSET ")).append (.ofList rfl : PlainText " ROWS")
    have horder : PlainText (if ordered then "" else "ORDER BY (SELECT NULL) ") := by
      cases ordered <;> exact .ofList rfl
    simp only [Dialect.sqlServer, SqlServer.paging]
    split
    · exact .ofList rfl
    · cases limit with
      | none => exact (horder.append hoffset).append (.ofList rfl : PlainText "")
      | some l =>
        exact (horder.append hoffset).append
          ((hnat _ (.ofList rfl : PlainText " FETCH NEXT ")).append
            (.ofList rfl : PlainText " ROWS ONLY"))

theorem scans_nativeType (hd : d ∈ Dialect.shipped) (target : ColumnType) :
    Scans d (Sign.ofText (d.nativeType target none)) (typeSymbols d target) :=
  (plain_nativeType hd target).scans (Dialect.hasPlainQuotes_of_shipped hd)

theorem scansBehind_parenthesis (hd : d ∈ Dialect.shipped) :
    ScansBehind d (Sign.ofText ")") [.mark ")"] := by
  have hall : ScansBehind d (Sign.ofText ")" ++ []) ([Symbol.mark ")"] ++ []) :=
    behind_text hd rfl rfl (by decide) scans_nil
  simpa using hall

theorem scansBehind_end (hd : d ∈ Dialect.shipped) :
    ScansBehind d (Sign.ofText " END") [.word "END"] := by
  have hall : ScansBehind d (Sign.ofText " " ++ Sign.ofText "END") ([] ++ [Symbol.word "END"]) :=
    behind_text hd rfl rfl (by decide) (scans_word hd "END" (by decide))
  exact hall

theorem scans_wrap (hd : d ∈ Dialect.shipped) (wanted : Bool) {fs : List Fragment}
    {as : List Symbol} (h : Scans d (Fragment.allSigns fs) as) :
    Scans d (Fragment.allSigns (wrapIf wanted fs)) (wrapSymbols wanted as) := by
  cases wanted with
  | false => exact h
  | true =>
    have hopen : Settles d (Sign.ofText "(") [.mark "("] := settles_text hd (by decide)
    have hall := hopen.append_scans
      (h.append_behind (Dialect.hasPlainQuotes_of_shipped hd) (scansBehind_parenthesis hd))
    simpa [wrapIf, wrapSymbols, Fragment.signs] using hall

theorem scans_qualified (hd : d ∈ Dialect.shipped) (qualifier : Option String) {s : String}
    {as : List Symbol} (h : Scans d (Sign.ofText s) as) :
    Scans d (Sign.ofText (qualifierText d qualifier ++ s)) (qualifierSymbols qualifier ++ as) := by
  cases qualifier with
  | none => simpa [qualifierText, qualifierSymbols] using h
  | some a =>
    have hpoint : ScansBehind d (Sign.ofText "." ++ Sign.ofText s) ([Symbol.mark "."] ++ as) :=
      behind_text hd rfl rfl (by decide) h
    have hall := (scans_quote d a).append_behind (Dialect.hasPlainQuotes_of_shipped hd) hpoint
    simpa [qualifierText, qualifierSymbols] using hall

/-- A term is scanned as its symbols. -/
def IsScanned (d : Dialect) (t : Term) : Prop :=
  Scans d (Fragment.allSigns (t.fragments d)) (t.symbols d)

theorem scans_list (hd : d ∈ Dialect.shipped) {ts : List Term} (h : ∀ t ∈ ts, t.IsScanned d) :
    Scans d (Fragment.allSigns (listFragments d ts)) (listSymbols d ts) := by
  induction ts with
  | nil => exact scans_nil
  | cons t ts ih =>
    have ht : t.IsScanned d := h t List.mem_cons_self
    cases ts with
    | nil => exact ht
    | cons u us =>
      have hrest := ih fun s hs => h s (List.mem_cons_of_mem _ hs)
      have hcomma : ScansBehind d _ ([Symbol.mark ","] ++ _) :=
        behind_text (s := ", ") hd rfl rfl (by decide) hrest
      have hall := ht.append_behind (Dialect.hasPlainQuotes_of_shipped hd) hcomma
      simpa [listFragments, listSymbols, Fragment.signs] using hall

theorem scansBehind_option (hd : d ∈ Dialect.shipped) (keyword : String) {as : List Symbol}
    (hc : keyword.toList.head? = some ' ')
    (hkeyword : ∀ e ∈ Dialect.shipped, Settles e (Sign.ofText keyword) as) {o : Option Term}
    (h : ∀ t ∈ o, t.IsScanned d) :
    ScansBehind d (Fragment.allSigns (optionFragments d keyword o)) (optionSymbols d as o) := by
  cases o with
  | none => exact ScansBehind.nil
  | some t =>
    have hall := behind_text hd hc rfl hkeyword (h t rfl)
    simpa [optionFragments, optionSymbols, Fragment.signs] using hall

theorem scansBehind_branches (hd : d ∈ Dialect.shipped) {bs : List (Term × Term)}
    (hconditions : ∀ b ∈ bs, b.1.IsScanned d) (hresults : ∀ b ∈ bs, b.2.IsScanned d) :
    ScansBehind d (Fragment.allSigns (branchFragments d bs)) (branchSymbols d bs) := by
  have hquotes := Dialect.hasPlainQuotes_of_shipped hd
  induction bs with
  | nil => exact ScansBehind.nil
  | cons b bs ih =>
    obtain ⟨condition, result⟩ := b
    have hrest := ih (fun b hb => hconditions b (List.mem_cons_of_mem _ hb))
      fun b hb => hresults b (List.mem_cons_of_mem _ hb)
    have hcondition : condition.IsScanned d := hconditions _ List.mem_cons_self
    have hresult : result.IsScanned d := hresults _ List.mem_cons_self
    have hwhen : ScansBehind d _ ([Symbol.word "WHEN"] ++ _) :=
      behind_text (s := " WHEN ") hd rfl rfl (by decide) hcondition
    have hthen : ScansBehind d _ ([Symbol.word "THEN"] ++ _) :=
      behind_text (s := " THEN ") hd rfl rfl (by decide) hresult
    have hall := hwhen.append hquotes (hthen.append hquotes hrest)
    simpa [branchFragments, branchSymbols, Fragment.signs] using hall

theorem scansBehind_direction (hd : d ∈ Dialect.shipped) (descending : Bool) :
    ScansBehind d (Fragment.allSigns (orderMark descending)) (directionSymbols descending) := by
  cases descending with
  | false => exact ScansBehind.nil
  | true =>
    have hall : ScansBehind d _ ([] ++ _) :=
      behind_text (s := " ") hd rfl rfl (by decide) (scans_word hd "DESC" (by decide))
    simpa [orderMark, directionSymbols, Fragment.signs, Sign.ofText] using hall

theorem scans_order (hd : d ∈ Dialect.shipped) {os : List (Term × Bool)}
    (h : ∀ b ∈ os, b.1.IsScanned d) :
    Scans d (Fragment.allSigns (orderFragments d os)) (orderSymbols d os) := by
  have hquotes := Dialect.hasPlainQuotes_of_shipped hd
  induction os with
  | nil => exact scans_nil
  | cons b os ih =>
    obtain ⟨t, descending⟩ := b
    have ht : t.IsScanned d := h _ List.mem_cons_self
    have hdirection := scansBehind_direction hd descending
    cases os with
    | nil => simpa [orderFragments, orderSymbols] using ht.append_behind hquotes hdirection
    | cons u us =>
      have hrest := ih fun s hs => h s (List.mem_cons_of_mem _ hs)
      have hcomma : ScansBehind d _ ([Symbol.mark ","] ++ _) :=
        behind_text (s := ", ") hd rfl rfl (by decide) hrest
      have hall := ht.append_behind hquotes (hdirection.append hquotes hcomma)
      simpa [orderFragments, orderSymbols, Fragment.signs] using hall

/-- What stands between the parentheses of a numbering of rows. -/
theorem scans_window (hd : d ∈ Dialect.shipped) {partition : List Term}
    {order : List (Term × Bool)} (hpartition : ∀ t ∈ partition, t.IsScanned d)
    (horder : ∀ b ∈ order, b.1.IsScanned d) :
    Scans d
      (Fragment.allSigns (if partition.isEmpty then []
        else .text "PARTITION BY " :: listFragments d partition) ++
      Fragment.allSigns (if order.isEmpty then []
        else .text (if partition.isEmpty then "ORDER BY " else " ORDER BY ") ::
          orderFragments d order))
      ((if partition.isEmpty then []
        else .word "PARTITION" :: .word "BY" :: listSymbols d partition) ++
      if order.isEmpty then [] else .word "ORDER" :: .word "BY" :: orderSymbols d order) := by
  have hpartitions := scans_list hd hpartition
  have horders := scans_order hd horder
  have hby : Settles d (Sign.ofText "PARTITION BY ") [.word "PARTITION", .word "BY"] :=
    settles_text hd (by decide)
  cases partition with
  | nil =>
    cases order with
    | nil => exact scans_nil
    | cons b os =>
      have hfirst : Settles d (Sign.ofText "ORDER BY ") [.word "ORDER", .word "BY"] :=
        settles_text hd (by decide)
      simpa [Fragment.signs] using hfirst.append_scans horders
  | cons t ts =>
    have hleft := hby.append_scans hpartitions
    cases order with
    | nil => simpa [Fragment.signs] using hleft
    | cons b os =>
      have hnext : ScansBehind d _ ([Symbol.word "ORDER", .word "BY"] ++ _) :=
        behind_text (s := " ORDER BY ") hd rfl rfl (by decide) horders
      simpa [Fragment.signs] using
        hleft.append_behind (Dialect.hasPlainQuotes_of_shipped hd) hnext

/-! ### Scanning a term -/

/-- **A rendered term is scanned as its symbols.** -/
theorem scans_fragments (hd : d ∈ Dialect.shipped) (t : Term) : t.IsScanned d := by
  have hquotes := Dialect.hasPlainQuotes_of_shipped hd
  unfold IsScanned
  induction Forall.of_forall (fun _ => trivial) t (P := fun _ => True) with
  | column =>
    simpa [fragments, symbols, Fragment.signs] using scans_qualified hd _ (scans_quote d _)
  | @constant v =>
    have hnull := scans_word hd "NULL" (by decide)
    have hvalue : Scans d [.value v] [.value v] := ⟨[], _, rfl, rfl, rfl⟩
    cases hv : v.isNull <;> simpa [fragments, symbols, Fragment.signs, hv]
  | @argument list => cases list <;> exact ⟨[], _, rfl, rfl, rfl⟩
  | @operation left right op _ _ _ hleft hright =>
    have hbehind := (settles_operator hd op).behind (head?_operator op) rfl
      (scans_wrap hd (wrapsRight op right) hright)
    have hall := (scans_wrap hd (left.needsParens op false) hleft).append_behind hquotes hbehind
    simpa [fragments, symbols, Fragment.signs] using hall
  | @unary op operand _ _ ih =>
    have hall := (settles_unary hd op).append_scans (scans_wrap hd operand.priority?.isSome ih)
    simpa [fragments, symbols, Fragment.signs] using hall
  | @call f distinct args _ _ ih =>
    have hargs : Scans d
        (Fragment.allSigns (if args.isEmpty then [.text "*"] else listFragments d args))
        (if args.isEmpty then [.mark "*"] else listSymbols d args) := by
      cases args with
      | nil =>
        have hstar : Settles d (Sign.ofText "*") [.mark "*"] := settles_text hd (by decide)
        exact hstar.scans
      | cons t ts => exact scans_list hd ih
    have hall := (settles_call hd f distinct).append_scans
      (hargs.append_behind hquotes (scansBehind_parenthesis hd))
    simpa [fragments, symbols, Fragment.signs] using hall
  | case _ _ _ _ _ hoperand hconditions hresults hotherwise =>
    have hcase := scans_word hd "CASE" (by decide)
    have hoperands : ScansBehind d _ (optionSymbols d [] _) :=
      scansBehind_option hd " " rfl (by decide) hoperand
    have helse : ScansBehind d _ (optionSymbols d [.word "ELSE"] _) :=
      scansBehind_option hd " ELSE " rfl (by decide) hotherwise
    have hend := scansBehind_end hd
    have hall := hcase.append_behind hquotes <| hoperands.append hquotes <|
      (scansBehind_branches hd hconditions hresults).append hquotes <| helse.append hquotes hend
    simpa [fragments, symbols, Fragment.signs] using hall
  | cond _ _ _ _ hcondition hyes hno =>
    have hwhen : Settles d (Sign.ofText "CASE WHEN ") [.word "CASE", .word "WHEN"] :=
      settles_text hd (by decide)
    have hthen : ScansBehind d _ ([Symbol.word "THEN"] ++ _) :=
      behind_text (s := " THEN ") hd rfl rfl (by decide) hyes
    have helse : ScansBehind d _ ([Symbol.word "ELSE"] ++ _) :=
      behind_text (s := " ELSE ") hd rfl rfl (by decide) hno
    have hall := hwhen.append_scans <| hcondition.append_behind hquotes <|
      hthen.append hquotes <| helse.append hquotes (scansBehind_end hd)
    simpa [fragments, symbols, Fragment.signs] using hall
  | @cast operand target _ _ ih =>
    have hcast : Settles d (Sign.ofText "CAST(") [.word "CAST", .mark "("] :=
      settles_text hd (by decide)
    have has : ScansBehind d _ ([Symbol.word "AS"] ++ _) :=
      behind_text (s := " AS ") hd rfl rfl (by decide) (scans_nativeType hd target)
    have hall := hcast.append_scans <| ih.append_behind hquotes <|
      has.append hquotes (scansBehind_parenthesis hd)
    simpa [fragments, symbols, Fragment.signs, toString] using hall
  | tuple _ _ ih =>
    have hopen : Settles d (Sign.ofText "(") [.mark "("] := settles_text hd (by decide)
    have hall := hopen.append_scans <|
      (scans_list hd ih).append_behind hquotes (scansBehind_parenthesis hd)
    simpa [fragments, symbols, Fragment.signs] using hall
  | @named operand name _ _ ih =>
    have has : ScansBehind d _ ([Symbol.word "AS"] ++ _) :=
      behind_text (s := " AS ") hd rfl rfl (by decide) (scans_quote d name)
    have hall := ih.append_behind hquotes has
    simpa [fragments, symbols, Fragment.signs] using hall
  | @all qualifier =>
    have hstar : Settles d (Sign.ofText "*") [.mark "*"] := settles_text hd (by decide)
    have hall := scans_qualified hd qualifier hstar.scans
    simpa [fragments, symbols, Fragment.signs] using hall
  | @rowNumber partition order _ _ _ hpartition horder =>
    have hopen : Settles d (Sign.ofText "ROW_NUMBER() OVER (")
        [.word "ROW_NUMBER", .mark "(", .mark ")", .word "OVER", .mark "("] :=
      settles_text hd (by decide)
    have hall := hopen.append_scans <|
      (scans_window hd hpartition horder).append_behind hquotes (scansBehind_parenthesis hd)
    simpa [fragments, symbols, Fragment.signs] using hall
  | @paging limit offset ordered =>
    have hall := (plain_paging hd limit offset ordered).scans hquotes
    simpa [fragments, symbols, Fragment.signs] using hall

/-! ### The symbols of a term are plain -/

theorem plain_name (a : String) : Symbol.name a ≠ .illegal ∧ (Symbol.name a).marker? = none :=
  ⟨by simp, rfl⟩

theorem plain_wrapSymbols (wanted : Bool) {xs : List Symbol} (h : Plain xs) :
    Plain (wrapSymbols wanted xs) := by
  cases wanted with
  | false => exact h
  | true => exact (h.append (.cons (by decide) .nil)).cons (by decide)

theorem plain_operatorSymbols (op : Operator) : Plain (operatorSymbols op) := by
  cases op with
  | isNot => exact .cons (by decide) (.cons (by decide) .nil)
  | _ => exact .cons (by decide) .nil

theorem plain_qualifierSymbols (qualifier : Option String) : Plain (qualifierSymbols qualifier) := by
  cases qualifier with
  | none => exact .nil
  | some a => exact .cons (plain_name a) (.cons (by decide) .nil)

theorem plain_listSymbols {ts : List Term} (h : ∀ t ∈ ts, Plain (t.symbols d)) :
    Plain (listSymbols d ts) := by
  induction ts with
  | nil => exact .nil
  | cons t ts ih =>
    obtain ⟨ht, hts⟩ := List.forall_mem_cons.mp h
    cases ts with
    | nil => exact ht
    | cons u us => exact ht.append (.cons (by decide) (ih hts))

theorem plain_optionSymbols {keyword : List Symbol} (hkeyword : Plain keyword) {o : Option Term}
    (h : ∀ t ∈ o, Plain (t.symbols d)) : Plain (optionSymbols d keyword o) := by
  cases o with
  | none => exact .nil
  | some t => exact hkeyword.append (h t rfl)

theorem plain_branchSymbols {bs : List (Term × Term)}
    (hconditions : ∀ b ∈ bs, Plain (b.1.symbols d)) (hresults : ∀ b ∈ bs, Plain (b.2.symbols d)) :
    Plain (branchSymbols d bs) := by
  induction bs with
  | nil => exact .nil
  | cons b bs ih =>
    obtain ⟨hcondition, hconditions⟩ := List.forall_mem_cons.mp hconditions
    obtain ⟨hresult, hresults⟩ := List.forall_mem_cons.mp hresults
    exact .cons (by decide) (hcondition.append (.cons (by decide)
      (hresult.append (ih hconditions hresults))))

theorem plain_orderSymbols {os : List (Term × Bool)} (h : ∀ b ∈ os, Plain (b.1.symbols d)) :
    Plain (orderSymbols d os) := by
  have hdirection : ∀ descending, Plain (directionSymbols descending) := by
    intro descending
    cases descending with
    | false => exact .nil
    | true => exact .cons (by decide) .nil
  induction os with
  | nil => exact .nil
  | cons b os ih =>
    obtain ⟨hb, hos⟩ := List.forall_mem_cons.mp h
    cases os with
    | nil => exact hb.append (hdirection _)
    | cons u us => exact hb.append ((hdirection _).append (.cons (by decide) (ih hos)))

/-- **No symbol of a term is a marker**: its text has none until values are written into it. -/
theorem plain_symbols (hd : d ∈ Dialect.shipped) (t : Term) : Plain (t.symbols d) := by
  have hquotes := Dialect.hasPlainQuotes_of_shipped hd
  induction Forall.of_forall (fun _ => trivial) t (P := fun _ => True) with
  | @column qualifier name =>
    exact (plain_qualifierSymbols qualifier).append (.cons (plain_name name) .nil)
  | @constant v =>
    rw [symbols]
    split
    · exact .cons (by decide) .nil
    · exact .cons ⟨by simp, rfl⟩ .nil
  | argument => exact .cons ⟨by simp, rfl⟩ .nil
  | @operation left right op _ _ _ hleft hright =>
    exact (plain_wrapSymbols _ hleft).append
      ((plain_operatorSymbols op).append (plain_wrapSymbols _ hright))
  | @unary op operand _ _ ih =>
    exact .cons (by cases op <;> decide) (plain_wrapSymbols _ ih)
  | @call f distinct args _ _ ih =>
    have hdistinct : Plain (if distinct then [.word "DISTINCT"] else []) := by
      cases distinct with
      | false => exact .nil
      | true => exact .cons (by decide) .nil
    have hargs : Plain (if args.isEmpty then [.mark "*"] else listSymbols d args) := by
      split
      · exact .cons (by decide) .nil
      · exact plain_listSymbols ih
    exact .append (.cons (by cases f <;> decide) (.cons (by decide) hdistinct))
      (hargs.append (.cons (by decide) .nil))
  | case _ _ _ _ _ hoperand hconditions hresults hotherwise =>
    exact .cons (by decide) ((plain_optionSymbols .nil hoperand).append
      ((plain_branchSymbols hconditions hresults).append
        ((plain_optionSymbols (.cons (by decide) .nil) hotherwise).append (.cons (by decide) .nil))))
  | cond _ _ _ _ hcondition hyes hno =>
    exact .cons (by decide) (.cons (by decide) (hcondition.append (.cons (by decide)
      (hyes.append (.cons (by decide) (hno.append (.cons (by decide) .nil)))))))
  | @cast operand target _ _ ih =>
    exact .cons (by decide) (.cons (by decide) (ih.append (.cons (by decide)
      (((plain_nativeType hd target).plain_symbols hquotes).append (.cons (by decide) .nil)))))
  | tuple _ _ ih =>
    exact .cons (by decide) ((plain_listSymbols ih).append (.cons (by decide) .nil))
  | @named operand name _ _ ih =>
    exact ih.append (.cons (by decide) (.cons (plain_name name) .nil))
  | @all qualifier => exact (plain_qualifierSymbols qualifier).append (.cons (by decide) .nil)
  | @rowNumber partition order _ _ _ hpartition horder =>
    have hfirst : Plain (if partition.isEmpty then []
        else .word "PARTITION" :: .word "BY" :: listSymbols d partition) := by
      split
      · exact .nil
      · exact .cons (by decide) (.cons (by decide) (plain_listSymbols hpartition))
    have hsecond : Plain (if order.isEmpty then []
        else .word "ORDER" :: .word "BY" :: orderSymbols d order) := by
      split
      · exact .nil
      · exact .cons (by decide) (.cons (by decide) (plain_orderSymbols horder))
    have hhead : Plain [.word "ROW_NUMBER", .mark "(", .mark ")", .word "OVER", .mark "("] := by
      decide
    exact hhead.append (hfirst.append (hsecond.append (.cons (by decide) .nil)))
  | @paging limit offset ordered =>
    exact (plain_paging hd limit offset ordered).plain_symbols hquotes

end Term

end EntitySql
