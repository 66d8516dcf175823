import EntitySql.Proofs.Database.Legible
import EntitySql.Proofs.Query.Counting
import EntitySql.Proofs.Query.Faults
import EntitySql.Proofs.Reading.Term

/-!
# Written queries that are continued

A term is written as a legible text: it leaves no quote open, in it is no word `LIMIT` outside of
quotes, and what follows it is read by itself. One thing can go wrong. A sign is written directly in
front of its operand, which is put in parentheses if it has an operator; but a term with a name is
not, and if it begins with a sign then the two signs begin a comment.

## Main definitions

* `Fragment.Writes`, `Fragment.All`: the texts that pieces are written as
* `Term.SignsApart`: no sign stands directly in front of another one
* `Term.IsLegible`: a term that is written as a legible text

## Main results

* `Term.unsigned_fragments`: a term begins with a sign only if its first operand does
* `Term.isLegible`: a term whose signs are apart
-/

namespace EntitySql

open Token (Legible Trails Breaks breaks_cons)

/-! ### The texts of pieces -/

namespace Fragment

/-- The characters that pieces are written as in some call. -/
def Writes (d : Dialect) (fs : List Fragment) (cs : List Char) : Prop :=
  ∃ next args sql params, Renders d next fs args sql params ∧ sql.toList = cs

variable {d : Dialect} {fs gs : List Fragment} {cs : List Char}

theorem Writes.of_nil (h : Writes d [] cs) : cs = [] := by
  obtain ⟨next, args, sql, params, hrenders, rfl⟩ := h
  cases hrenders
  rfl

theorem Writes.of_text {s : String} (h : Writes d (.text s :: fs) cs) :
    ∃ ys, cs = s.toList ++ ys ∧ Writes d fs ys := by
  obtain ⟨next, args, sql, params, hrenders, rfl⟩ := h
  cases hrenders with
  | text s hrest => exact ⟨_, String.toList_append, _, _, _, _, hrest, rfl⟩

theorem Writes.of_append (h : Writes d (fs ++ gs) cs) :
    ∃ xs ys, cs = xs ++ ys ∧ Writes d fs xs ∧ Writes d gs ys := by
  obtain ⟨next, args, sql, params, hrenders, rfl⟩ := h
  have htakes := hrenders.takes.flip
  rw [List.filter_append] at htakes
  have hfirst := (List.forall₂_take_append _ _ _ htakes).flip
  have hsecond := (List.forall₂_drop_append _ _ _ htakes).flip
  obtain ⟨sql₁, params₁, h₁⟩ := exists_renders d next hfirst
  obtain ⟨sql₂, params₂, h₂⟩ := exists_renders d (next + params₁.length) hsecond
  have hall := h₁.append h₂
  rw [List.take_append_drop] at hall
  -- the pieces with these arguments are written in one way
  have hsql : sql = sql₁ ++ sql₂ := hrenders.eq_filled.1.trans hall.eq_filled.1.symm
  exact ⟨_, _, hsql ▸ String.toList_append, ⟨_, _, _, _, h₁, rfl⟩, _, _, _, _, h₂, rfl⟩

/-- Every text that the pieces are written as for the reader of statements has the property. -/
def All (P : List Char → Prop) (fs : List Fragment) : Prop :=
  ∀ cs, Writes .sqlite fs cs → P cs

variable {P Q R : List Char → Prop}

theorem all_nil (h : P []) : All P [] := fun _ hcs => hcs.of_nil ▸ h

theorem All.mono (h : All P fs) (hPQ : ∀ cs, P cs → Q cs) : All Q fs :=
  fun cs hcs => hPQ cs (h cs hcs)

theorem All.behind {s : String} (h : All P fs) (hPQ : ∀ cs, P cs → Q (s.toList ++ cs)) :
    All Q (.text s :: fs) := by
  intro cs hcs
  obtain ⟨ys, rfl, hys⟩ := hcs.of_text
  exact hPQ ys (h ys hys)

theorem All.append (hx : All P fs) (hy : All Q gs)
    (hR : ∀ xs ys, P xs → Q ys → R (xs ++ ys)) : All R (fs ++ gs) := by
  intro cs hcs
  obtain ⟨xs, ys, rfl, hxs, hys⟩ := hcs.of_append
  exact hR xs ys (hx xs hxs) (hy ys hys)

theorem all_text {s : String} (h : P s.toList) : All P [.text s] :=
  (all_nil (P := fun cs => cs = []) rfl).behind fun _ hcs => by rwa [hcs, List.append_nil]

/-- A captured value is a marker, or the word for an absent one. -/
theorem all_captured (v : Value) (hnull : P "NULL".toList) (hmarker : P ['?']) :
    All P [.captured v] := by
  rintro cs ⟨next, args, sql, params, hrenders, rfl⟩
  cases hrenders with
  | null hrest => cases hrest; exact hnull
  | captured hv hrest => cases hrest; simpa [Dialect.sqlite] using hmarker

theorem all_slot (h : P ['?']) : All P [.slot] := by
  rintro cs ⟨next, args, sql, params, hrenders, rfl⟩
  cases hrenders with
  | slot v hrest => cases hrest; simpa [Dialect.sqlite] using h

/-- The markers of a list are divided by commas. -/
theorem all_listSlot (hnull : P "NULL".toList) (hmarker : P ['?'])
    (hmarkers : ∀ cs, P cs → P ('?' :: ',' :: cs)) : All P [.listSlot] := by
  have hnumbered : ∀ n next, P (",".intercalate (numbered .sqlite next (n + 1))).toList := by
    intro n
    induction n with
    | zero => intro next; simpa [numbered, Dialect.sqlite] using hmarker
    | succ n ih =>
      intro next
      have hnext := hmarkers _ (ih (next + 1))
      rw [numbered_succ] at hnext ⊢
      rw [numbered_succ, String.intercalate_cons_cons]
      simpa [Dialect.sqlite] using hnext
  rintro cs ⟨next, args, sql, params, hrenders, rfl⟩
  cases hrenders with
  | empty hrest => cases hrest; exact hnull
  | list hvs hrest =>
    cases hrest
    obtain ⟨n, hn⟩ := Nat.exists_eq_add_of_le' (List.length_pos_iff.mpr hvs)
    rw [hn, String.append_empty]
    exact hnumbered n next

end Fragment

namespace Term

open Fragment (All all_nil all_text)

/-! ### Signs -/

/-- Whether a term is written with a sign at its front. -/
def startsMinus : Term → Bool
  | operation left op _ => !left.needsParens op false && left.startsMinus
  | unary .negate _ => true
  | named operand _ => operand.startsMinus
  | _ => false

/-- Whether the term is not a sign that stands directly in front of another one. -/
def signsApart : Term → Bool
  | unary .negate operand => operand.priority?.isSome || !operand.startsMinus
  | _ => true

/-- No sign in the term stands directly in front of another one. -/
def SignsApart (t : Term) : Prop := t.Forall fun s => s.signsApart = true

/-- The characters do not begin with a sign. -/
def Unsigned (cs : List Char) : Prop := ∀ c ∈ cs.head?, c ≠ '-'

theorem unsigned_append {xs ys : List Char} (hx : Unsigned xs) (hy : Unsigned ys) :
    Unsigned (xs ++ ys) := by
  cases xs with
  | nil => exact hy
  | cons x xs => exact hx

theorem unsigned_cons {c : Char} (hc : c ≠ '-') (cs : List Char) : Unsigned (c :: cs) := by
  simpa [Unsigned] using hc

/-- Pieces that begin with a text that is not empty begin as the text does. -/
theorem unsigned_behind {c : Char} {s : String} (hs : s.toList.head? = some c) (hc : c ≠ '-')
    (fs : List Fragment) : All Unsigned (.text s :: fs) := by
  obtain ⟨tail, htail⟩ := List.head?_eq_some_iff.mp hs
  refine All.behind (P := fun _ => True) (fun _ _ => trivial) fun cs _ => ?_
  rw [htail]
  exact unsigned_cons hc _

theorem head?_quote (name : String) :
    (Dialect.sqlite.quote name).toList.head? = some '"' := by
  simp [Dialect.quote, Dialect.sqlite, Text.Quoted.enclose, Text.Quoted.encloseChars]

theorem toList_operator (op : Operator) :
    s!" {op.sql} ".toList = ' ' :: op.sql.toList ++ [' '] := by
  simp [toString]

theorem unsigned_wrapIf {wanted : Bool} {fs : List Fragment}
    (h : wanted = false → All Unsigned fs) : All Unsigned (wrapIf wanted fs) := by
  cases wanted with
  | false => exact h rfl
  | true => exact unsigned_behind (c := '(') rfl (by decide) _

/-- **A term begins with a sign only if its first operand does.** -/
theorem unsigned_fragments : ∀ t : Term, t.startsMinus = false →
    All Unsigned (t.fragments .sqlite)
  | .column qualifier name, _ => by
    refine unsigned_behind (c := '"') ?_ (by decide) []
    cases qualifier <;> simp [qualifierText, head?_quote]
  | .constant v, _ =>
    Fragment.all_captured v (unsigned_cons (by decide) _) (unsigned_cons (by decide) _)
  | .argument list, _ => by
    cases list with
    | false => exact Fragment.all_slot (unsigned_cons (by decide) _)
    | true =>
      exact Fragment.all_listSlot (unsigned_cons (by decide) _) (unsigned_cons (by decide) _)
        fun _ _ => unsigned_cons (by decide) _
  | .operation left op right, h => by
    have hleft : All Unsigned (wrapIf (left.needsParens op false) (left.fragments .sqlite)) := by
      refine unsigned_wrapIf fun hwrap => unsigned_fragments left ?_
      simpa [startsMinus, hwrap] using h
    have hhead : s!" {op.sql} ".toList.head? = some ' ' := by
      rw [toList_operator]
      rfl
    exact hleft.append (unsigned_behind hhead (by decide) _) fun _ _ => unsigned_append
  | .unary .not operand, _ => unsigned_behind (c := 'N') rfl (by decide) _
  | .unary .negate operand, h => by simp [startsMinus] at h
  | .call function distinct args, _ => by
    obtain ⟨c, hc, hletter⟩ : ∃ c, function.sql.toList.head? = some c ∧ c ≠ '-' := by
      cases function <;> exact ⟨_, rfl, by decide⟩
    have hhead : (function.sql ++ "(" ++ if distinct then "DISTINCT " else "").toList.head? =
        some c := by
      rw [String.toList_append, String.toList_append, List.append_assoc, List.head?_append, hc]
      rfl
    exact unsigned_behind hhead hletter _
  | .case operand branches otherwise, _ => unsigned_behind (c := 'C') rfl (by decide) _
  | .cond condition yes no, _ => unsigned_behind (c := 'C') rfl (by decide) _
  | .cast operand target, _ => unsigned_behind (c := 'C') rfl (by decide) _
  | .tuple items, _ => unsigned_behind (c := '(') rfl (by decide) _
  | .named operand name, h => by
    refine (unsigned_fragments operand h).append
      (unsigned_behind (c := ' ') (by simp) (by decide) _) fun _ _ => unsigned_append
  | .all qualifier, _ => by
    cases qualifier with
    | none => exact unsigned_behind (c := '*') rfl (by decide) []
    | some a =>
      refine unsigned_behind (c := '"') ?_ (by decide) []
      simp [qualifierText, head?_quote]
  | .rowNumber partition order, _ => unsigned_behind (c := 'R') rfl (by decide) _
  | .paging limit offset ordered, _ => by
    have hhead : ∀ {a b : String}, a.toList.head? = some 'L' → (a ++ b).toList.head? = some 'L' := by
      intro a b h
      rw [String.toList_append, List.head?_append, h]
      rfl
    cases limit with
    | none =>
      cases offset with
      | none => exact all_text (by rintro c ⟨⟩)
      | some o => exact unsigned_behind (hhead rfl) (by decide) []
    | some l =>
      cases offset with
      | none => exact unsigned_behind (hhead rfl) (by decide) []
      | some o => exact unsigned_behind (hhead (hhead (hhead rfl))) (by decide) []

/-! ### Terms -/

/-- The term is written as a legible text. -/
def IsLegible (t : Term) : Prop := All Legible (t.fragments .sqlite)

variable {fs gs : List Fragment}

/-- Legible pieces, and what may follow them. -/
theorem legible_append (hx : All Legible fs) (hy : All Trails gs) : All Legible (fs ++ gs) :=
  hx.append hy fun _ _ => Legible.append_trails

theorem trails_append (hx : All Trails fs) (hy : All Trails gs) : All Trails (fs ++ gs) :=
  hx.append hy fun _ _ => Trails.append

theorem trails_nil : All Trails [] := all_nil .nil

/-- Legible pieces behind a keyword with a blank on either side. -/
theorem trails_keyword {w : String} (hw : Token.isQuietWord w = true) {s : String}
    (hs : s.toList = ' ' :: w.toList ++ [' ']) (h : All Legible fs) :
    All Trails (.text s :: fs) := by
  refine h.behind fun cs hcs => ?_
  rw [hs]
  have hall := (hcs.behind_word hw).behind_blank.trails (breaks_cons rfl)
  simpa using hall

/-- So are they behind a clause's two words. -/
theorem trails_by {w : String} (hw : Token.isQuietWord w = true) {s : String}
    (hs : s.toList = ' ' :: w.toList ++ " BY ".toList) (h : All Legible fs) :
    All Trails (.text s :: fs) := by
  refine h.behind fun cs hcs => ?_
  rw [hs, List.append_assoc]
  exact (hcs.behind_by hw).behind_blank.trails (breaks_cons rfl)

/-- A keyword at the end. -/
theorem trails_word {w : String} (hw : Token.isQuietWord w = true) {s : String}
    (hs : s.toList = ' ' :: w.toList) : All Trails [.text s] := by
  refine all_text ?_
  rw [hs]
  exact (Token.legible_word hw).behind_blank.trails (breaks_cons rfl)

theorem trails_comma (h : All Legible fs) : All Trails (.text ", " :: fs) :=
  h.behind fun _ hcs => hcs.behind_blank.item.trails (breaks_cons rfl)

/-- Nothing, or a legible text. -/
def IsInner (cs : List Char) : Prop := cs = [] ∨ Legible cs

/-- Pieces up to a closing parenthesis. -/
theorem legible_applied {s : String} {P : List Char → Prop} (hfs : All P fs)
    (hs : ∀ cs, P cs → Legible (s.toList ++ (cs ++ [')']))) :
    All Legible (.text s :: (fs ++ [.text ")"])) := by
  have hclose : All (fun cs => cs = [')']) [.text ")"] := all_text rfl
  have hinner : All (fun cs => Legible (s.toList ++ cs)) (fs ++ [.text ")"]) := by
    refine hfs.append hclose ?_
    rintro xs ys hxs rfl
    exact hs xs hxs
  exact hinner.behind fun _ hcs => hcs

theorem legible_wrapIf (wanted : Bool) (h : All Legible fs) : All Legible (wrapIf wanted fs) := by
  cases wanted with
  | false => exact h
  | true => exact legible_applied h fun _ hcs => .enclosed (.inr hcs)

theorem legible_qualified (qualifier : Option String) {s : String} {c : Char} {cs : List Char}
    (hs : s.toList = c :: cs) (hc : c.isDigit = false) (h : Legible s.toList) :
    All Legible [.text (qualifierText .sqlite qualifier ++ s)] := by
  refine all_text ?_
  cases qualifier with
  | none => simpa [qualifierText] using h
  | some a =>
    rw [hs] at h
    simpa [qualifierText, Dialect.quote, Dialect.sqlite, hs] using Legible.qualified a hc h

theorem legible_list {ts : List Term} (h : ∀ t ∈ ts, t.IsLegible) (hne : ts ≠ []) :
    All Legible (listFragments .sqlite ts) := by
  induction ts with
  | nil => exact absurd rfl hne
  | cons t ts ih =>
    obtain ⟨ht, hts⟩ := List.forall_mem_cons.mp h
    cases ts with
    | nil => exact ht
    | cons u us => exact legible_append ht (trails_comma (ih hts (List.cons_ne_nil u us)))

theorem legible_order {os : List (Term × Bool)} (h : ∀ o ∈ os, o.1.IsLegible) (hne : os ≠ []) :
    All Legible (orderFragments .sqlite os) := by
  induction os with
  | nil => exact absurd rfl hne
  | cons o os ih =>
    obtain ⟨ho, hos⟩ := List.forall_mem_cons.mp h
    have hmark : All Trails (orderMark o.2) := by
      unfold orderMark
      split
      · exact trails_word (w := "DESC") (by decide) rfl
      · exact trails_nil
    cases os with
    | nil => exact legible_append ho hmark
    | cons p ps =>
      exact legible_append (legible_append ho hmark) (trails_comma (ih hos (List.cons_ne_nil p ps)))

theorem trails_option {w : String} (hw : Token.isQuietWord w = true) {s : String}
    (hs : s.toList = ' ' :: w.toList ++ [' ']) {o : Option Term} (h : ∀ t ∈ o, t.IsLegible) :
    All Trails (optionFragments .sqlite s o) := by
  cases o with
  | none => exact trails_nil
  | some t => exact trails_keyword hw hs (h t rfl)

theorem trails_branches {bs : List (Term × Term)} (h : ∀ b ∈ bs, b.1.IsLegible ∧ b.2.IsLegible) :
    All Trails (branchFragments .sqlite bs) := by
  induction bs with
  | nil => exact trails_nil
  | cons b bs ih =>
    obtain ⟨⟨hcondition, hresult⟩, hbs⟩ := List.forall_mem_cons.mp h
    have hwhen := trails_keyword (w := "WHEN") (s := " WHEN ") (by decide) rfl hcondition
    have hthen := trails_keyword (w := "THEN") (s := " THEN ") (by decide) rfl hresult
    exact trails_append (trails_append hwhen hthen) (ih hbs)

theorem legible_operation {left right : Term} (op : Operator) (hleft : left.IsLegible)
    (hright : right.IsLegible) : (operation left op right).IsLegible := by
  refine legible_append (legible_wrapIf _ hleft) ?_
  refine All.behind (legible_wrapIf (wrapsRight op right) hright) fun cs hcs => ?_
  rw [toList_operator]
  have hall := ((Token.legible_operator op).append hcs.behind_blank (breaks_cons rfl)).trails
    (breaks_cons rfl)
  simpa using hall

/-- A sign stands directly in front of its operand. -/
theorem legible_negate {operand : Term} (hoperand : operand.IsLegible)
    (hapart : (unary .negate operand).signsApart = true) : (unary .negate operand).IsLegible := by
  have hunsigned : All Unsigned (wrapIf operand.priority?.isSome (operand.fragments .sqlite)) := by
    refine unsigned_wrapIf fun hwrap => unsigned_fragments operand ?_
    simpa [signsApart, hwrap] using hapart
  intro cs hcs
  obtain ⟨ys, rfl, hys⟩ := hcs.of_text
  exact Legible.negative (legible_wrapIf _ hoperand ys hys) (hunsigned ys hys)

theorem legible_not {operand : Term} (hoperand : operand.IsLegible) :
    (unary .not operand).IsLegible :=
  (legible_wrapIf operand.priority?.isSome hoperand).behind fun _ hcs =>
    hcs.behind_word (w := "NOT") (by decide)

theorem legible_call (f : Function) (distinct : Bool) {args : List Term}
    (hargs : ∀ t ∈ args, t.IsLegible) : (call f distinct args).IsLegible := by
  have hword : Token.isQuietWord f.sql = true := by cases f <;> decide
  have hlist : All Legible (if args.isEmpty then [.text "*"] else listFragments .sqlite args) := by
    split
    · exact all_text Token.legible_star
    · next hne => exact legible_list hargs (by simpa using hne)
  refine legible_applied hlist fun cs hcs => ?_
  cases distinct with
  | false => simpa using (Legible.enclosed (.inr hcs)).called hword
  | true =>
    have hdistinct := hcs.behind_word (w := "DISTINCT") (by decide)
    simpa using (Legible.enclosed (.inr hdistinct)).called hword

theorem trails_end : All Trails [.text " END"] := trails_word (w := "END") (by decide) rfl

theorem legible_case {operand otherwise : Option Term} {branches : List (Term × Term)}
    (hoperand : ∀ t ∈ operand, t.IsLegible)
    (hbranches : ∀ b ∈ branches, b.1.IsLegible ∧ b.2.IsLegible)
    (hotherwise : ∀ t ∈ otherwise, t.IsLegible) :
    (case operand branches otherwise).IsLegible := by
  have hfirst : All Trails (optionFragments .sqlite " " operand) := by
    cases operand with
    | none => exact trails_nil
    | some t => exact (hoperand t rfl).behind fun _ hcs => hcs.behind_blank.trails (breaks_cons rfl)
  have hcase : All Legible (.text "CASE" :: optionFragments .sqlite " " operand) :=
    hfirst.behind fun _ hcs => (Token.legible_word (w := "CASE") (by decide)).append_trails hcs
  have helse := trails_option (w := "ELSE") (s := " ELSE ") (by decide) rfl hotherwise
  exact legible_append (legible_append (legible_append hcase (trails_branches hbranches)) helse)
    trails_end

theorem legible_cond {condition yes no : Term} (hcondition : condition.IsLegible)
    (hyes : yes.IsLegible) (hno : no.IsLegible) : (cond condition yes no).IsLegible := by
  have hcase : All Legible (.text "CASE WHEN " :: condition.fragments .sqlite) :=
    hcondition.behind fun _ hcs =>
      (hcs.behind_word (w := "WHEN") (by decide)).behind_word (w := "CASE") (by decide)
  have hthen := trails_keyword (w := "THEN") (s := " THEN ") (by decide) rfl hyes
  have helse := trails_keyword (w := "ELSE") (s := " ELSE ") (by decide) rfl hno
  exact legible_append (legible_append (legible_append hcase hthen) helse) trails_end

theorem legible_cast {operand : Term} (hoperand : operand.IsLegible) (target : ColumnType) :
    (cast operand target).IsLegible := by
  have hword : Token.isQuietWord (Sqlite.nativeType target) = true := by
    cases target with
    | custom name => exact (by decide : Token.isQuietWord "TEXT" = true)
    | _ => decide
  have htype : All (fun cs => cs = " AS ".toList ++ (Sqlite.nativeType target).toList ++ [')'])
      [.text s!" AS {Dialect.sqlite.nativeType target none})"] :=
    all_text (by simp [Dialect.sqlite, toString])
  have hinner : All (fun cs => Legible ("CAST(".toList ++ cs))
      (operand.fragments .sqlite ++ [.text s!" AS {Dialect.sqlite.nativeType target none})"]) := by
    refine hoperand.append htype ?_
    rintro xs ys hxs rfl
    have hnamed := ((Token.legible_word hword).behind_word (w := "AS") (by decide)).behind_blank
    have hall := Legible.enclosed (.inr (hxs.append hnamed (breaks_cons rfl)))
    simpa using hall.called (w := "CAST") (by decide)
  exact hinner.behind fun _ hcs => hcs

theorem legible_tuple {items : List Term} (hitems : ∀ t ∈ items, t.IsLegible) :
    (tuple items).IsLegible := by
  refine legible_applied (P := IsInner) ?_ fun _ hcs => .enclosed hcs
  cases items with
  | nil => exact all_nil (.inl rfl)
  | cons t ts => exact (legible_list hitems (List.cons_ne_nil t ts)).mono fun _ => .inr

theorem trails_as (name : String) : All Trails [.text (" AS " ++ Dialect.sqlite.quote name)] := by
  refine all_text ?_
  have hname := (Token.legible_name name).behind_word (w := "AS") (by decide)
  exact String.toList_append ▸ hname.behind_blank.trails (breaks_cons rfl)

theorem legible_named {operand : Term} (hoperand : operand.IsLegible) (name : String) :
    (named operand name).IsLegible :=
  legible_append hoperand (trails_as name)

theorem legible_rowNumber {partition : List Term} {order : List (Term × Bool)}
    (hpartition : ∀ t ∈ partition, t.IsLegible) (horder : ∀ o ∈ order, o.1.IsLegible) :
    (rowNumber partition order).IsLegible := by
  have hrow : ∀ cs, IsInner cs → Legible ("ROW_NUMBER() OVER (".toList ++ (cs ++ [')'])) := by
    intro cs hcs
    have hnumber := (Legible.enclosed (.inl rfl)).called (w := "ROW_NUMBER") (by decide)
    have hover := ((Legible.enclosed hcs).behind_word (w := "OVER") (by decide)).behind_blank
    simpa using hnumber.append hover (breaks_cons rfl)
  refine legible_applied (P := IsInner) ?_ hrow
  cases partition with
  | nil =>
    cases order with
    | nil => exact all_nil (.inl rfl)
    | cons o os =>
      exact (legible_order horder (List.cons_ne_nil o os)).behind fun _ hcs =>
        .inr (hcs.behind_by (w := "ORDER") (by decide))
  | cons t ts =>
    have hparts : All Legible (.text "PARTITION BY " :: listFragments .sqlite (t :: ts)) :=
      (legible_list hpartition (List.cons_ne_nil t ts)).behind fun _ hcs =>
        hcs.behind_by (w := "PARTITION") (by decide)
    refine All.mono (legible_append hparts ?_) fun _ => .inr
    cases order with
    | nil => exact trails_nil
    | cons o os =>
      exact trails_by (w := "ORDER") (s := " ORDER BY ") (by decide) rfl
        (legible_order horder (List.cons_ne_nil o os))

/-- **A term is written as a legible text**, if it is no page of a query and its signs are apart. -/
theorem isLegible {t : Term}
    (h : t.Forall fun s => (∀ l o b, s ≠ .paging l o b) ∧ s.signsApart = true) : t.IsLegible := by
  induction h with
  | @column qualifier name =>
    obtain ⟨tail, htail⟩ := List.head?_eq_some_iff.mp (head?_quote name)
    exact legible_qualified qualifier htail rfl (Token.legible_name name)
  | @constant v => exact Fragment.all_captured v Token.legible_null Token.legible_marker
  | @argument list =>
    cases list with
    | false => exact Fragment.all_slot Token.legible_marker
    | true =>
      refine Fragment.all_listSlot Token.legible_null Token.legible_marker fun cs hcs => ?_
      exact Token.legible_marker.append hcs.item (breaks_cons rfl)
  | operation _ _ _ ihleft ihright => exact legible_operation _ ihleft ihright
  | @unary op operand hnode _ ih =>
    cases op with
    | negate => exact legible_negate ih hnode.2
    | not => exact legible_not ih
  | call _ _ ih => exact legible_call _ _ ih
  | case _ _ _ _ _ ihoperand ihcondition ihresult ihotherwise =>
    exact legible_case ihoperand (fun b hb => ⟨ihcondition b hb, ihresult b hb⟩) ihotherwise
  | cond _ _ _ _ ihcondition ihyes ihno => exact legible_cond ihcondition ihyes ihno
  | cast _ _ ih => exact legible_cast ih _
  | tuple _ _ ih => exact legible_tuple ih
  | named _ _ ih => exact legible_named ih _
  | @all qualifier =>
    exact legible_qualified qualifier (c := '*') rfl rfl Token.legible_star
  | rowNumber _ _ _ ihpartition ihorder => exact legible_rowNumber ihpartition ihorder
  | paging h => exact absurd rfl (h.1 _ _ _)

end Term

end EntitySql
