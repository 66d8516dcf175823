import EntitySql.Database.Catalog
import EntitySql.Proofs.Database.Extending
import EntitySql.Proofs.Database.Grouped
import EntitySql.Proofs.Database.Scanning
import EntitySql.Proofs.Database.Storage

/-!
# Queries with a limit

The limit of a query is looked at when everything else is in order, and what it leaves are rows of
the query without it. So a query that is answered is also answered with a limit, by the rows of the
page that it stands for, if only the limit is an integer. That is so with every scan: the page and
all rows are compared as they come in the same order, whichever it is.

A numeral is an integer below `2 ^ 63`. From there on it is a real number, and no real number of
that size is taken for an integer: a limit that is written with such a numeral is refused. That
holds of an offset too, unless no row is wanted anyway.

## Main definitions

* `Page`: the rows that are wanted of a result
* `Page.tokens`: how a page is written behind `LIMIT`
* `Page.Fits`: the numerals of a page are integers

## Main results

* `Page.getElem?_cut`: the rows of a page by their positions
* `Page.bounds_tokens`: how the end of a query is read
* `Query.runBy_paged`: what a query answers with a limit
* `Database.answerBy_paged`: what a database does
-/

namespace EntitySql

open Token

/-- The rows that are wanted of a result: at most so many, behind so many that are skipped. -/
structure Page where
  /-- The greatest number of rows. -/
  limit : Option UInt64
  /-- The number of rows skipped. -/
  offset : Option UInt64
deriving DecidableEq, Inhabited, Repr

namespace Page

/-- The number of rows skipped. -/
def skipped (p : Page) : Nat := (p.offset.map UInt64.toNat).getD 0

/-- The rows of a page among all rows. -/
def cut {α : Type} (p : Page) (rows : List α) : List α :=
  match p.limit with
  | none => rows.drop p.skipped
  | some l => (rows.drop p.skipped).take l.toNat

/-- The numbers of a page are integers of 64 bits with a sign. Where no row is wanted, the number of
rows skipped may be any. -/
def Fits (p : Page) : Prop :=
  (∀ l ∈ p.limit, l.toNat < 2 ^ 63) ∧ (p.limit = some 0 ∨ p.skipped < 2 ^ 63)

instance (p : Page) : Decidable p.Fits :=
  decidable_of_iff
    (p.limit.all (·.toNat < 2 ^ 63) = true ∧ (p.limit = some 0 ∨ p.skipped < 2 ^ 63))
    (and_congr_left' (by simp [Option.all_eq_true]))

/-- **The rows of a page by their positions.** -/
theorem getElem?_cut {α : Type} (p : Page) (rows : List α) (i : Nat) :
    (p.cut rows)[i]? = if p.limit.all (i < ·.toNat) then rows[p.skipped + i]? else none := by
  unfold cut
  cases p.limit with
  | none => simp
  | some l => simp [List.getElem?_take]

end Page

/-- The datum of a numeral without a sign. -/
def Datum.counted (n : Nat) : Datum := .ofNumeral ⟨false, n, 0, true⟩

/-- A numeral behind a blank. -/
def Token.ofNat (n : Nat) : Token := ofNumeral " " (Nat.toDigits 10 n)

/-! ### Numerals -/

namespace Datum

theorem counted_of_lt {n : Nat} (h : n < 2 ^ 63) : counted n = .int (Int64.ofNat n) := by
  have hint : int64? n = some (Int64.ofInt n) := by
    rw [int64?, if_pos (by omega)]
  have hcounted : counted n = .int (Int64.ofInt n) := by
    simp [counted, ofNumeral, Numeral.toInt, hint]
  rw [hcounted, Int64.ofInt_eq_ofNat]

/-- A numeral that is too long is a real number that is too long. -/
theorem preferInt_counted {n : Nat} (hlow : 2 ^ 63 ≤ n) (hhigh : n < 2 ^ 64) :
    (counted n).readNumber.preferInt = .real (.ofInt n) := by
  have hread : (text (toString n)).readNumber = counted n := by
    rw [readNumber, Numeral.readAll_repr]
    rfl
  have hagain : (counted n).readNumber = counted n := by
    unfold counted ofNumeral
    split
    · split <;> rfl
    · rfl
  have hstore := Scalar.store_long hlow hhigh
  rw [Affinity.store, hread] at hstore
  rwa [hagain]

end Datum

namespace Reading

/-- Digits are read as their number. -/
theorem numberDatum_digits (negative : Bool) (n : Nat) :
    numberDatum negative (Nat.toDigits 10 n) = .ofNumeral ⟨negative, n, 0, true⟩ := by
  have hdigits := isDigit_toDigits n
  have hvalue : Numeral.ofDigits (Nat.toDigits 10 n) = n := Nat.ofDigitChars_ten_toDigits
  have hne : Nat.toDigits 10 n ≠ [] := Nat.toDigits_ne_nil
  generalize Nat.toDigits 10 n = ds at hdigits hvalue hne
  obtain ⟨htake, hdrop⟩ := @span_digits _ [] hdigits (by simp)
  rw [List.append_nil] at htake hdrop
  have hread : Numeral.readUnsigned negative ds = some (⟨negative, n, 0, true⟩, []) := by
    simp [Numeral.readUnsigned, htake, hdrop, hne, Numeral.readFraction, Numeral.readPower, hvalue]
  have hdecimal : numberDatum.decimal negative ds = .ofNumeral ⟨negative, n, 0, true⟩ := by
    rw [numberDatum.decimal, hread]
  unfold numberDatum
  split
  · next x rest =>
    have hx : x.isDigit = true := hdigits x (by simp)
    have hletter : (x == 'x' || x == 'X') = false := by
      simp [ne_of_isDigit hx (b := 'x') rfl, ne_of_isDigit hx (b := 'X') rfl]
    rw [hletter]
    exact hdecimal
  · exact hdecimal

/-! ### Reading a limit -/

/-- The offset does not belong to the limit. -/
theorem closes_offset (least : Nat) (us : List Token) :
    Closes least (ofWord " " "OFFSET" :: us) := by
  have hnone : operator? (ofWord " " "OFFSET" :: us) = none := operator?_word (by decide) us
  refine ⟨by simp, ?_, fun op negated count hop => ?_⟩
  · have hoffset : (ofWord " " "OFFSET").isWord "ISNULL" = false ∧
        (ofWord " " "OFFSET").isWord "NOTNULL" = false := by decide
    simpa using hoffset
  · simp [hnone] at hop

/-- An operand that is all of an expression. -/
theorem run_phrase_of_operand {ts us : List Token} {p : Phrase} {k : Nat} (hus : Closes 0 us)
    (h : ∀ fuel, (operand (fuel + 2)).run ⟨ts ++ us, k⟩ = .ok (p, ⟨us, k⟩)) :
    phrase.run ⟨ts ++ us, k⟩ = .ok (p, ⟨us, k⟩) := by
  obtain ⟨fuel, hfuel⟩ : ∃ fuel, 4 * (ts ++ us).length + 4 = fuel + 3 := ⟨_, rfl⟩
  have hclimb := run_climb_of_closes hus (fuel + 1) p k
  simp only [phrase, StateT.run_bind, run_left, ok_bind, hfuel]
  rw [expression, StateT.run_bind, h]
  exact hclimb

/-- A numeral is read as its number. -/
theorem run_phrase_number {us : List Token} (hus : Closes 0 us) (n k : Nat) :
    phrase.run ⟨Token.ofNat n :: us, k⟩ = .ok (.datum (.counted n), ⟨us, k⟩) := by
  refine @run_phrase_of_operand [Token.ofNat n] us _ k hus fun fuel => ?_
  simp [operand, Token.ofNat, ofNumeral, numberDatum_digits, Datum.counted]

/-- So is one with a sign. -/
theorem run_phrase_negative {us : List Token} (hus : Closes 0 us) (k : Nat) :
    phrase.run ⟨ofMark " " '-' :: ofNumeral "" ['1'] :: us, k⟩ =
      .ok (.datum (.int (-1)), ⟨us, k⟩) := by
  refine @run_phrase_of_operand [ofMark " " '-', ofNumeral "" ['1']] us _ k hus fun fuel => ?_
  have hone : numberDatum true ['1'] = .int (-1) := numberDatum_digits true 1
  have hminus : (ofMark " " '-').isSymbol "(" = false ∧ (ofMark " " '-').isSymbol "-" = true := by
    decide
  simp [operand, symbolOperand, hminus, ofNumeral, hone]

end Reading

namespace Page

/-! ### The text of a page -/

/-- The tokens of a limit; `-1` is none. -/
def limitTokens (p : Page) : List Token :=
  match p.limit with
  | none => [ofMark " " '-', ofNumeral "" ['1']]
  | some l => [Token.ofNat l.toNat]

/-- What the tokens of a limit stand for. -/
def limitDatum (p : Page) : Datum :=
  match p.limit with
  | none => .int (-1)
  | some l => .counted l.toNat

/-- The tokens behind `LIMIT`. -/
def tokens (p : Page) : List Token :=
  match p.offset with
  | none => p.limitTokens
  | some o => p.limitTokens ++ [ofWord " " "OFFSET", Token.ofNat o.toNat]

/-- What the tokens of an offset stand for. -/
def offsetDatum? (p : Page) : Option Datum := p.offset.map fun o => .counted o.toNat

theorem run_phrase_limitTokens (p : Page) {us : List Token} (hus : Reading.Closes 0 us) (k : Nat) :
    Reading.phrase.run ⟨p.limitTokens ++ us, k⟩ = .ok (.datum p.limitDatum, ⟨us, k⟩) := by
  unfold limitTokens limitDatum
  cases p.limit with
  | none => exact Reading.run_phrase_negative hus k
  | some l => exact Reading.run_phrase_number hus l.toNat k

/-- **The end of a query that asks for a page.** -/
theorem bounds_tokens (p : Page) :
    Reading.Bounds p.tokens (.datum p.limitDatum) (p.offsetDatum?.map .datum) := by
  unfold tokens offsetDatum?
  cases p.offset with
  | none =>
    refine ⟨[], fun m => ?_, fun m => rfl⟩
    simpa using p.run_phrase_limitTokens (Reading.closes_nil 0) m
  | some o =>
    refine ⟨[ofWord " " "OFFSET", Token.ofNat o.toNat], fun m => ?_, fun m => ?_⟩
    · exact p.run_phrase_limitTokens (Reading.closes_offset 0 _) m
    · have hword : (ofWord " " "OFFSET").isWord "OFFSET" = true := by decide
      have hnumber := Reading.run_phrase_number (Reading.closes_nil 0) o.toNat m
      simp [Reading.behind, hword, hnumber]

/-! ### The numbers of a page -/

theorem bound_counted {n : Nat} (hn : n < 2 ^ 64) :
    Query.bound (.datum (.counted n)) = if n < 2 ^ 63 then .ok (n : Int) else .error .mismatch := by
  simp only [Query.bound, Formula.eval, Reading.ok_bind]
  by_cases h : n < 2 ^ 63
  · have hread : (Datum.counted n).readNumber.preferInt = .int (Int64.ofNat n) := by
      rw [Datum.counted_of_lt h]
      rfl
    rw [hread, if_pos h, ← Int64.toInt_ofNat_of_lt h]
    rfl
  · rw [Datum.preferInt_counted (Nat.le_of_not_lt h) hn, if_neg h]
    rfl

theorem bound_negative : Query.bound (.datum (.int (-1))) = .ok (-1) := rfl

/-- The window of a page, if no number in it is too long. -/
def window (p : Page) : Option Nat × Nat :=
  if p.limit = some 0 then (some 0, 0) else (p.limit.map UInt64.toNat, p.skipped)

/-- The window with a limit that is known. -/
def windowBehind (limit : Option Nat) : Option Formula → Except Fault (Option Nat × Nat)
  | none => .ok (limit, 0)
  | some f =>
    if limit = some 0 then .ok (limit, 0) else do return (limit, (← Query.bound f).toNat)

theorem window_of_bound {f : Formula} {k : Int} (hf : Query.bound f = .ok k) (o : Option Formula) :
    Query.window (some f) o = windowBehind (if k < 0 then none else some k.toNat) o := by
  rw [Query.window, hf]
  cases o <;> rfl

theorem limit_eq_zero_iff (p : Page) :
    p.limit.map UInt64.toNat = some 0 ↔ p.limit = some 0 := by
  cases p.limit <;> simp [← UInt64.toNat_inj]

/-- An offset is not looked at where no row is wanted. -/
theorem windowBehind_datum (p : Page) :
    windowBehind (p.limit.map UInt64.toNat) (p.offsetDatum?.map .datum) =
      if p.limit = some 0 ∨ p.skipped < 2 ^ 63 then .ok p.window else .error .mismatch := by
  have hzero := p.limit_eq_zero_iff
  obtain ⟨limit, offset⟩ := p
  by_cases hlimit : limit = some 0
  · subst hlimit
    cases offset <;> simp [windowBehind, offsetDatum?, window]
  · have hnat : limit.map UInt64.toNat ≠ some 0 := fun h => hlimit (hzero.mp h)
    cases offset with
    | none => simp [windowBehind, offsetDatum?, window, skipped, hlimit]
    | some o =>
      have hbound := bound_counted o.toNat_lt
      by_cases ho : o.toNat < 2 ^ 63
      · rw [if_pos ho] at hbound
        simp [windowBehind, offsetDatum?, window, skipped, hlimit, hnat, hbound, ho, pure,
          Except.pure, -Nat.reducePow]
      · rw [if_neg ho] at hbound
        simp [windowBehind, offsetDatum?, skipped, hlimit, hnat, hbound, ho, -Nat.reducePow]

/-- **The window that is read from a page.** -/
theorem window_datums (p : Page) :
    Query.window (some (.datum p.limitDatum)) (p.offsetDatum?.map .datum) =
      if p.Fits then .ok p.window else .error .mismatch := by
  have hbehind := p.windowBehind_datum
  cases hlimit : p.limit with
  | none =>
    rw [hlimit] at hbehind
    simpa [limitDatum, Fits, hlimit, window_of_bound bound_negative] using hbehind
  | some l =>
    rw [hlimit] at hbehind
    have hbound := bound_counted l.toNat_lt
    by_cases hl : l.toNat < 2 ^ 63
    · rw [if_pos hl] at hbound
      have hsign : ¬ (l.toNat : Int) < 0 := Int.not_lt.mpr (Int.natCast_nonneg _)
      simpa [limitDatum, Fits, hlimit, hl, window_of_bound hbound, hsign, -Nat.reducePow]
        using hbehind
    · rw [if_neg hl] at hbound
      simp [limitDatum, Fits, hlimit, hl, Query.window, hbound, -Nat.reducePow]

end Page

/-! ### Answers -/

/-- Whatever the first of two computations gives, the second one is as it says. -/
def Decides {α : Type} (R : α → Except Fault α → Prop) (x y : Except Fault α) : Prop :=
  ∀ a, x = .ok a → R a y

namespace Decides

variable {α β : Type} {R : α → Except Fault α → Prop} {x y : Except Fault α}

theorem bind {f g : β → Except Fault α} (z : Except Fault β) (h : ∀ b, Decides R (f b) (g b)) :
    Decides R (z >>= f) (z >>= g) := by
  intro a ha
  obtain ⟨b, rfl, hb⟩ := exists_of_bind_eq_ok ha
  exact h b a hb

theorem ite {c : Prop} [Decidable c] {x' y' : Except Fault α} (h : Decides R x y)
    (h' : Decides R x' y') : Decides R (if c then x else x') (if c then y else y') := by
  split
  · exact h
  · exact h'

theorem throw (fault : Fault) (f : β → Except Fault α) :
    Decides R ((Except.error fault : Except Fault β) >>= f) y := by
  intro a ha
  cases ha

end Decides

namespace Selection

/-- The same selection with another window. -/
def within (s : Selection) (w : Option Nat × Nat) : Selection :=
  { s with limit := w.1, offset := w.2 }

/-- **The rows of a page are rows of all.** -/
theorem runBy_within {scan : TableScan} {s : Selection} (hnone : s.limit = none ∧ s.offset = 0)
    {rows rs : List Record} (h : s.runBy scan rows = .ok rs) (p : Page) :
    (s.within p.window).runBy scan rows = .ok (p.cut rs) := by
  have hrun : Decides (fun rs y => y = .ok (p.cut rs)) (s.runBy scan rows)
      ((s.within p.window).runBy scan rows) := by
    unfold runBy
    rw [if_neg (by simp [hnone.1])]
    by_cases hlimit : p.limit = some 0
    · intro rs _
      rw [if_pos (by simp [within, Page.window, hlimit])]
      simp [Page.cut, hlimit, pure, Except.pure]
    · have hsome : (s.within p.window).limit ≠ some 0 := by
        simpa [within, Page.window, hlimit] using p.limit_eq_zero_iff.not.mpr hlimit
      have hwindow : ∀ rs : List Record, (s.within p.window).window rs = p.cut (s.window rs) := by
        intro rs
        rw [window, window, hnone.1, hnone.2]
        simp only [within, Page.window, hlimit, if_false, Page.cut, List.drop_zero]
        cases p.limit <;> rfl
      rw [if_neg hsome]
      refine Decides.bind (filter s.condition (scan.rows rows)) fun kept => ?_
      refine Decides.bind (s.grouped kept) fun groups => ?_
      obtain ⟨headings, selected, condition, groups, having, order, distinct, limit, offset⟩ := s
      -- with a condition on groups or without, the same is done with the groups that are left
      cases having
      all_goals
        refine Decides.bind _ fun groups => ?_
        refine Decides.bind (List.foldlM _ _ _) fun groups => ?_
        refine Decides.bind (List.mapM _ _) fun keyed => ?_
        rintro rs ⟨⟩
        exact congrArg Except.ok (hwindow _)
  exact hrun rs h

end Selection

namespace Query

/-- The query with the bounds of a page. -/
def paged (q : Query) (p : Page) : Query :=
  { q with limit := some (.datum p.limitDatum), offset := p.offsetDatum?.map .datum }

theorem resolve_paged {q : Query} (hnone : q.limit = none ∧ q.offset = none) {b : Bindings}
    {hs : List Heading} {s : Selection} (h : q.resolve b hs = .ok s) (p : Page) :
    (s.limit = none ∧ s.offset = 0) ∧
      (q.paged p).resolve b hs = if p.Fits then .ok (s.within p.window) else .error .mismatch := by
  have hlimit : Phrase.resolveOption { bindings := b } (some (.datum p.limitDatum)) =
      .ok (some (.datum p.limitDatum)) := rfl
  have hoffset : Phrase.resolveOption { bindings := b } (p.offsetDatum?.map .datum) =
      .ok (p.offsetDatum?.map .datum) := by
    cases p.offsetDatum? <;> rfl
  have hresolve : Decides
      (fun s y => (s.limit = none ∧ s.offset = 0) ∧
        y = if p.Fits then .ok (s.within p.window) else .error .mismatch)
      (q.resolve b hs) ((q.paged p).resolve b hs) := by
    unfold resolve paged
    simp only [hnone.1, hnone.2, hlimit, hoffset, throw_eq_error, Reading.ok_bind]
    rw [Phrase.resolveOption]
    simp only [Reading.ok_bind, p.window_datums]
    repeat' with_reducible first
      | apply Decides.throw
      | apply Decides.ite
      | apply Decides.bind
      | intro _
    all_goals
      rintro s ⟨⟩
      refine ⟨⟨rfl, rfl⟩, ?_⟩
      split <;> rfl
  exact hresolve s h

/-- **The answer to a query with a limit.** It is a page of the answer without it. -/
theorem runBy_paged {scan : TableScan} {q : Query} (hnone : q.limit = none ∧ q.offset = none)
    {b : Bindings} {source r : Relation} (h : q.runBy scan b source = .ok r) (p : Page) :
    (q.paged p).runBy scan b source =
      if p.Fits then .ok ⟨r.headings, p.cut r.rows⟩ else .error .mismatch := by
  obtain ⟨s, hs, hr⟩ := exists_of_bind_eq_ok h
  obtain ⟨rs, hrs, hr⟩ := exists_of_bind_eq_ok hr
  obtain rfl : ⟨s.headings, rs⟩ = r := Except.ok.inj hr
  obtain ⟨hwindow, hpaged⟩ := resolve_paged hnone hs p
  rw [runBy, hpaged]
  split
  · rw [Reading.ok_bind, s.runBy_within hwindow hrs p]
    rfl
  · rfl

end Query

/-- So it is for the tables and views of a database, with the same scans. -/
theorem Database.answerBy_paged {scans : TableScans} {db : Database} {q : Query}
    (hnone : q.limit = none ∧ q.offset = none) {b : Bindings} {r : Relation}
    (h : db.answerBy scans b q = .ok r) (p : Page) :
    db.answerBy scans b (q.paged p) =
      if p.Fits then .ok ⟨r.headings, p.cut r.rows⟩ else .error .mismatch := by
  have hpaged : (q.paged p).source = q.source := rfl
  unfold answerBy at h ⊢
  rw [hpaged]
  cases hsource : q.source with
  | none =>
    rw [hsource] at h
    exact Query.runBy_paged hnone h p
  | some named =>
    rw [hsource] at h
    obtain ⟨source, hrelation, hr⟩ := exists_of_bind_eq_ok h
    simp only [hrelation]
    exact Query.runBy_paged hnone hr p

end EntitySql
