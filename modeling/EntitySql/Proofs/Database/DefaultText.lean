import EntitySql.Proofs.Database.Yielding
import Mathlib.Data.List.TakeWhile

/-!
# The texts of defaults

A default is written as a literal behind the word `DEFAULT`, except that an expression is written as
it stands. What a column definition needs of that text is that it is a default of its own: it does
not run into what follows it, and reading the default ends where the text ends. Every literal
satisfies this, whatever follows, and of an expression it has to be known.

Not every literal can be read: that of the negative infinity is a sign in front of a word. Then the
whole definition is refused.

## Main definitions

* `IsLiteral`: the tokens of a literal
* `Default.StandsAlone`, `Default.StandsBefore`: a text that is a default of its own

## Main results

* `Double.text_cases`: what the text of a double consists of
* `Default.standsAlone_literal`: the literals of defaults are defaults of their own
-/

namespace EntitySql

open Reading Token

/-! ### Integers -/

theorem isNumeral_digits {ds : List Char} (hne : ds ≠ []) (hds : ∀ c ∈ ds, c.isDigit = true) :
    IsNumeral ds := by
  have hall := IsNumeral.intro ds [] [] hne hds (.inl rfl) (.inl rfl)
  simpa using hall

theorem isDigit_toDigits (n : Nat) : ∀ c ∈ Nat.toDigits 10 n, c.isDigit = true :=
  fun _ hc => Nat.isDigit_of_mem_toDigits (by decide) (by decide) hc

/-! ### Doubles -/

namespace Decimal

/-- The digits of a number that is not zero are digits, and there is one that is not dropped. -/
theorem ofScaled_digits {n : Nat} (hn : 0 < n) (power : Int) :
    (ofScaled n power).digits ≠ [] ∧ ∀ c ∈ (ofScaled n power).digits, c.isDigit = true := by
  have hdigits : (ofScaled n power).digits =
      ((Nat.toDigits 10 n).reverse.dropWhile (· == '0')).reverse := rfl
  rw [hdigits]
  constructor
  · intro hnil
    have hzeros : ∀ c ∈ Nat.toDigits 10 n, c = '0' := by
      intro c hc
      have hdrop : (Nat.toDigits 10 n).reverse.dropWhile (· == '0') = [] := by simpa using hnil
      have hall := List.dropWhile_eq_nil_iff.mp hdrop c (List.mem_reverse.mpr hc)
      simpa using hall
    have hzero : n = 0 := by
      have hall := List.eq_replicate_of_mem hzeros
      rw [← Nat.ofDigitChars_ten_toDigits (n := n), hall, Nat.ofDigitChars_replicate_zero]
      simp
    omega
  · intro c hc
    have hmem : c ∈ (Nat.toDigits 10 n).reverse :=
      List.dropWhile_subset _ (List.mem_reverse.mp hc)
    exact isDigit_toDigits n c (List.mem_reverse.mp hmem)

/-- The lower end of the numbers that round to a positive double is positive. -/
theorem Interval.low_pos {m : Nat} (hm : 0 < m) (q : Int) : 0 < (Interval.of m q).low := by
  have hhalf : (if m = 2 ^ 52 ∧ -1074 < q then 1 else 2) < 4 * m := by
    split <;> omega
  exact Nat.mul_pos (Nat.sub_pos_of_lt hhalf) (Nat.pow_pos (by decide))

theorem scaleDown_pos {n : Nat} (hn : 0 < n) (den : Nat) (power : Int) :
    0 < (scaleDown n den power).1 := by
  rw [scaleDown]
  split
  · exact hn
  · exact Nat.mul_pos hn (Nat.pow_pos (by decide))

/-- Of two neighbours, either one or the other is taken. -/
theorem digits_of_neighbour {lowFits highFits nearer : Prop} [Decidable lowFits]
    [Decidable highFits] [Decidable nearer] {below : Nat} {power : Int} {d : Decimal}
    (hbelow : lowFits → 0 < below)
    (h : (if lowFits ∧ highFits then
        some (ofScaled (if nearer then below else below + 1) power)
      else if lowFits then some (ofScaled below power)
      else if highFits then some (ofScaled (below + 1) power) else none) = some d) :
    d.digits ≠ [] ∧ ∀ c ∈ d.digits, c.isDigit = true := by
  split at h
  · next hfits =>
    obtain rfl := Option.some.inj h
    refine ofScaled_digits ?_ _
    split
    · exact hbelow hfits.1
    · exact Nat.succ_pos _
  · split at h
    · next hfits =>
      obtain rfl := Option.some.inj h
      exact ofScaled_digits (hbelow hfits) _
    · split at h
      · obtain rfl := Option.some.inj h
        exact ofScaled_digits (Nat.succ_pos _) _
      · simp at h

/-- A decimal that rounds to a positive double has digits. -/
theorem Interval.nearest?_digits {i : Interval} (hlow : 0 < i.low) {point : Int} {count : Nat}
    {d : Decimal} (h : i.nearest? point count = some d) :
    d.digits ≠ [] ∧ ∀ c ∈ d.digits, c.isDigit = true := by
  have hscaled := scaleDown_pos hlow i.den (point - count)
  have hbelow : ∀ below den : Nat,
      (scaleDown i.low i.den (point - count)).1 ≤ below * den → 0 < below := by
    intro below den hfits
    refine Nat.pos_of_ne_zero ?_
    rintro rfl
    omega
  cases hclosed : i.closed with
  | true =>
    simp only [nearest?, hclosed, if_true] at h
    exact digits_of_neighbour (fun hfits => hbelow _ _ hfits) h
  | false =>
    simp only [nearest?, hclosed, Bool.false_eq_true, if_false] at h
    exact digits_of_neighbour (fun hfits => hbelow _ _ (Nat.le_of_lt hfits)) h

/-- The shortest decimal has digits, or is written with a point. -/
theorem shortest_digits {m : Nat} (hm : 0 < m) (q : Int) :
    (∀ c ∈ (shortest m q).digits, c.isDigit = true) ∧
      ((shortest m q).digits ≠ [] ∨ (shortest m q).point = 1) := by
  rw [shortest]
  cases hfind : (List.range' 1 17).findSome?
      ((Interval.of m q).nearest? (pointOf (Interval.of m q).value (Interval.of m q).den)) with
  | none => exact ⟨by simp [ofScaled, Nat.toDigits_zero], .inr rfl⟩
  | some d =>
    obtain ⟨count, -, hcount⟩ := List.exists_of_findSome?_eq_some hfind
    obtain ⟨hne, hds⟩ := Interval.nearest?_digits (Interval.low_pos hm q) hcount
    exact ⟨hds, .inl hne⟩

theorem isDigit_zeros (n : Nat) : ∀ c ∈ zeros n, c.isDigit = true := by
  intro c hc
  obtain rfl := List.eq_of_mem_replicate hc
  rfl

/-- A decimal with a point is a numeral. -/
theorem isNumeral_positional {d : Decimal} (hds : ∀ c ∈ d.digits, c.isDigit = true) :
    IsNumeral d.positional := by
  rw [positional]
  split
  · have hfraction : ∀ c ∈ zeros (-d.point).toNat ++ d.digits, c.isDigit = true := by
      intro c hc
      rcases List.mem_append.mp hc with hc | hc
      · exact isDigit_zeros _ c hc
      · exact hds c hc
    have hall := IsNumeral.intro ['0'] ('.' :: (zeros (-d.point).toNat ++ d.digits)) []
      (by simp) (by simp) (.inr ⟨_, rfl, hfraction⟩) (.inl rfl)
    simpa using hall
  · next hpoint =>
    have hpos : 0 < d.point.toNat := by omega
    simp only []
    split
    · next hlength =>
      have hwhole : ∀ c ∈ d.digits ++ zeros (d.point.toNat - d.digits.length),
          c.isDigit = true := by
        intro c hc
        rcases List.mem_append.mp hc with hc | hc
        · exact hds c hc
        · exact isDigit_zeros _ c hc
      have hne : d.digits ++ zeros (d.point.toNat - d.digits.length) ≠ [] := by
        intro hnil
        have hzero := congrArg List.length hnil
        simp only [List.length_append, zeros, List.length_replicate, List.length_nil] at hzero
        omega
      have hall := IsNumeral.intro _ ['.', '0'] [] hne hwhole (.inr ⟨['0'], rfl, by simp⟩) (.inl rfl)
      simpa using hall
    · next hlength =>
      have hwhole : ∀ c ∈ d.digits.take d.point.toNat, c.isDigit = true :=
        fun c hc => hds c (List.mem_of_mem_take hc)
      have hne : d.digits.take d.point.toNat ≠ [] := by
        intro hnil
        have hzero := congrArg List.length hnil
        simp only [List.length_take, List.length_nil] at hzero
        omega
      have hall := IsNumeral.intro _ ('.' :: d.digits.drop d.point.toNat) [] hne hwhole
        (.inr ⟨_, rfl, fun c hc => hds c (List.mem_of_mem_drop hc)⟩) (.inl rfl)
      simpa using hall

/-- The digits of an exponent, with a sign when it is negative. -/
theorem exponent_cases (n : Int) : ∃ sign ds, (toString n).toList = sign ++ ds ∧
    (sign = [] ∨ sign = ['-']) ∧ ds ≠ [] ∧ ∀ c ∈ ds, c.isDigit = true := by
  rw [Int.toString_eq_repr, Int.repr_eq_if]
  split
  · exact ⟨[], Nat.toDigits 10 n.toNat, Nat.toList_repr, .inl rfl, Nat.toDigits_ne_nil,
      isDigit_toDigits _⟩
  · refine ⟨['-'], Nat.toDigits 10 (-n).toNat, ?_, .inr rfl, Nat.toDigits_ne_nil,
      isDigit_toDigits _⟩
    rw [String.toList_append, Nat.toList_repr]
    rfl

/-- A decimal with an exponent is a numeral. -/
theorem isNumeral_scientific {d : Decimal} (hne : d.digits ≠ [])
    (hds : ∀ c ∈ d.digits, c.isDigit = true) : IsNumeral d.scientific := by
  obtain ⟨sign, es, hexponent, hsign, hes, hdigits⟩ := exponent_cases (d.point - 1)
  obtain ⟨c, cs, hcs⟩ := List.exists_cons_of_ne_nil hne
  rw [hcs] at hds
  have hwhole : ∀ b ∈ [c], b.isDigit = true := by
    intro b hb
    exact hds b (by simp_all)
  have hpower : 'e' :: (sign ++ es) = [] ∨ ∃ s ds, 'e' :: (sign ++ es) = 'e' :: (s ++ ds) ∧
      (s = [] ∨ s = ['-']) ∧ ds ≠ [] ∧ ∀ c ∈ ds, c.isDigit = true :=
    .inr ⟨sign, es, rfl, hsign, hes, hdigits⟩
  rw [scientific, hcs, hexponent]
  cases cs with
  | nil => exact IsNumeral.intro [c] [] _ (by simp) hwhole (.inl rfl) hpower
  | cons b bs =>
    have hall := IsNumeral.intro [c] ('.' :: b :: bs) _ (by simp) hwhole
      (.inr ⟨_, rfl, fun x hx => hds x (List.mem_cons_of_mem c hx)⟩) hpower
    simpa using hall

end Decimal

namespace Double

/-- **What the text of a double consists of**: a numeral or one of two words, with or without a
sign. -/
theorem text_cases (x : Double) : ∃ sign body, x.text.toList = sign ++ body ∧
    (sign = [] ∨ sign = ['-']) ∧
    (IsNumeral body ∨ body = "inf".toList ∨ (sign = [] ∧ body = "NaN".toList)) := by
  rw [text]
  split
  · exact ⟨[], _, rfl, .inl rfl, .inr (.inr ⟨rfl, rfl⟩)⟩
  · have hsign : (if x.isNegative then ['-'] else []) = [] ∨
        (if x.isNegative then ['-'] else []) = ['-'] := by
      cases x.isNegative
      · exact .inl rfl
      · exact .inr rfl
    rw [String.toList_ofList]
    split
    · exact ⟨_, _, rfl, hsign, .inr (.inl rfl)⟩
    · next hfinite =>
      split
      · exact ⟨_, _, rfl, hsign, .inl (.intro ['0'] ['.', '0'] [] (by simp) (by simp)
          (.inr ⟨['0'], rfl, by simp⟩) (.inl rfl))⟩
      · next hzero =>
        have hmagnitude : 0 < x.magnitude.1 := by
          rw [magnitude]
          split
          · next hexponent =>
            refine Nat.pos_of_ne_zero fun hfraction => hzero ?_
            simp only at hfraction
            simp [isZero, hexponent, hfraction]
          · exact Nat.lt_of_lt_of_le (by decide : 0 < 2 ^ 52) (Nat.le_add_left _ _)
        obtain ⟨hds, hdigits⟩ := Decimal.shortest_digits hmagnitude x.magnitude.2
        refine ⟨_, _, rfl, hsign, .inl ?_⟩
        split
        · exact Decimal.isNumeral_positional hds
        · next hpoint =>
          refine Decimal.isNumeral_scientific ?_ hds
          rcases hdigits with hne | hone
          · exact hne
          · rw [hone] at hpoint
            exact absurd ⟨by decide, by decide⟩ hpoint

end Double

/-! ### Literals -/

/-- The tokens and the characters of a literal that a blank stands in front of. An infinite number
is written as a word, and so is what is no number. -/
inductive IsLiteral : List Token → List Char → Prop where
  | null : IsLiteral [ofWord " " "NULL"] "NULL".toList
  | numeral {cs : List Char} (h : IsNumeral cs) : IsLiteral [ofNumeral " " cs] cs
  | negative {cs : List Char} (h : IsNumeral cs) :
    IsLiteral [ofMark " " '-', ofNumeral "" cs] ('-' :: cs)
  | infinite : IsLiteral [ofWord " " "inf"] "inf".toList
  | negativeInfinite : IsLiteral [ofMark " " '-', ofWord "" "inf"] ('-' :: "inf".toList)
  | notNumber : IsLiteral [ofWord " " "NaN"] "NaN".toList
  | text (s : String) : IsLiteral [ofLiteral " " s] (textLiteral s).toList
  | emptyBlob : IsLiteral [⟨[' '], ['X', '\'', '\''], .blob []⟩] (blobLiteral []).toList

namespace IsLiteral

variable {ts : List Token} {cs : List Char}

theorem spells (h : IsLiteral ts cs) : Spells ts (' ' :: cs) := by
  have hword : ∀ w : String, isWordText w.toList = true → Spells [ofWord " " w] (' ' :: w.toList) :=
    fun w hw => spells_word isGap_blank hw
  cases h with
  | null => exact hword "NULL" (by decide)
  | numeral h => exact spells_numeral isGap_blank h
  | negative h => exact spells_negative isGap_blank h
  | infinite => exact hword "inf" (by decide)
  | negativeInfinite =>
    exact spells_minus isGap_blank (by decide) (spells_word isGap_empty (w := "inf") (by decide))
  | notNumber => exact hword "NaN" (by decide)
  | text s => exact spells_literal isGap_blank s
  | emptyBlob =>
    exact spells_of_stands fun rest _ => ⟨List.all_eq_true.mp rfl, 'X', ['\'', '\''], rfl,
      fun n => afterGap_of_not_gap rfl (by decide) (by decide) n _, rfl⟩

/-- No semicolon is among the tokens. -/
theorem isSymbol_semicolon (h : IsLiteral ts cs) : ∀ t ∈ ts, t.isSymbol ";" = false := by
  cases h <;> simp [ofNumeral, ofMark, isSymbol]

end IsLiteral

theorem exists_isLiteral_int (n : Int64) : ∃ ts, IsLiteral ts (intLiteral n).toList := by
  rw [intLiteral, Int.toString_eq_repr, Int.repr_eq_if]
  split
  · rw [Nat.toList_repr]
    exact ⟨_, .numeral (isNumeral_digits Nat.toDigits_ne_nil (isDigit_toDigits _))⟩
  · rw [String.toList_append, Nat.toList_repr]
    exact ⟨_, .negative (isNumeral_digits Nat.toDigits_ne_nil (isDigit_toDigits _))⟩

theorem exists_isLiteral_double (x : Double) : ∃ ts, IsLiteral ts x.text.toList := by
  obtain ⟨sign, body, htext, hsign, hbody⟩ := x.text_cases
  rw [htext]
  rcases hsign with rfl | rfl
  · rcases hbody with hnumeral | rfl | ⟨-, rfl⟩
    · exact ⟨_, .numeral hnumeral⟩
    · exact ⟨_, .infinite⟩
    · exact ⟨_, .notNumber⟩
  · rcases hbody with hnumeral | rfl | ⟨hnone, -⟩
    · exact ⟨_, .negative hnumeral⟩
    · exact ⟨_, .negativeInfinite⟩
    · simp at hnone

/-- A default that is no expression is written as a literal. -/
theorem Default.isLiteral_or (declared : Default) :
    (∃ ts, IsLiteral ts declared.literal.toList) ∨ ∃ sql, declared = .expression sql := by
  cases declared with
  | null => exact .inl ⟨_, .null⟩
  | bool b =>
    have hdigit : IsNumeral (bool b).literal.toList := by
      cases b <;> exact isNumeral_digits (by simp [literal]) (by simp [literal])
    exact .inl ⟨_, .numeral hdigit⟩
  | int n => exact .inl (exists_isLiteral_int n)
  | float x => exact .inl (exists_isLiteral_double x)
  | text s => exact .inl ⟨_, .text s⟩
  | expression sql => exact .inr ⟨sql, rfl⟩

/-! ### Defaults -/

/-- A text is a default of its own: behind a blank its tokens do not run into what follows, and a
default that is read from them in front of the end of the item ends where they end. -/
def Default.StandsAlone (literal : String) : Prop :=
  ∃ ts, Spells ts (' ' :: literal.toList) ∧ ∀ (t : Token) us, t.Ends →
    Yields defaultValue (ts ++ t :: us) fun r vs => vs = t :: us ∧ ∃ p written, r = .default p written

/-- A text is a default of its own in front of certain tokens. -/
def Default.StandsBefore (P : List Token → Prop) (literal : String) : Prop :=
  ∃ ts, Spells ts (' ' :: literal.toList) ∧ ∀ us, P us →
    Yields defaultValue (ts ++ us) fun r vs => vs = us ∧ ∃ p written, r = .default p written

/-- The tokens begin with the end of an item. -/
def EndsItem (us : List Token) : Prop := ∃ t vs, us = t :: vs ∧ t.Ends

theorem EndsItem.ends {us : List Token} (h : EndsItem us) : ∀ t ∈ us.head?, t.Ends := by
  obtain ⟨t, vs, rfl, ht⟩ := h
  rintro _ ⟨⟩
  exact ht

theorem Default.StandsAlone.standsBefore {literal : String} (h : StandsAlone literal) :
    StandsBefore EndsItem literal := by
  obtain ⟨ts, hspells, hyields⟩ := h
  refine ⟨ts, hspells, ?_⟩
  rintro _ ⟨t, vs, rfl, ht⟩
  exact hyields t vs ht

/-- A literal is read as a default, or refused: a sign stands in front of numerals only. -/
theorem IsLiteral.yields_default {ts : List Token} {cs : List Char} (h : IsLiteral ts cs)
    (us : List Token) : Yields defaultValue (ts ++ us) fun r vs =>
      vs = us ∧ ∃ p written, r = .default p written := by
  have hminus : (ofMark " " '-').isSymbol "-" = true := rfl
  have hopen : (ofMark " " '-').isSymbol "(" = false := rfl
  have hdefault : ∀ d, (∀ k, defaultValue.run ⟨ts ++ us, k⟩ =
      .ok (.default (.datum d) (written ts), ⟨us, k⟩)) →
      Yields defaultValue (ts ++ us) fun r vs => vs = us ∧ ∃ p written, r = .default p written :=
    fun d hrun => yields_of_run hrun ⟨rfl, .datum d, written ts, rfl⟩
  cases h with
  | null =>
    exact hdefault .null fun k => by
      simp +decide [defaultValue, taken, operand, wordOperand, isWord_ofWord]
  | numeral h =>
    exact hdefault (numberDatum false cs) fun k => by
      simp [defaultValue, taken, ofNumeral, isSymbol, operand]
  | @negative cs h =>
    have hcount : us.length + 1 + 1 - us.length = 2 := by omega
    exact hdefault (numberDatum true cs) fun k => by
      simp [defaultValue, taken, hopen, hminus]
      simp [ofNumeral, hcount]
  | infinite =>
    exact hdefault (.text "inf") fun k => by
      simp +decide [defaultValue, taken, name, nameOf?]
  | negativeInfinite =>
    intro k r u hrun
    obtain ⟨fault, hfault⟩ := run_refuse (α := Phrase) ⟨ofWord "" "inf" :: us, k⟩
    simp [defaultValue, taken, hopen, hminus, hfault] at hrun
  | notNumber =>
    exact hdefault (.text "NaN") fun k => by
      simp +decide [defaultValue, taken, name, nameOf?]
  | text s =>
    exact hdefault (.text s) fun k => by
      simp [defaultValue, taken, ofLiteral, isSymbol, operand]
  | emptyBlob =>
    exact hdefault (.blob []) fun k => by
      simp [defaultValue, taken, isSymbol, operand]

/-- **The literals of defaults are defaults of their own**, if those of expressions are. -/
theorem Default.standsAlone_literal {declared : Default}
    (h : ∀ sql, declared = .expression sql → StandsAlone sql) : StandsAlone declared.literal := by
  rcases declared.isLiteral_or with ⟨ts, hliteral⟩ | ⟨sql, rfl⟩
  · exact ⟨ts, hliteral.spells, fun t us _ => hliteral.yields_default (t :: us)⟩
  · exact h sql rfl

/-- So they are in front of anything, if they are no expressions. -/
theorem Default.standsBefore_literal {declared : Default}
    (h : ∀ sql, declared ≠ .expression sql) (P : List Token → Prop) :
    StandsBefore P declared.literal := by
  rcases declared.isLiteral_or with ⟨ts, hliteral⟩ | ⟨sql, rfl⟩
  · exact ⟨ts, hliteral.spells, fun us _ => hliteral.yields_default us⟩
  · exact absurd rfl (h sql)

end EntitySql
