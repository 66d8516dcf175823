import EntitySql.Proofs.Database.Declaration
import EntitySql.Proofs.Reading.Symbol

/-!
# Splitting a statement

A statement that defines a table is read by splitting it: at its blanks into words, and what stands
between parentheses at its commas into items. Only what stands at the top separates, outside quotes
and outside parentheses; so a comma in a name, in a text or between the numbers of a type does not.
Names stand between the quotes of the dialect and texts between apostrophes, and a closing quote
that is written twice is part of what it would close.

A text can be split piece by piece: a piece is solid if nothing in it separates, and if it has
closed what it opens. Names and texts are solid whatever characters they have, and so is what
stands between parentheses.

## Main definitions

* `Nesting`: what a character of a statement stands inside
* `Dialect.words`, `Dialect.items`: the parts of a text between its blanks, or between its commas
* `Solid`, `IsWord`: pieces in which nothing separates
* `Listed`: pieces with commas between them

## Main results

* `solid_enclose`: a quoted name or text is solid
* `Solid.parenthesized`: what stands between parentheses is solid
* `words_spaced`: words are read back
* `Listed.mapM_items`: items are read back
-/

namespace EntitySql

/-- What a character of a statement stands inside. -/
inductive Nesting where
  /-- Outside quotes, inside that many parentheses. -/
  | outside (depth : Nat)
  /-- Between quotes, of which the second one is given. -/
  | inside (close : Char) (depth : Nat)
  /-- Behind a closing quote, which may be the first of two. -/
  | behind (close : Char) (depth : Nat)
deriving DecidableEq, Repr

namespace Nesting

/-- The place behind a character outside quotes. -/
def enter (d : Dialect) (depth : Nat) (c : Char) : Nesting :=
  if c = d.openQuote then inside d.closeQuote depth
  else if c = '\'' then inside '\'' depth
  else if c = '(' then outside (depth + 1)
  else if c = ')' then outside (depth - 1)
  else outside depth

/-- The place behind a character. -/
def step (d : Dialect) : Nesting → Char → Nesting
  | outside n, c => enter d n c
  | inside close n, c => if c = close then behind close n else inside close n
  | behind close n, c => if c = close then inside close n else enter d n c

/-- Whether a character there can separate. -/
def isTop : Nesting → Bool
  | outside n | behind _ n => n == 0
  | inside .. => false

/-- The same place inside one more pair of parentheses. -/
def deeper : Nesting → Nesting
  | outside n => outside (n + 1)
  | inside close n => inside close (n + 1)
  | behind close n => behind close (n + 1)

/-- The parts of a text that begins at that place, between the separators at the top. -/
def split (d : Dialect) (separates : Char → Bool) : Nesting → List Char → List (List Char)
  | _, [] => [[]]
  | p, c :: cs =>
    if p.isTop && separates c then [] :: split d separates (outside 0) cs
    else (split d separates (p.step d c) cs).modifyHead (c :: ·)

/-- The place behind characters none of which separates or closes what has not been opened. -/
def through (d : Dialect) (separates : Char → Bool) : Nesting → List Char → Option Nesting
  | p, [] => some p
  | p, c :: cs =>
    if p.isTop && (separates c || c == ')') then none else through d separates (p.step d c) cs

/-- Everything has been closed. -/
def Ended (d : Dialect) (p : Nesting) : Prop :=
  p = outside 0 ∨ p = behind d.closeQuote 0 ∨ p = behind '\'' 0

end Nesting

namespace Dialect

/-- The parts of a text between its blanks. -/
def words (d : Dialect) (cs : List Char) : List String :=
  ((Nesting.split d Text.isBlank (.outside 0) cs).filter (!·.isEmpty)).map String.ofList

/-- The parts of a text between its commas. -/
def items (d : Dialect) (cs : List Char) : List (List Char) :=
  Nesting.split d (· == ',') (.outside 0) cs

end Dialect

/-- Whether a character ends a word at the top. -/
def endsWord (c : Char) : Bool := Text.isBlank c || c == ','

/-- Whether a character is no quote and no parenthesis. -/
def Dialect.isPlain (d : Dialect) (c : Char) : Bool :=
  c != d.openQuote && c != d.closeQuote && c != '\'' && c != '(' && c != ')'

/-- Nothing separates the characters, and what they open they close. -/
def Solid (d : Dialect) (separates : Char → Bool) (cs : List Char) : Prop :=
  ∃ p, Nesting.through d separates (.outside 0) cs = some p ∧ p.Ended d

/-- A word that neither a blank nor a comma splits. -/
structure IsWord (d : Dialect) (cs : List Char) : Prop where
  ne_nil : cs ≠ []
  solid : Solid d endsWord cs

variable {d : Dialect} {separates : Char → Bool}

/-! ### Going through a text -/

namespace Nesting

variable {p p' : Nesting} {xs ys : List Char}

theorem through_append (d : Dialect) (separates : Char → Bool) (p : Nesting) (xs ys : List Char) :
    through d separates p (xs ++ ys) =
      (through d separates p xs).bind fun p' => through d separates p' ys := by
  induction xs generalizing p with
  | nil => rfl
  | cons c xs ih =>
    rw [List.cons_append, through, through]
    split
    · rfl
    · exact ih _

/-- What does not separate stays with the part behind it. -/
theorem split_append (h : through d separates p xs = some p') (ys : List Char) :
    split d separates p (xs ++ ys) = (split d separates p' ys).modifyHead (xs ++ ·) := by
  induction xs generalizing p with
  | nil =>
    obtain rfl : p = p' := Option.some.inj h
    exact (congrFun List.modifyHead_id _).symm
  | cons c xs ih =>
    rw [through] at h
    split at h
    · cases h
    · next hstays =>
      have hstays' : ¬(p.isTop && separates c) = true := by
        intro hc
        rw [Bool.and_eq_true] at hc
        exact hstays (by simp [hc.1, hc.2])
      rw [List.cons_append, split, if_neg hstays', ih h, List.modifyHead_modifyHead]
      rfl

theorem split_ne_nil (d : Dialect) (separates : Char → Bool) (p : Nesting) (cs : List Char) :
    split d separates p cs ≠ [] := by
  induction cs generalizing p with
  | nil => simp [split]
  | cons c cs ih =>
    rw [split]
    split
    · simp
    · obtain ⟨part, parts, heq⟩ := List.exists_cons_of_ne_nil (ih (p.step d c))
      simp [heq]

theorem through_mono {separates' : Char → Bool}
    (hle : ∀ c, separates' c = true → separates c = true)
    (h : through d separates p xs = some p') : through d separates' p xs = some p' := by
  induction xs generalizing p with
  | nil => exact h
  | cons c xs ih =>
    rw [through] at h ⊢
    split at h
    · cases h
    · next hstays =>
      rw [if_neg, ih h]
      intro hc
      simp only [Bool.and_eq_true, Bool.or_eq_true] at hc hstays
      exact hstays ⟨hc.1, hc.2.imp_left (hle c)⟩

theorem enter_succ {n : Nat} {c : Char} (h : n = 0 → c ≠ ')') :
    enter d (n + 1) c = (enter d n c).deeper := by
  unfold enter
  split
  · rfl
  split
  · rfl
  split
  · rfl
  split
  · next hclose =>
    have hn : n ≠ 0 := fun hn => h hn hclose
    rw [deeper]
    congr 1
    omega
  · rfl

/-- Inside more parentheses the text is gone through in the same way. -/
theorem through_deeper (h : through d separates p xs = some p') (separates' : Char → Bool) :
    through d separates' p.deeper xs = some p'.deeper := by
  induction xs generalizing p with
  | nil =>
    obtain rfl : p = p' := Option.some.inj h
    rfl
  | cons c xs ih =>
    rw [through] at h ⊢
    have htop : p.deeper.isTop = false := by cases p <;> rfl
    rw [htop, Bool.false_and, if_neg Bool.false_ne_true]
    split at h
    · cases h
    · next hstays =>
      have hclose : p.isTop = true → c ≠ ')' := by
        rintro hp rfl
        exact hstays (by simp [hp])
      have hstep : p.deeper.step d c = (p.step d c).deeper := by
        cases p with
        | outside n => exact enter_succ fun hn => hclose (by simp [isTop, hn])
        | inside close n =>
          simp only [deeper, step]
          split <;> rfl
        | behind close n =>
          simp only [deeper, step]
          split
          · rfl
          · exact enter_succ fun hn => hclose (by simp [isTop, hn])
      rw [hstep]
      exact ih h

theorem Ended.isTop (h : p.Ended d) : p.isTop = true := by
  rcases h with rfl | rfl | rfl <;> rfl

/-- A character that is no quote leads outside. -/
theorem Ended.step (h : p.Ended d) {c : Char} (hclose : c ≠ d.closeQuote) (htext : c ≠ '\'') :
    p.step d c = enter d 0 c := by
  rcases h with rfl | rfl | rfl
  · rfl
  · exact if_neg hclose
  · exact if_neg htext

end Nesting

open Nesting

theorem enter_of_isPlain {c : Char} (h : d.isPlain c = true) (n : Nat) :
    enter d n c = outside n := by
  simp only [Dialect.isPlain, Bool.and_eq_true, bne_iff_ne] at h
  rw [enter, if_neg h.1.1.1.1, if_neg h.1.1.2, if_neg h.1.2, if_neg h.2]

/-! ### Solid pieces -/

namespace Solid

variable {xs ys : List Char}

theorem nil : Solid d separates [] := ⟨outside 0, rfl, .inl rfl⟩

theorem mono {separates' : Char → Bool} (hle : ∀ c, separates' c = true → separates c = true)
    (h : Solid d separates xs) : Solid d separates' xs := by
  obtain ⟨p, hp, hended⟩ := h
  exact ⟨p, through_mono hle hp, hended⟩

/-- Two pieces with a character between them that does not separate. -/
theorem append_cons (hx : Solid d separates xs) {c : Char} (hc : d.isPlain c = true)
    (hstays : separates c = false) (hy : Solid d separates ys) :
    Solid d separates (xs ++ c :: ys) := by
  obtain ⟨p, hp, hended⟩ := hx
  obtain ⟨p', hp', hended'⟩ := hy
  refine ⟨p', ?_, hended'⟩
  have hplain := hc
  simp only [Dialect.isPlain, Bool.and_eq_true, bne_iff_ne] at hplain
  have hclose : (c == ')') = false := by simpa using hplain.2
  rw [through_append, hp, Option.bind_some, through, hstays, hclose, Bool.or_self, Bool.and_false,
    if_neg Bool.false_ne_true, hended.step hplain.1.1.1.2 hplain.1.1.2, enter_of_isPlain hc, hp']

/-- Characters none of which is a quote, a parenthesis or a separator. -/
theorem of_isPlain (h : xs.all (fun c => d.isPlain c && !separates c) = true) :
    Solid d separates xs := by
  induction xs with
  | nil => exact nil
  | cons c xs ih =>
    rw [List.all_cons, Bool.and_eq_true, Bool.and_eq_true, Bool.not_eq_true'] at h
    exact nil.append_cons h.1.1 h.1.2 (ih h.2)

/-- A piece with another one between parentheses behind it. -/
theorem parenthesized (hd : d.HasPlainQuotes) (hx : Solid d separates xs)
    (hy : Solid d (fun _ => false) ys) (hstays : separates '(' = false) :
    Solid d separates (xs ++ '(' :: (ys ++ [')'])) := by
  obtain ⟨p, hp, hended⟩ := hx
  obtain ⟨p', hp', hended'⟩ := hy
  have hquotes : '(' ≠ d.openQuote ∧ '(' ≠ d.closeQuote ∧
      ')' ≠ d.openQuote ∧ ')' ≠ d.closeQuote := by
    rcases hd with ⟨h, h'⟩ | ⟨h, h'⟩ <;> rw [h, h'] <;> decide
  have hopen : p.step d '(' = outside 1 := by
    rw [hended.step hquotes.2.1 (by decide), enter, if_neg hquotes.1]
    rfl
  have hclose : p'.deeper.step d ')' = outside 0 := by
    have henter : enter d 1 ')' = outside 0 := by
      rw [enter, if_neg hquotes.2.2.1]
      rfl
    rcases hended' with rfl | rfl | rfl
    · exact henter
    · exact (if_neg hquotes.2.2.2).trans henter
    · show (if ')' = '\'' then inside '\'' 1 else enter d 1 ')') = outside 0
      rw [if_neg (by decide), henter]
  have htop : p'.deeper.isTop = false := by cases p' <;> rfl
  refine ⟨outside 0, ?_, .inl rfl⟩
  have hinner : through d separates (outside 1) ys = some p'.deeper := through_deeper hp' separates
  rw [through_append, hp, Option.bind_some, through, hstays, hopen, through_append, hinner,
    Option.bind_some, through, htop, Bool.false_and, if_neg Bool.false_ne_true, hclose]
  simp [through]

end Solid

/-- Between quotes, a text is gone through up to the quote that closes it. -/
theorem through_encode {close : Char} (hstays : separates close = false) (hne : close ≠ ')')
    (n : Nat) (cs : List Char) :
    through d separates (inside close n) (Text.Quoted.encode close cs ++ [close]) =
      some (behind close n) := by
  have hkept : ∀ (p : Nesting) (cs : List Char), through d separates p (close :: cs) =
      through d separates (p.step d close) cs := by
    intro p cs
    rw [through, hstays, beq_eq_false_iff_ne.mpr hne, Bool.or_self, Bool.and_false,
      if_neg Bool.false_ne_true]
  have hfirst : (inside close n).step d close = behind close n := if_pos rfl
  have hsecond : (behind close n).step d close = inside close n := if_pos rfl
  induction cs with
  | nil =>
    rw [Text.Quoted.encode, List.nil_append, hkept, hfirst]
    rfl
  | cons c cs ih =>
    rw [Text.Quoted.encode]
    split
    · rw [List.cons_append, List.cons_append, hkept, hkept, hfirst, hsecond, ih]
    · next hc =>
      have hstep : (inside close n).step d c = inside close n := if_neg hc
      rw [List.cons_append, through, isTop, Bool.false_and, if_neg Bool.false_ne_true, hstep, ih]

/-- **A name between quotes is solid**, and so is a text between apostrophes. -/
theorem solid_enclose {opening close : Char}
    (hquotes : (opening = d.openQuote ∧ close = d.closeQuote) ∨ (opening = '\'' ∧ close = '\''))
    (hd : d.HasPlainQuotes) (hstays : [opening, close].any separates = false) (s : String) :
    Solid d separates (Text.Quoted.enclose opening close s).toList := by
  have henter : enter d 0 opening = inside close 0 := by
    rcases hquotes with ⟨rfl, rfl⟩ | ⟨rfl, rfl⟩
    · exact if_pos rfl
    · have hne : '\'' ≠ d.openQuote := by
        rcases hd with ⟨h, -⟩ | ⟨h, -⟩ <;> rw [h] <;> decide
      exact (if_neg hne).trans (if_pos rfl)
  have hplain : opening ≠ ')' ∧ close ≠ ')' := by
    rcases hquotes with ⟨rfl, rfl⟩ | ⟨rfl, rfl⟩
    · rcases hd with ⟨h, h'⟩ | ⟨h, h'⟩ <;> rw [h, h'] <;> decide
    · decide
  refine ⟨behind close 0, ?_, ?_⟩
  · obtain ⟨hopening, hclose⟩ : separates opening = false ∧ separates close = false := by
      simpa using hstays
    have hstep : (outside 0).step d opening = inside close 0 := henter
    rw [Text.Quoted.enclose, String.toList_ofList, Text.Quoted.encloseChars, List.cons_append,
      through, hopening, beq_eq_false_iff_ne.mpr hplain.1, Bool.or_self, Bool.and_false,
      if_neg Bool.false_ne_true, hstep, through_encode hclose hplain.2]
  · rcases hquotes with ⟨-, rfl⟩ | ⟨-, rfl⟩
    · exact .inr (.inl rfl)
    · exact .inr (.inr rfl)

/-! ### Words -/

section Words

variable {w : String} {ws : List String} {cs : List Char}

theorem words_nil (d : Dialect) : d.words [] = [] := rfl

theorem words_cons_of_isBlank {c : Char} (hc : Text.isBlank c = true) (cs : List Char) :
    d.words (c :: cs) = d.words cs := by
  have hsplit : split d Text.isBlank (outside 0) (c :: cs) =
      [] :: split d Text.isBlank (outside 0) cs := if_pos (by simp [isTop, hc])
  rw [Dialect.words, hsplit]
  rfl

theorem words_append_of_isBlank {gap : List Char} (hgap : gap.all Text.isBlank = true)
    (cs : List Char) : d.words (gap ++ cs) = d.words cs := by
  induction gap with
  | nil => rfl
  | cons c gap ih =>
    rw [List.all_cons, Bool.and_eq_true] at hgap
    rw [List.cons_append, words_cons_of_isBlank hgap.1, ih hgap.2]

theorem solid_isBlank (h : IsWord d cs) : Solid d Text.isBlank cs :=
  h.solid.mono fun c hc => by simp [endsWord, hc]

theorem words_of_isWord (h : IsWord d w.toList) : d.words w.toList = [w] := by
  obtain ⟨p, hp, -⟩ := solid_isBlank h
  have hsplit : split d Text.isBlank (outside 0) (w.toList ++ []) = [w.toList] := by
    rw [split_append hp, split, List.modifyHead_cons, List.append_nil]
  rw [List.append_nil] at hsplit
  have hne : w.toList.isEmpty = false := by simpa using h.ne_nil
  simp [Dialect.words, hsplit, hne]

theorem words_append_cons (h : IsWord d w.toList) {c : Char} (hc : Text.isBlank c = true)
    (cs : List Char) : d.words (w.toList ++ c :: cs) = w :: d.words cs := by
  obtain ⟨p, hp, hended⟩ := solid_isBlank h
  have hsplit : split d Text.isBlank (outside 0) (w.toList ++ c :: cs) =
      w.toList :: split d Text.isBlank (outside 0) cs := by
    rw [split_append hp, split, hended.isTop, hc, Bool.and_self, if_pos rfl, List.modifyHead_cons,
      List.append_nil]
  have hne : w.toList.isEmpty = false := by simpa using h.ne_nil
  simp [Dialect.words, hsplit, hne]

theorem words_append_ne_nil (h : IsWord d w.toList) (cs : List Char) :
    d.words (w.toList ++ cs) ≠ [] := by
  obtain ⟨p, hp, -⟩ := solid_isBlank h
  obtain ⟨part, parts, heq⟩ := List.exists_cons_of_ne_nil (split_ne_nil d Text.isBlank p cs)
  have hsplit : split d Text.isBlank (outside 0) (w.toList ++ cs) =
      (w.toList ++ part) :: parts := by
    rw [split_append hp, heq, List.modifyHead_cons]
  have hne : (w.toList ++ part).isEmpty = false := by simp [h.ne_nil]
  rw [Dialect.words, hsplit, List.filter_cons_of_pos (by rw [hne]; rfl)]
  exact List.cons_ne_nil _ _

/-- **Words are read back**, whatever blanks stand behind the last one. -/
theorem words_spaced (hw : IsWord d w.toList) (hws : ∀ v ∈ ws, IsWord d v.toList) {gap : List Char}
    (hgap : gap.all Text.isBlank = true) :
    d.words (w.toList ++ (Token.spacedWords ws ++ gap)) = w :: ws := by
  induction ws generalizing w with
  | nil =>
    cases gap with
    | nil => simpa [Token.spacedWords] using words_of_isWord hw
    | cons c gap =>
      rw [List.all_cons, Bool.and_eq_true] at hgap
      rw [Token.spacedWords, List.flatMap_nil, List.nil_append, words_append_cons hw hgap.1]
      have hnone := words_append_of_isBlank (d := d) hgap.2 []
      rw [List.append_nil] at hnone
      rw [hnone, words_nil]
  | cons v ws ih =>
    have hspaced : w.toList ++ (Token.spacedWords (v :: ws) ++ gap) =
        w.toList ++ ' ' :: (v.toList ++ (Token.spacedWords ws ++ gap)) := by
      simp [Token.spacedWords]
    rw [hspaced, words_append_cons hw rfl,
      ih (hws v List.mem_cons_self) fun u hu => hws u (List.mem_cons_of_mem _ hu)]

/-- Words with blanks between them are not split by commas. -/
theorem solid_spaced (hd : d.HasPlainQuotes) (hw : IsWord d w.toList)
    (hws : ∀ v ∈ ws, IsWord d v.toList) :
    Solid d (· == ',') (w.toList ++ Token.spacedWords ws) := by
  have hcomma : ∀ {cs : List Char}, IsWord d cs → Solid d (· == ',') cs := fun h =>
    h.solid.mono fun c hc => by simp [endsWord, hc]
  have hblank : d.isPlain ' ' = true := by
    rcases hd with ⟨h, h'⟩ | ⟨h, h'⟩ <;> simp [Dialect.isPlain, h, h']
  induction ws generalizing w with
  | nil => simpa [Token.spacedWords] using hcomma hw
  | cons v ws ih =>
    have hrest := ih (hws v List.mem_cons_self) fun u hu => hws u (List.mem_cons_of_mem _ hu)
    exact (hcomma hw).append_cons hblank rfl hrest

end Words

/-! ### Items -/

/-- Blanks in front of a piece and behind it are of no account. -/
theorem Solid.around (hd : d.HasPlainQuotes) {gap x gap' : List Char}
    (hgap : gap.all Text.isBlank = true) (hgap' : gap'.all Text.isBlank = true)
    (hx : Solid d (· == ',') x) : Solid d (· == ',') (gap ++ (x ++ gap')) := by
  have hplain : ∀ c, Text.isBlank c = true → d.isPlain c = true ∧ (c == ',') = false := by
    intro c hc
    have hne : ∀ b, Text.isBlank b = false → c ≠ b := by
      rintro b hb rfl
      rw [hc] at hb
      cases hb
    refine ⟨?_, by simpa using hne ',' rfl⟩
    rcases hd with ⟨h, h'⟩ | ⟨h, h'⟩ <;>
      simp [Dialect.isPlain, h, h', hne '"' rfl, hne '[' rfl, hne ']' rfl, hne '\'' rfl,
        hne '(' rfl, hne ')' rfl]
  have hall : ∀ {gap : List Char}, gap.all Text.isBlank = true → Solid d (· == ',') gap := by
    intro gap hgap
    refine .of_isPlain (List.all_eq_true.mpr fun c hc => ?_)
    obtain ⟨hp, hcomma⟩ := hplain c (List.all_eq_true.mp hgap c hc)
    rw [hp, hcomma]
    rfl
  have hbehind : Solid d (· == ',') (x ++ gap') := by
    cases gap' with
    | nil => rwa [List.append_nil]
    | cons c gap' =>
      rw [List.all_cons, Bool.and_eq_true] at hgap'
      exact hx.append_cons (hplain c hgap'.1).1 (hplain c hgap'.1).2 (hall hgap'.2)
  induction gap with
  | nil => exact hbehind
  | cons c gap ih =>
    rw [List.all_cons, Bool.and_eq_true] at hgap
    exact Solid.nil.append_cons (hplain c hgap.1).1 (hplain c hgap.1).2 (ih hgap.2)

/-- Pieces with commas between them, and blanks around them. -/
inductive Listed {α : Type} (R : List Char → α → Prop) : List Char → List α → Prop where
  | last {gap x gap' : List Char} {a : α} (hgap : gap.all Text.isBlank = true)
    (hgap' : gap'.all Text.isBlank = true) (h : R x a) : Listed R (gap ++ (x ++ gap')) [a]
  | next {gap x cs : List Char} {a : α} {as : List α} (hgap : gap.all Text.isBlank = true)
    (h : R x a) (hrest : Listed R cs as) : Listed R (gap ++ (x ++ ',' :: cs)) (a :: as)

namespace Listed

variable {α : Type} {R : List Char → α → Prop} {cs : List Char} {as : List α}

/-- **Items are read back**, each by itself. -/
theorem mapM_items (hd : d.HasPlainQuotes) {read : List Char → Option α}
    (hR : ∀ x a, R x a → Solid d (· == ',') x ∧ ∀ gap gap' : List Char,
      gap.all Text.isBlank = true → gap'.all Text.isBlank = true →
        read (gap ++ (x ++ gap')) = some a)
    (h : Listed R cs as) : (d.items cs).mapM read = some as := by
  induction h with
  | last hgap hgap' hx =>
    obtain ⟨hsolid, hread⟩ := hR _ _ hx
    obtain ⟨p, hp, -⟩ := Solid.around hd hgap hgap' hsolid
    have hone := split_append hp []
    rw [List.append_nil, split, List.modifyHead_cons, List.append_nil] at hone
    rw [Dialect.items, hone, List.mapM_cons, hread _ _ hgap hgap']
    rfl
  | @next gap x cs a as hgap hx _ ih =>
    obtain ⟨hsolid, hread⟩ := hR _ _ hx
    have haround := Solid.around hd hgap (rfl : [].all Text.isBlank = true) hsolid
    obtain ⟨p, hp, hended⟩ := haround
    have hsplit : d.items (gap ++ (x ++ ',' :: cs)) = (gap ++ (x ++ [])) :: d.items cs := by
      have hassoc : gap ++ (x ++ ',' :: cs) = (gap ++ (x ++ [])) ++ ',' :: cs := by simp
      rw [Dialect.items, hassoc, split_append hp, split, hended.isTop, Bool.true_and,
        if_pos (by rfl), List.modifyHead_cons, List.append_nil]
      rfl
    rw [hsplit, List.mapM_cons, hread _ _ hgap rfl, ih]
    rfl

/-- Between parentheses the commas do not separate. -/
theorem solid (hd : d.HasPlainQuotes) (hR : ∀ x a, R x a → Solid d (· == ',') x)
    (h : Listed R cs as) : Solid d (fun _ => false) cs := by
  have hnone : ∀ {cs : List Char}, Solid d (· == ',') cs → Solid d (fun _ => false) cs := fun h =>
    h.mono fun c hc => by cases hc
  have hcomma : d.isPlain ',' = true := by
    rcases hd with ⟨h, h'⟩ | ⟨h, h'⟩ <;> simp [Dialect.isPlain, h, h']
  induction h with
  | last hgap hgap' hx => exact hnone (Solid.around hd hgap hgap' (hR _ _ hx))
  | @next gap x cs a as hgap hx _ ih =>
    have haround := hnone (Solid.around hd hgap (rfl : [].all Text.isBlank = true) (hR _ _ hx))
    have hall := haround.append_cons hcomma rfl ih
    simpa using hall

end Listed

end EntitySql
