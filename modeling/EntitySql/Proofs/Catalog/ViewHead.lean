import EntitySql.Database.Token
import EntitySql.Proofs.Catalog.ViewText
import EntitySql.Proofs.Names.Folding
import Mathlib.Data.List.Infix

/-!
# The head of a statement that creates a view

A statement that somebody else wrote may create a view in any case and with any blanks, may name
columns, and may quote its names in any of the ways that there are. What the scanner makes of all
these is settled here. The words of a statement are never taken for the `AS` that it looks for, nor
is anything between quotes, so it is the bare names that decide.

To the scanner a word consists of ASCII letters, digits and underscores. A name may also have dollar
signs and characters that are not ASCII, and next to one of these an `as` inside of the name looks
like a word of its own: in `x$as` and in `éas` the body seems to begin too early. The body is found
exactly if no bare name of the head hides an `AS` in this way (`LiveView.ofStatement_finds`).

The scanner may as well run over the bytes of a text. It looks for ASCII characters only, and no
byte of another character is one, so it stops in the same place, which is never inside a character.

## Main definitions

* `ViewText.NameText`, `ViewText.Part`: what a head consists of
* `ViewText.Spells`: how its parts are spelled, in front of the body
* `ViewText.Hides`: a word has the letters of `AS` between characters that are no word characters
* `ViewText.bodyFromBytes?`: the scanner over bytes

## Main results

* `ViewText.bodyFrom?_word`: a word is passed exactly if it hides no `AS`
* `ViewText.Spells.bodyFrom?_eq`: a head is passed exactly if none of its names hides one
* `ViewText.bodyFromBytes?_utf8`: the scanner over bytes stops between characters
* `LiveView.ofStatement_finds`: when the body of a view is found
-/

namespace EntitySql

namespace Text

/-! ### Trimming -/

theorem trimRight_append_eq (front cs : List Char) : trimRight (front ++ cs) =
    if trimRight cs = [] then trimRight front else front ++ trimRight cs := by
  rw [trimRight, trimRight, List.reverse_append, List.dropWhile_append]
  by_cases hnil : cs.reverse.dropWhile isBlank = [] <;> simp [hnil, trimRight]

theorem trimRight_ne_nil {cs : List Char} {c : Char} (hc : c ∈ cs) (hblank : isBlank c = false) :
    trimRight cs ≠ [] := by
  intro hnil
  have hall := List.dropWhile_eq_nil_iff.mp (List.reverse_eq_nil_iff.mp hnil) c
    (List.mem_reverse.mpr hc)
  rw [hblank] at hall
  cases hall

/-- What is not blank altogether protects what stands in front of it. -/
theorem trimRight_append_of_mem {cs : List Char} {c : Char} (hc : c ∈ cs)
    (hblank : isBlank c = false) (front : List Char) :
    trimRight (front ++ cs) = front ++ trimRight cs := by
  rw [trimRight_append_eq, if_neg (trimRight_ne_nil hc hblank)]

/-- Nothing is trimmed that ends in something else than a blank. -/
theorem trimRight_concat_append {c : Char} (hblank : isBlank c = false) (front cs : List Char) :
    trimRight (front ++ [c] ++ cs) = front ++ [c] ++ trimRight cs := by
  rw [trimRight_append_eq]
  split
  · next hnil =>
    rw [hnil, List.append_nil, trimRight, List.reverse_append, List.reverse_singleton,
      List.singleton_append, List.dropWhile_cons_of_neg (by simp [hblank])]
    simp
  · rfl

/-- A trimmed text begins as it did, unless nothing is left. -/
theorem head?_of_trimRight {cs : List Char} {c : Char} (h : c ∈ (trimRight cs).head?) :
    c ∈ cs.head? := by
  obtain ⟨back, hback⟩ : trimRight cs <+: cs := List.rdropWhile_prefix isBlank cs
  rw [← hback, List.head?_append, Option.mem_def.mp h]
  rfl

theorem trimLeft_append_of_mem {cs : List Char} {c : Char} (hc : c ∈ cs)
    (hblank : isBlank c = false) (rest : List Char) :
    trimLeft (cs ++ rest) = trimLeft cs ++ rest ∧ trimLeft cs ≠ [] := by
  have hkeeps : cs.dropWhile isBlank ≠ [] := by
    intro hnil
    have hall := List.dropWhile_eq_nil_iff.mp hnil c hc
    rw [hblank] at hall
    cases hall
  refine ⟨?_, hkeeps⟩
  rw [trimLeft, trimLeft, List.dropWhile_append, if_neg (by simpa using hkeeps)]

theorem trimRight_of_blank {cs : List Char} (h : ∀ c ∈ cs, isBlank c = true) :
    trimRight cs = [] := by
  rw [trimRight, List.dropWhile_eq_nil_iff.mpr fun c hc => h c (List.mem_reverse.mp hc)]
  rfl

/-- The ends of a text may be trimmed in any order. -/
theorem trimLeft_trimRight (cs : List Char) : trimLeft (trimRight cs) = trimChars cs := by
  induction cs with
  | nil => rfl
  | cons c cs ih =>
    by_cases hc : isBlank c = true
    · have hdrop : ∀ ds : List Char, trimLeft (c :: ds) = trimLeft ds :=
        fun _ => List.dropWhile_cons_of_pos hc
      by_cases hrest : ∃ d ∈ cs, isBlank d = false
      · obtain ⟨d, hd, hblank⟩ := hrest
        have hkeep : trimRight (c :: cs) = c :: trimRight cs :=
          trimRight_append_of_mem hd hblank [c]
        rw [hkeep, hdrop, ih, trimChars, trimChars, hdrop]
      · have hall : ∀ d ∈ cs, isBlank d = true := by simpa using hrest
        have hnil : trimLeft cs = [] := List.dropWhile_eq_nil_iff.mpr hall
        rw [trimRight_of_blank (List.forall_mem_cons.mpr ⟨hc, hall⟩), trimChars, hdrop, hnil]
        rfl
    · have hkeep : trimChars (c :: cs) = trimRight (c :: cs) :=
        congrArg trimRight (List.dropWhile_cons_of_neg hc)
      rw [← hkeep, trimLeft_trimChars]

end Text

namespace ViewText

/-! ### Heads -/

/-- A name as it is written: bare, between quotes, which are doubled inside, or in brackets. -/
inductive NameText where
  /-- A bare name. -/
  | bare (cs : List Char)
  /-- A name between two quotes. -/
  | quoted (quote : Char) (cs : List Char)
  /-- A name in brackets. -/
  | bracketed (cs : List Char)
deriving DecidableEq, Repr

/-- A part of a head: a keyword, a name or a mark. -/
inductive Part where
  /-- A keyword, given in capitals. -/
  | keyword (word : String)
  /-- A name. -/
  | name (n : NameText)
  /-- A mark. -/
  | mark (c : Char)
deriving DecidableEq, Repr

/-- A blank between the parts of a head. -/
def isSpace (c : Char) : Bool := Text.isBlank c && !Token.continuesName c

/-- The characters of a name. -/
def NameText.chars : NameText → List Char
  | bare cs => cs
  | quoted quote cs => Text.Quoted.encloseChars quote quote cs
  | bracketed cs => '[' :: cs ++ [']']

/-- The names that can be written. -/
inductive NameText.IsName : NameText → Prop where
  /-- A bare name consists of name characters, and is not the keyword behind it. -/
  | bare {c : Char} {cs : List Char} : Token.beginsName c = true →
      (∀ e ∈ cs, Token.continuesName e = true) → Text.isKeyword ['A', 'S'] (c :: cs) = false →
      IsName (.bare (c :: cs))
  /-- Quotes are double, single or back quotes. -/
  | quoted {quote : Char} {cs : List Char} : quote ∈ ['"', '\'', '\x60'] →
      IsName (.quoted quote cs)
  /-- The first closing bracket ends a name. -/
  | bracketed {cs : List Char} : ']' ∉ cs → IsName (.bracketed cs)

/-- How a part is spelled; keywords in any case. -/
inductive Part.Spells : Part → List Char → Prop where
  /-- A keyword. -/
  | keyword {word : String} {cs : List Char} : Text.isKeyword word.toList cs = true →
      Spells (.keyword word) cs
  /-- A name. -/
  | name {n : NameText} : n.IsName → Spells (.name n) n.chars
  /-- A mark. -/
  | mark {c : Char} : Spells (.mark c) [c]

/-- How the parts of a head are spelled in front of the rest of a text, with any blanks between
them; there must be some where the characters of two names or words would touch. -/
inductive Spells (rest : List Char) : List Part → List Char → Prop where
  /-- Nothing but the rest. -/
  | nil : Spells rest [] rest
  /-- Blanks, a part, and what follows it. -/
  | cons {x : Part} {xs : List Part} {gap cs tail : List Char} :
      (∀ c ∈ gap, isSpace c = true) → x.Spells cs →
      (∀ c ∈ cs.getLast?, Token.continuesName c = true →
        ∀ e ∈ tail.head?, Token.continuesName e = false) →
      Spells rest xs tail → Spells rest (x :: xs) (gap ++ (cs ++ tail))

/-- The columns of a view in parentheses, if it names any. -/
def columnParts : List NameText → List Part
  | [] => []
  | c :: cs => .mark '(' :: .name c :: cs.flatMap (fun n => [.mark ',', .name n]) ++ [.mark ')']

/-- The parts between the first and the last word of a head. -/
def frontParts (temporary ifNotExists : Bool) (view : NameText) (columns : List NameText) :
    List Part :=
  (if temporary then [.keyword "TEMP"] else []) ++ .keyword "VIEW" ::
    (if ifNotExists then [.keyword "IF", .keyword "NOT", .keyword "EXISTS"] else []) ++
      .name view :: columnParts columns

/-- The head of a statement that creates a view. -/
def headParts (temporary ifNotExists : Bool) (view : NameText) (columns : List NameText) :
    List Part :=
  .keyword "CREATE" :: frontParts temporary ifNotExists view columns ++ [.keyword "AS"]

/-- Whether a word that stands behind the given character has the letters of `AS` in it, with no
letter, digit or underscore beside them. -/
def Hides (before : Option Char) (cs : List Char) : Prop :=
  ∃ front a s back, cs = front ++ a :: s :: back ∧ a.toLower = 'a' ∧ s.toLower = 's' ∧
    (∀ c ∈ front.getLast?.or before, Text.isWordChar c = false) ∧
    ∀ c ∈ back.head?, Text.isWordChar c = false

/-- Whether a name hides an `AS`. -/
def NameText.Hides : NameText → Prop
  | bare cs => ViewText.Hides none cs
  | _ => False

/-! ### Words -/

/-- What stands behind one more character. -/
theorem getLast?_cons_or (c : Char) (cs : List Char) (before : Option Char) :
    (c :: cs).getLast?.or before = cs.getLast?.or (some c) := by
  cases h : cs.getLast? <;> simp [List.getLast?_cons, h]

theorem hides_cons_iff {before : Option Char} {c : Char} {cs : List Char} :
    Hides before (c :: cs) ↔
      ((∀ b ∈ before, Text.isWordChar b = false) ∧ c.toLower = 'a' ∧
        ∃ s back, cs = s :: back ∧ s.toLower = 's' ∧ ∀ e ∈ back.head?, Text.isWordChar e = false) ∨
      Hides (some c) cs := by
  constructor
  · rintro ⟨_ | ⟨d, front⟩, a, s, back, hcs, ha, hs, hfront, hback⟩
    · obtain ⟨rfl, rfl⟩ := List.cons.inj hcs
      exact .inl ⟨by simpa using hfront, ha, s, back, rfl, hs, hback⟩
    · obtain ⟨rfl, rfl⟩ := List.cons.inj hcs
      exact .inr ⟨front, a, s, back, rfl, ha, hs, getLast?_cons_or .. ▸ hfront, hback⟩
  · rintro (⟨hbefore, ha, s, back, rfl, hs, hback⟩ |
      ⟨front, a, s, back, rfl, ha, hs, hfront, hback⟩)
    · exact ⟨[], c, s, back, rfl, ha, hs, by simpa using hbefore, hback⟩
    · exact ⟨c :: front, a, s, back, rfl, ha, hs, (getLast?_cons_or ..).symm ▸ hfront, hback⟩

/-- What stands in front of a word does not matter if it is no word character. -/
theorem hides_congr {before : Option Char} (h : ∀ b ∈ before, Text.isWordChar b = false)
    {cs : List Char} : Hides before cs ↔ Hides none cs := by
  cases cs with
  | nil => simp [Hides]
  | cons c cs =>
    have hnone : ∀ b ∈ (none : Option Char), Text.isWordChar b = false := by simp
    rw [hides_cons_iff, hides_cons_iff, iff_true_intro h, iff_true_intro hnone]

theorem getD_map_eq_false_iff {p : Char → Bool} {o : Option Char} :
    (o.map p).getD false = false ↔ ∀ c ∈ o, p c = false := by
  cases o <;> simp

theorem afterAs?_eq_some_iff {cs rest : List Char} : afterAs? cs = some rest ↔
    ∃ a s, cs = a :: s :: rest ∧ a.toLower = 'a' ∧ s.toLower = 's' ∧
      ∀ c ∈ rest.head?, Text.isWordChar c = false := by
  rw [← getD_map_eq_false_iff]
  constructor
  · intro h
    unfold afterAs? at h
    split at h
    · next a s after =>
      split at h
      · next hword =>
        obtain rfl := Option.some.inj h
        exact ⟨a, s, rfl, hword⟩
      · cases h
    · cases h
  · rintro ⟨a, s, rfl, hword⟩
    rw [afterAs?, if_pos hword]

/-- A character that opens nothing is passed, unless the word `AS` stands there by itself. -/
theorem bodyFrom?_plain_cons {before : Option Char} {c : Char} {cs : List Char}
    (hopen : closing? c = none)
    (hword : (∀ b ∈ before, Text.isWordChar b = false) → afterAs? (c :: cs) = none) :
    bodyFrom? (.plain before) (c :: cs) = bodyFrom? (.plain (some c)) cs := by
  rw [bodyFrom?]
  simp only [hopen]
  split
  · rfl
  · next hbefore =>
    have hnot := getD_map_eq_false_iff.mp (Bool.eq_false_iff.mpr hbefore)
    rw [hword hnot, Option.none_or]

theorem bodyFrom?_plain_as {before : Option Char} {c : Char} {cs rest : List Char}
    (hopen : closing? c = none) (hbefore : ∀ b ∈ before, Text.isWordChar b = false)
    (hword : afterAs? (c :: cs) = some rest) :
    bodyFrom? (.plain before) (c :: cs) = some rest := by
  rw [bodyFrom?]
  simp only [hopen, getD_map_eq_false_iff.mpr hbefore, hword]
  rfl

/-- The quotes and brackets that open a name are no name characters. -/
theorem closing?_of_continuesName {c : Char} (h : Token.continuesName c = true) :
    closing? c = none := by
  unfold closing?
  split <;> first | rfl | exact absurd h (by decide)

/-- A word character is a name character. -/
theorem continuesName_of_isWordChar {c : Char} (h : Text.isWordChar c = true) :
    Token.continuesName c = true := by
  simp only [Text.isWordChar, Char.isAlphanum, Bool.or_eq_true] at h
  simp only [Token.continuesName, Token.beginsName, Bool.or_eq_true]
  tauto

theorem isWordChar_of_not_continuesName {c : Char} (h : Token.continuesName c = false) :
    Text.isWordChar c = false := by
  by_contra hword
  rw [continuesName_of_isWordChar (by simpa using hword)] at h
  cases h

/-- Small letters and capitals are name characters alike. -/
theorem continuesName_of_toLower {c d : Char} (h : c.toLower = d)
    (hd : Token.continuesName d = true) : Token.continuesName c = true := by
  have hseen : Token.continuesName c.toLower = Token.continuesName c :=
    Text.apply_toLower (by decide) c
  rw [← hseen, h, hd]

/-- **A word is passed exactly if it hides no `AS`.** Otherwise the body seems to begin in it. -/
theorem bodyFrom?_word {cs tail : List Char} (hcs : ∀ c ∈ cs, Token.continuesName c = true)
    (htail : ∀ e ∈ tail.head?, Token.continuesName e = false) (before : Option Char) :
    (¬ Hides before cs ∧ bodyFrom? (.plain before) (cs ++ tail) =
        bodyFrom? (.plain (cs.getLast?.or before)) tail) ∨
      (Hides before cs ∧ ∃ more, bodyFrom? (.plain before) (cs ++ tail) = some (more ++ tail)) := by
  induction cs generalizing before with
  | nil =>
    refine .inl ⟨?_, by simp⟩
    rintro ⟨front, a, s, back, hnil, -⟩
    simp at hnil
  | cons c cs ih =>
    have hopen := closing?_of_continuesName (hcs c List.mem_cons_self)
    by_cases hhere : (∀ b ∈ before, Text.isWordChar b = false) ∧ c.toLower = 'a' ∧
        ∃ s back, cs = s :: back ∧ s.toLower = 's' ∧ ∀ e ∈ back.head?, Text.isWordChar e = false
    · obtain ⟨hbefore, ha, s, back, rfl, hs, hback⟩ := hhere
      refine .inr ⟨hides_cons_iff.mpr (.inl ⟨hbefore, ha, s, back, rfl, hs, hback⟩), back, ?_⟩
      refine bodyFrom?_plain_as hopen hbefore (afterAs?_eq_some_iff.mpr ⟨c, s, rfl, ha, hs, ?_⟩)
      cases back with
      | nil => exact fun e he => isWordChar_of_not_continuesName (htail e he)
      | cons e back => simpa using hback
    · have hpass : bodyFrom? (.plain before) (c :: (cs ++ tail)) =
          bodyFrom? (.plain (some c)) (cs ++ tail) := by
        refine bodyFrom?_plain_cons hopen fun hbefore => ?_
        by_contra hword
        obtain ⟨rest, hrest⟩ := Option.ne_none_iff_exists'.mp hword
        obtain ⟨a, s, hsplit, ha, hs, hafter⟩ := afterAs?_eq_some_iff.mp hrest
        have hbehind : cs ++ tail = s :: rest := (List.cons.inj hsplit).2
        rw [← (List.cons.inj hsplit).1] at ha
        cases cs with
        | nil =>
          rw [List.nil_append] at hbehind
          have hname := htail s (by rw [hbehind]; rfl)
          rw [continuesName_of_toLower hs (by decide)] at hname
          cases hname
        | cons d back =>
          have hds : d = s := (List.cons.inj hbehind).1
          have hback : back ++ tail = rest := (List.cons.inj hbehind).2
          refine hhere ⟨hbefore, ha, d, back, rfl, hds ▸ hs, fun e he => hafter e ?_⟩
          rw [← hback, List.head?_append, Option.mem_def.mp he]
          rfl
      rw [hides_cons_iff, or_iff_right hhere, getLast?_cons_or, List.cons_append, hpass]
      exact ih (fun e he => hcs e (List.mem_cons_of_mem c he)) (some c)

/-! ### Parts -/

/-- A word of letters, digits and underscores hides nothing unless it is `AS` itself. -/
theorem not_hides_of_isWordChar {cs : List Char} (hcs : ∀ c ∈ cs, Text.isWordChar c = true)
    (has : Text.isKeyword ['A', 'S'] cs = false) (before : Option Char) : ¬ Hides before cs := by
  rintro ⟨front, a, s, back, rfl, ha, hs, hfront, hback⟩
  have hnil : front = [] := by
    rcases front.eq_nil_or_concat with hnil | ⟨init, last, rfl⟩
    · exact hnil
    · have hlast := hfront last (by simp)
      rw [hcs last (by simp)] at hlast
      cases hlast
  have hend : back = [] := by
    cases back with
    | nil => rfl
    | cons e back =>
      have hhead := hback e rfl
      rw [hcs e (by simp)] at hhead
      cases hhead
  subst hnil hend
  have hupper : ∀ c : Char, c.toLower.toUpper = c.toUpper := Text.toUpper_toLower
  simp [Text.isKeyword, ← hupper a, ← hupper s, ha, hs] at has

/-- The keywords of a head in front of `AS`. -/
def frontKeywords : List String := ["CREATE", "TEMP", "VIEW", "IF", "NOT", "EXISTS"]

/-- The parts that may stand in front of `AS`. -/
def Part.InFront : Part → Prop
  | .keyword word => word ∈ frontKeywords
  | .name _ => True
  | .mark c => c ∈ ['(', ',', ')']

/-- Whether a part is a name that hides an `AS`. -/
def Part.Hides : Part → Prop
  | .name n => n.Hides
  | _ => False

@[simp] theorem Part.hides_keyword (word : String) : ¬ (Part.keyword word).Hides := id

@[simp] theorem Part.hides_mark (c : Char) : ¬ (Part.mark c).Hides := id

@[simp] theorem Part.hides_name {n : NameText} : (Part.name n).Hides ↔ n.Hides := Iff.rfl

theorem isWordChar_of_isKeyword {word : String} (hword : word ∈ frontKeywords) {cs : List Char}
    (h : Text.isKeyword word.toList cs = true) : ∀ c ∈ cs, Text.isWordChar c = true := by
  have hall : ∀ word ∈ frontKeywords, ∀ c ∈ word.toList, Text.isWordChar c = true := by
    simpa using (by decide : (frontKeywords.all fun w => w.toList.all Text.isWordChar) = true)
  intro c hc
  have hseen : Text.isWordChar c.toUpper = Text.isWordChar c := Text.apply_toUpper (by decide) c
  have hmap : cs.map Char.toUpper = word.toList := by simpa [Text.isKeyword] using h
  rw [← hseen]
  exact hall word hword _ (hmap ▸ List.mem_map_of_mem hc)

theorem isKeyword_as_of_mem {word : String} (hword : word ∈ frontKeywords) {cs : List Char}
    (h : Text.isKeyword word.toList cs = true) : Text.isKeyword ['A', 'S'] cs = false := by
  have hall : ∀ word ∈ frontKeywords, (word.toList == ['A', 'S']) = false := by decide
  have hmap : cs.map Char.toUpper = word.toList := by simpa [Text.isKeyword] using h
  rw [Text.isKeyword, hmap, hall word hword]

/-- What stands in front of a word does not run into it. -/
def Apart (before : Option Char) (cs : List Char) : Prop :=
  ∀ b ∈ before, Text.isWordChar b = true → ∀ c ∈ cs.head?, Token.continuesName c = false

/-- A bare word that nothing runs into is passed exactly if it hides no `AS`. -/
theorem bodyFrom?_bare {cs tail : List Char} (hne : cs ≠ [])
    (hcs : ∀ c ∈ cs, Token.continuesName c = true)
    (htail : ∀ c ∈ cs.getLast?, Token.continuesName c = true →
      ∀ e ∈ tail.head?, Token.continuesName e = false)
    {before : Option Char} (hbefore : Apart before cs) :
    (¬ Hides none cs ∧ bodyFrom? (.plain before) (cs ++ tail) =
        bodyFrom? (.plain cs.getLast?) tail) ∨
      (Hides none cs ∧ ∃ more, bodyFrom? (.plain before) (cs ++ tail) = some (more ++ tail)) := by
  have hhead := hcs _ (List.head_mem hne)
  have hlast := hcs _ (List.getLast_mem hne)
  have hfree : ∀ b ∈ before, Text.isWordChar b = false := by
    intro b hb
    by_contra hword
    have hrun := hbefore b hb (by simpa using hword) _ (List.head?_eq_some_head hne)
    rw [hhead] at hrun
    cases hrun
  have hend := htail _ (List.getLast?_eq_some_getLast hne) hlast
  have hword := bodyFrom?_word hcs hend before
  rw [hides_congr hfree, List.getLast?_eq_some_getLast hne, Option.some_or] at hword
  rwa [List.getLast?_eq_some_getLast hne]

theorem bodyFrom?_bracketed {cs : List Char} (hcs : ']' ∉ cs) (tail : List Char) :
    bodyFrom? (.quoted ']') (cs ++ ']' :: tail) = bodyFrom? (.plain (some ']')) tail := by
  induction cs with
  | nil => rfl
  | cons c cs ih =>
    obtain ⟨hc, hcs⟩ := not_or.mp (mt List.mem_cons.mpr hcs)
    rw [List.cons_append, bodyFrom?]
    simp only [if_neg (Ne.symm hc)]
    exact ih hcs

/-- **A part is passed exactly if it is no name that hides an `AS`.** -/
theorem bodyFrom?_part {x : Part} {cs tail : List Char} (hx : x.InFront) (hcs : x.Spells cs)
    (htail : ∀ c ∈ cs.getLast?, Token.continuesName c = true →
      ∀ e ∈ tail.head?, Token.continuesName e = false)
    {before : Option Char} (hbefore : Apart before cs) :
    (¬ x.Hides ∧ bodyFrom? (.plain before) (cs ++ tail) = bodyFrom? (.plain cs.getLast?) tail) ∨
      (x.Hides ∧ ∃ more, bodyFrom? (.plain before) (cs ++ tail) = some (more ++ tail)) := by
  cases hcs with
  | @keyword word cs hkey =>
    have hword := isWordChar_of_isKeyword hx hkey
    have hne : cs ≠ [] := by
      rintro rfl
      have hall : ∀ word ∈ frontKeywords, Text.isKeyword word.toList [] = false := by decide
      rw [hall word hx] at hkey
      cases hkey
    rcases bodyFrom?_bare hne (fun c hc => continuesName_of_isWordChar (hword c hc)) htail
        hbefore with ⟨-, hpass⟩ | ⟨hhides, -⟩
    · exact .inl ⟨id, hpass⟩
    · exact absurd hhides (not_hides_of_isWordChar hword (isKeyword_as_of_mem hx hkey) none)
  | @name n hn =>
    cases hn with
    | @bare c cs hc hcs has =>
      have hname : ∀ e ∈ c :: cs, Token.continuesName e = true :=
        List.forall_mem_cons.mpr ⟨by simp [Token.continuesName, hc], hcs⟩
      exact bodyFrom?_bare (List.cons_ne_nil c cs) hname htail hbefore
    | @quoted quote cs hquote =>
      have hclose : closing? quote = some quote := by
        rcases List.mem_cons.mp hquote with rfl | hquote
        · rfl
        · rcases List.mem_cons.mp hquote with rfl | hquote
          · rfl
          · rw [List.mem_singleton.mp hquote]
            rfl
      refine .inl ⟨id, ?_⟩
      have hlast : (Text.Quoted.encloseChars quote quote cs).getLast? = some quote := by
        rw [Text.Quoted.encloseChars, List.getLast?_concat]
      rw [NameText.chars, hlast, Text.Quoted.encloseChars, List.append_assoc, List.cons_append,
        bodyFrom?]
      simp only [hclose]
      exact bodyFrom?_encode hclose cs tail
    | @bracketed cs hcs =>
      refine .inl ⟨id, ?_⟩
      have hlast : ('[' :: cs ++ [']']).getLast? = some ']' := List.getLast?_concat
      rw [NameText.chars, hlast, List.append_assoc, List.cons_append, bodyFrom?]
      exact bodyFrom?_bracketed hcs tail
  | @mark c =>
    have hmark : closing? c = none ∧ c.toLower ≠ 'a' := by
      have hall : ∀ c ∈ ['(', ',', ')'], closing? c = none ∧ c.toLower ≠ 'a' := by
        simp only [List.forall_mem_cons, List.not_mem_nil, false_implies, implies_true]
        decide
      exact hall c hx
    refine .inl ⟨id, bodyFrom?_plain_cons hmark.1 fun _ => ?_⟩
    by_contra hword
    obtain ⟨rest, hrest⟩ := Option.ne_none_iff_exists'.mp hword
    obtain ⟨a, s, hsplit, ha, -⟩ := afterAs?_eq_some_iff.mp hrest
    exact hmark.2 ((List.cons.inj hsplit).1 ▸ ha)

/-! ### Heads -/

theorem isKeyword_as_iff {cs : List Char} : Text.isKeyword ['A', 'S'] cs = true ↔
    ∃ a s, cs = [a, s] ∧ a.toLower = 'a' ∧ s.toLower = 's' := by
  have hlower : ∀ c : Char, c.toUpper.toLower = c.toLower := Text.toLower_toUpper
  have hupper : ∀ c : Char, c.toLower.toUpper = c.toUpper := Text.toUpper_toLower
  rw [Text.isKeyword, beq_iff_eq]
  constructor
  · intro h
    obtain ⟨a, as, rfl, ha, has⟩ := List.map_eq_cons_iff.mp h
    obtain ⟨s, ss, rfl, hs, hss⟩ := List.map_eq_cons_iff.mp has
    obtain rfl := List.map_eq_nil_iff.mp hss
    exact ⟨a, s, rfl, by rw [← hlower, ha]; decide, by rw [← hlower, hs]; decide⟩
  · rintro ⟨a, s, rfl, ha, hs⟩
    rw [List.map_cons, List.map_cons, List.map_nil, ← hupper a, ← hupper s, ha, hs]
    decide

/-- Blanks are passed. -/
theorem bodyFrom?_spaces {gap : List Char} (hgap : ∀ c ∈ gap, isSpace c = true)
    (before : Option Char) (cs : List Char) :
    bodyFrom? (.plain before) (gap ++ cs) = bodyFrom? (.plain (gap.getLast?.or before)) cs := by
  induction gap generalizing before with
  | nil => simp
  | cons c gap ih =>
    have hblank : Text.isBlank c = true := by
      have hspace := hgap c List.mem_cons_self
      simp only [isSpace, Bool.and_eq_true] at hspace
      exact hspace.1
    have hopen : closing? c = none := by
      unfold closing?
      split <;> first | rfl | exact absurd hblank (by decide)
    have hpass : bodyFrom? (.plain before) (c :: (gap ++ cs)) =
        bodyFrom? (.plain (some c)) (gap ++ cs) := by
      refine bodyFrom?_plain_cons hopen fun _ => ?_
      by_contra hword
      obtain ⟨rest, hrest⟩ := Option.ne_none_iff_exists'.mp hword
      obtain ⟨a, s, hsplit, ha, -⟩ := afterAs?_eq_some_iff.mp hrest
      rw [← (List.cons.inj hsplit).1] at ha
      rw [← Text.isBlank_toLower, ha] at hblank
      exact absurd hblank (by decide)
    rw [List.cons_append, hpass, getLast?_cons_or]
    exact ih (fun e he => hgap e (List.mem_cons_of_mem c he)) (some c)

/-- Nothing runs into what stands behind blanks. -/
theorem Apart.behind_spaces {gap cs tail : List Char} (hgap : ∀ c ∈ gap, isSpace c = true)
    {before : Option Char} (h : Apart before (gap ++ (cs ++ tail))) :
    Apart (gap.getLast?.or before) cs := by
  intro b hb hword c hc
  rcases gap.eq_nil_or_concat with rfl | ⟨init, last, rfl⟩
  · refine h b (by simpa using hb) hword c ?_
    rw [List.nil_append, List.head?_append, Option.mem_def.mp hc]
    rfl
  · obtain rfl : last = b := by simpa using hb
    have hspace := hgap last (by simp)
    simp only [isSpace, Bool.and_eq_true, Bool.not_eq_true'] at hspace
    rw [isWordChar_of_not_continuesName hspace.2] at hword
    cases hword

variable {rest text : List Char} {xs : List Part}

/-- The last part of a head is the word `AS`, and the body is what follows it. -/
theorem Spells.exists_as (h : Spells rest [.keyword "AS"] text) :
    ∃ gap a s, text = gap ++ ([a, s] ++ rest) ∧ (∀ c ∈ gap, isSpace c = true) ∧
      a.toLower = 'a' ∧ s.toLower = 's' ∧ ∀ e ∈ rest.head?, Token.continuesName e = false := by
  cases h with
  | @cons _ _ gap cs tail hgap hcs hapart hrest =>
  cases hrest
  cases hcs with
  | keyword hkey =>
  obtain ⟨a, s, rfl, ha, hs⟩ := isKeyword_as_iff.mp hkey
  exact ⟨gap, a, s, rfl, hgap, ha, hs, hapart s rfl (continuesName_of_toLower hs (by decide))⟩

theorem isBlank_of_toLower {c d : Char} (h : c.toLower = d) (hd : Text.isBlank d = false) :
    Text.isBlank c = false := by
  rw [← Text.isBlank_toLower, h, hd]

/-- A head is not blank. -/
theorem Spells.exists_front (h : Spells rest (xs ++ [.keyword "AS"]) text) :
    ∃ front, text = front ++ rest ∧ ∃ c ∈ front, Text.isBlank c = false := by
  induction xs generalizing text with
  | nil =>
    obtain ⟨gap, a, s, rfl, -, ha, -, -⟩ := h.exists_as
    exact ⟨gap ++ [a, s], (List.append_assoc ..).symm, a, by simp,
      isBlank_of_toLower ha (by decide)⟩
  | cons x xs ih =>
    cases h with
    | @cons _ _ gap cs tail hgap hcs hapart hrest =>
    obtain ⟨front, rfl, c, hc, hblank⟩ := ih hrest
    exact ⟨gap ++ (cs ++ front), by simp, c, by simp [hc], hblank⟩

/-- **A head is passed exactly if none of its names hides an `AS`.** Otherwise the body seems to
begin within it. -/
theorem Spells.bodyFrom?_eq (hxs : ∀ x ∈ xs, x.InFront)
    (h : Spells rest (xs ++ [.keyword "AS"]) text) {before : Option Char}
    (hbefore : Apart before text) :
    ((∀ x ∈ xs, ¬ x.Hides) ∧ bodyFrom? (.plain before) text = some rest) ∨
      ((∃ x ∈ xs, x.Hides) ∧ ∃ more, bodyFrom? (.plain before) text = some (more ++ rest) ∧
        ∃ c ∈ more, Text.isBlank c = false) := by
  induction xs generalizing text before with
  | nil =>
    obtain ⟨gap, a, s, rfl, hgap, ha, hs, hrest⟩ := h.exists_as
    have hname : ∀ {c d : Char}, c.toLower = d → Token.continuesName d = true →
        closing? c = none := fun hc hd => closing?_of_continuesName (continuesName_of_toLower hc hd)
    have hfree := hbefore.behind_spaces hgap
    refine .inl ⟨by simp, ?_⟩
    rw [bodyFrom?_spaces hgap]
    refine bodyFrom?_plain_as (hname ha (by decide)) (fun b hb => ?_)
      (afterAs?_eq_some_iff.mpr ⟨a, s, rfl, ha, hs, fun e he => ?_⟩)
    · by_contra hword
      have hrun := hfree b hb (by simpa using hword) a rfl
      rw [continuesName_of_toLower ha (by decide)] at hrun
      cases hrun
    · exact isWordChar_of_not_continuesName (hrest e he)
  | cons x xs ih =>
    obtain ⟨hx, hxs⟩ := List.forall_mem_cons.mp hxs
    cases h with
    | @cons _ _ gap cs tail hgap hcs hapart hrest =>
    rw [bodyFrom?_spaces hgap]
    rcases bodyFrom?_part hx hcs hapart (hbefore.behind_spaces hgap) with
      ⟨hfree, hpass⟩ | ⟨hhides, more, hmore⟩
    · have hbehind : Apart cs.getLast? tail := fun b hb hword =>
        hapart b hb (continuesName_of_isWordChar hword)
      rw [hpass]
      rcases ih hxs hrest hbehind with ⟨hnone, hfound⟩ | ⟨⟨y, hy, hhides⟩, hmore⟩
      · exact .inl ⟨List.forall_mem_cons.mpr ⟨hfree, hnone⟩, hfound⟩
      · exact .inr ⟨⟨y, List.mem_cons_of_mem x hy, hhides⟩, hmore⟩
    · obtain ⟨front, rfl, c, hc, hblank⟩ := hrest.exists_front
      refine .inr ⟨⟨x, List.mem_cons_self, hhides⟩, more ++ front, ?_, c, ?_, hblank⟩
      · rw [hmore, List.append_assoc]
      · exact List.mem_append_right more hc

/-! ### Trimmed heads -/

/-- A head is left as it is where the body behind it is trimmed. -/
theorem Spells.trimRight (h : Spells rest (xs ++ [.keyword "AS"]) text) :
    Spells (Text.trimRight rest) (xs ++ [.keyword "AS"]) (Text.trimRight text) := by
  induction xs generalizing text with
  | nil =>
    obtain ⟨gap, a, s, rfl, hgap, ha, hs, hrest⟩ := h.exists_as
    have htrim := Text.trimRight_concat_append (isBlank_of_toLower hs (by decide)) (gap ++ [a]) rest
    have hsplit : ∀ cs : List Char, gap ++ [a] ++ [s] ++ cs = gap ++ ([a, s] ++ cs) := by simp
    rw [hsplit, hsplit] at htrim
    rw [htrim]
    refine .cons hgap (.keyword (isKeyword_as_iff.mpr ⟨a, s, rfl, ha, hs⟩)) ?_ .nil
    exact fun _ _ _ e he => hrest e (Text.head?_of_trimRight he)
  | cons x xs ih =>
    cases h with
    | @cons _ _ gap cs tail hgap hcs hapart hrest =>
    have htail := ih hrest
    obtain ⟨front, htext, c, hc, hblank⟩ := hrest.exists_front
    have hmem : c ∈ tail := htext ▸ List.mem_append_left rest hc
    have htrim : Text.trimRight (gap ++ (cs ++ tail)) = gap ++ (cs ++ Text.trimRight tail) := by
      rw [← List.append_assoc, Text.trimRight_append_of_mem hmem hblank, List.append_assoc]
    rw [htrim]
    exact .cons hgap hcs (fun d hd hname e he => hapart d hd hname e (Text.head?_of_trimRight he))
      htail

/-- A trimmed head begins with its first keyword. -/
theorem Spells.trimLeft (h : Spells rest (.keyword "CREATE" :: xs) text) :
    Spells rest (.keyword "CREATE" :: xs) (Text.trimLeft text) ∧
      beginsWithCreate (Text.trimLeft text) = true := by
  cases h with
  | @cons _ _ gap cs tail hgap hcs hapart hrest =>
  cases hcs with
  | keyword hkey =>
  have hmap : cs.map Char.toUpper = "CREATE".toList := by simpa [Text.isKeyword] using hkey
  obtain ⟨c, more, rfl, hc, -⟩ := List.map_eq_cons_iff.mp hmap
  have hblank : Text.isBlank c = false := by
    rw [← Text.isBlank_toUpper, hc]
    decide
  have hdrop : Text.trimLeft (gap ++ (c :: more ++ tail)) = c :: more ++ tail := by
    rw [Text.trimLeft, List.dropWhile_append_of_pos, List.cons_append,
      List.dropWhile_cons_of_neg (by simp [hblank])]
    intro e he
    have hspace := hgap e he
    simp only [isSpace, Bool.and_eq_true] at hspace
    exact hspace.1
  have hlength : (c :: more).length = 6 := by
    rw [← List.length_map Char.toUpper, hmap]
    rfl
  rw [hdrop]
  have hnil : ∀ c ∈ ([] : List Char), isSpace c = true := by simp
  refine ⟨.cons hnil (.keyword hkey) hapart hrest, ?_⟩
  rw [beginsWithCreate, ← hlength, List.take_left]
  exact hkey

/-- **The body is found exactly if no name in front of it hides an `AS`.** -/
theorem body_eq_trim_iff {sql : String} (hxs : ∀ x ∈ xs, x.InFront)
    (h : Spells rest (.keyword "CREATE" :: xs ++ [.keyword "AS"]) sql.toList) :
    body sql = Text.trim (String.ofList rest) ↔ ∀ x ∈ xs, ¬ x.Hides := by
  have hfront : ∀ x ∈ Part.keyword "CREATE" :: xs, x.InFront :=
    List.forall_mem_cons.mpr ⟨List.mem_cons_self, hxs⟩
  obtain ⟨hspells, hcreate⟩ := h.trimRight.trimLeft
  have hapart : Apart none (Text.trimLeft (Text.trimRight sql.toList)) := by simp [Apart]
  have hscan := hspells.bodyFrom?_eq hfront hapart
  rw [Text.trimLeft_trimRight] at hscan hcreate
  have hbody : ∀ more, bodyFrom? (.plain none) (Text.trimChars sql.toList) = some more →
      body sql = String.ofList (Text.trimLeft more) := by
    intro more hmore
    simp only [body, hcreate, hmore, if_true]
  have htrim : Text.trim (String.ofList rest) =
      String.ofList (Text.trimLeft (Text.trimRight rest)) := by
    rw [Text.trim, String.toList_ofList, Text.trimLeft_trimRight]
  rw [htrim]
  rcases hscan with ⟨hnone, hfound⟩ | ⟨hhides, more, hfound, c, hc, hblank⟩
  · exact iff_of_true (hbody _ hfound) (List.forall_mem_cons.mp hnone).2
  · refine iff_of_false ?_ ?_
    · obtain ⟨hsplit, hmore⟩ :=
        Text.trimLeft_append_of_mem hc hblank (Text.trimRight rest)
      rw [hbody _ hfound, hsplit, String.ofList_inj]
      intro heq
      have hlength := congrArg List.length heq
      have hle : (Text.trimLeft (Text.trimRight rest)).length ≤ (Text.trimRight rest).length :=
        (List.dropWhile_suffix _).length_le
      have hpos := List.length_pos_iff.mpr hmore
      rw [List.length_append] at hlength
      omega
    · intro hnone
      obtain ⟨x, hx, hhides⟩ := hhides
      rcases List.mem_cons.mp hx with rfl | hx
      · exact hhides
      · exact hnone x hx hhides

/-! ### Any text -/

theorem bodyFrom?_suffix {place : Place} {cs found : List Char}
    (h : bodyFrom? place cs = some found) : found <:+ cs := by
  induction cs generalizing place with
  | nil => cases h
  | cons c cs ih =>
    have hrest : ∀ {place : Place}, bodyFrom? place cs = some found → found <:+ c :: cs :=
      fun hplace => (ih hplace).trans (List.suffix_cons c cs)
    cases place with
    | quoted close => exact hrest h
    | plain before =>
      rw [bodyFrom?] at h
      split at h
      · exact hrest h
      · split at h
        · exact hrest h
        · rcases Option.or_eq_some_iff.mp h with hword | ⟨-, hlater⟩
          · obtain ⟨a, s, hsplit, -⟩ := afterAs?_eq_some_iff.mp hword
            exact ⟨[a, s], hsplit.symm⟩
          · exact hrest hlater

/-- What is taken for the body is the end of the trimmed text. -/
theorem body_suffix (sql : String) : (body sql).toList <:+ Text.trimChars sql.toList := by
  rw [body]
  simp only [String.toList_ofList]
  split
  · split
    · next found hfound => exact (List.dropWhile_suffix _).trans (bodyFrom?_suffix hfound)
    · exact List.suffix_refl _
  · exact List.suffix_refl _

/-! ### Bytes -/

/-- The bytes of characters. -/
def utf8 (cs : List Char) : List UInt8 := cs.flatMap String.utf8EncodeChar

/-- The byte that closes what the given one opens. -/
def closingByte? (b : UInt8) : Option UInt8 :=
  if b = 0x22 ∨ b = 0x60 ∨ b = 0x27 then some b else if b = 0x5B then some 0x5D else none

/-- Whether a byte is an ASCII letter, a digit or an underscore. -/
def isWordByte (b : UInt8) : Bool :=
  (0x30 ≤ b && b ≤ 0x39) || (0x41 ≤ b && b ≤ 0x5A) || (0x61 ≤ b && b ≤ 0x7A) || b == 0x5F

/-- Whether the bytes begin with the word `AS`, with the rest behind it. -/
def afterAsBytes? : List UInt8 → Option (List UInt8)
  | a :: s :: rest =>
    if (a = 0x61 ∨ a = 0x41) ∧ (s = 0x73 ∨ s = 0x53) ∧
        (rest.head?.map isWordByte).getD false = false then
      some rest
    else none
  | _ => none

/-- Where a scanner over bytes stands. -/
inductive BytePlace where
  /-- In plain text, behind the given byte. -/
  | plain (before : Option UInt8)
  /-- Inside quotes that the given byte closes. -/
  | quoted (close : UInt8)

/-- What follows the first word `AS` outside quotes, for a scanner over bytes in the given place. -/
def bodyFromBytes? (place : BytePlace) : List UInt8 → Option (List UInt8)
  | [] => none
  | b :: rest =>
    match place with
    | .quoted close => bodyFromBytes? (if b = close then .plain (some b) else .quoted close) rest
    | .plain before =>
      match closingByte? b with
      | some close => bodyFromBytes? (.quoted close) rest
      | none =>
        if (before.map isWordByte).getD false then bodyFromBytes? (.plain (some b)) rest
        else (afterAsBytes? (b :: rest)).or (bodyFromBytes? (.plain (some b)) rest)

/-- The byte of an ASCII character. -/
def byteOf (c : Char) : UInt8 := UInt8.ofNat c.toNat

theorem utf8EncodeChar_of_lt {c : Char} (h : c.toNat < 128) :
    String.utf8EncodeChar c = [byteOf c] := by
  have hle : c.val.toNat ≤ 127 := Nat.le_of_lt_succ h
  rw [String.utf8EncodeChar]
  simp only [hle, if_true]
  rfl

/-- No byte of another character is an ASCII byte. -/
theorem le_of_mem_utf8EncodeChar {c : Char} (h : 128 ≤ c.toNat) {b : UInt8}
    (hb : b ∈ String.utf8EncodeChar c) : 128 ≤ b.toNat := by
  have hnot : ¬ c.val.toNat ≤ 127 := Nat.not_le.mpr h
  rw [String.utf8EncodeChar] at hb
  simp only [if_neg hnot] at hb
  split at hb
  · simp only [List.mem_cons, List.not_mem_nil, or_false] at hb
    rcases hb with rfl | rfl <;> simp <;> omega
  · split at hb
    · simp only [List.mem_cons, List.not_mem_nil, or_false] at hb
      rcases hb with rfl | rfl | rfl <;> simp <;> omega
    · simp only [List.mem_cons, List.not_mem_nil, or_false] at hb
      rcases hb with rfl | rfl | rfl | rfl <;> simp <;> omega

/-- What the scanners look for is the same for an ASCII character and its byte. -/
theorem byteOf_spec {c : Char} (h : c.toNat < 128) :
    closingByte? (byteOf c) = (closing? c).map byteOf ∧
      isWordByte (byteOf c) = Text.isWordChar c ∧
      ((byteOf c = 0x61 ∨ byteOf c = 0x41) ↔ c.toLower = 'a') ∧
      ((byteOf c = 0x73 ∨ byteOf c = 0x53) ↔ c.toLower = 's') := by
  have hall : ∀ n < 128, let c := Char.ofNat n
      closingByte? (byteOf c) = (closing? c).map byteOf ∧
        isWordByte (byteOf c) = Text.isWordChar c ∧
        ((byteOf c = 0x61 ∨ byteOf c = 0x41) ↔ c.toLower = 'a') ∧
        ((byteOf c = 0x73 ∨ byteOf c = 0x53) ↔ c.toLower = 's') := by decide +kernel
  have hc := hall c.toNat h
  rwa [Char.ofNat_toNat] at hc

/-- No other byte is looked for. -/
theorem highByte_spec {b : UInt8} (h : 128 ≤ b.toNat) :
    closingByte? b = none ∧ isWordByte b = false ∧ ¬ (b = 0x61 ∨ b = 0x41) ∧
      ¬ (b = 0x73 ∨ b = 0x53) := by
  have hall : ∀ n < 256, 128 ≤ n → closingByte? (UInt8.ofNat n) = none ∧
      isWordByte (UInt8.ofNat n) = false ∧ ¬ (UInt8.ofNat n = 0x61 ∨ UInt8.ofNat n = 0x41) ∧
      ¬ (UInt8.ofNat n = 0x73 ∨ UInt8.ofNat n = 0x53) := by decide +kernel
  have hb := hall b.toNat b.toNat_lt h
  rwa [UInt8.ofNat_toNat] at hb

/-- No other character is looked for. -/
theorem highChar_spec {c : Char} (h : 128 ≤ c.toNat) :
    closing? c = none ∧ Text.isWordChar c = false ∧ c.toLower ≠ 'a' ∧ c.toLower ≠ 's' := by
  have hfold : c.toLower = c := by
    rcases Text.mem_capitals_or_toLower_eq c with hc | hc
    · have hall : ∀ c ∈ Text.capitals, c.toNat < 128 := by
        simpa using (by decide : (Text.capitals.all (·.toNat < 128)) = true)
      exact absurd (hall c hc) (by omega)
    · exact hc
  have hne : ∀ d : Char, d.toNat < 128 → c ≠ d := by
    rintro d hd rfl
    omega
  rw [hfold]
  refine ⟨?_, ?_, hne 'a' (by decide), hne 's' (by decide)⟩
  · unfold closing?
    split <;> first | rfl | exact absurd rfl (hne _ (by decide))
  · by_contra hword
    have hlow : c.toNat < 128 := by
      simp only [Bool.not_eq_false, Text.isWordChar, Char.isAlphanum] at hword
      delta Char.isAlpha Char.isUpper Char.isLower at hword
      simp only [Char.isDigit, Bool.or_eq_true, Bool.and_eq_true, decide_eq_true_eq, beq_iff_eq,
        UInt32.le_iff_toNat_le] at hword
      rcases hword with ((⟨-, hle⟩ | ⟨-, hle⟩) | ⟨-, hle⟩) | rfl
      · exact Nat.lt_of_le_of_lt hle (by decide)
      · exact Nat.lt_of_le_of_lt hle (by decide)
      · exact Nat.lt_of_le_of_lt hle (by decide)
      · decide
    omega

/-- The places of the two scanners that belong together. -/
inductive SamePlace : Place → BytePlace → Prop where
  /-- In plain text, both behind a word or none of them. -/
  | plain {before : Option Char} {b : Option UInt8} :
      (b.map isWordByte).getD false = (before.map Text.isWordChar).getD false →
      SamePlace (.plain before) (.plain b)
  /-- Inside of quotes that the same character closes. -/
  | quoted {close : Char} : close.toNat < 128 → SamePlace (.quoted close) (.quoted (byteOf close))

theorem utf8_cons (c : Char) (cs : List Char) :
    utf8 (c :: cs) = String.utf8EncodeChar c ++ utf8 cs := List.flatMap_cons

/-- The character that follows is a word character exactly if the byte that follows is one. -/
theorem isWordByte_head?_utf8 (cs : List Char) :
    ((utf8 cs).head?.map isWordByte).getD false = (cs.head?.map Text.isWordChar).getD false := by
  cases cs with
  | nil => rfl
  | cons c cs =>
    rw [utf8_cons]
    by_cases h : c.toNat < 128
    · rw [utf8EncodeChar_of_lt h]
      exact (byteOf_spec h).2.1
    · have hhigh : 128 ≤ c.toNat := Nat.not_lt.mp h
      obtain ⟨b, bs, hbs⟩ := List.exists_cons_of_ne_nil (String.utf8EncodeChar_ne_nil (c := c))
      have hb : b ∈ String.utf8EncodeChar c := hbs ▸ List.mem_cons_self
      rw [hbs]
      exact (highByte_spec (le_of_mem_utf8EncodeChar hhigh hb)).2.1.trans
        (highChar_spec hhigh).2.1.symm

theorem afterAsBytes?_utf8 {c : Char} (h : c.toNat < 128) (cs : List Char) :
    afterAsBytes? (byteOf c :: utf8 cs) = (afterAs? (c :: cs)).map utf8 := by
  cases cs with
  | nil => rfl
  | cons d ds =>
    by_cases hd : d.toNat < 128
    · rw [utf8_cons, utf8EncodeChar_of_lt hd, List.singleton_append, afterAsBytes?, afterAs?,
        isWordByte_head?_utf8]
      simp only [(byteOf_spec h).2.2.1, (byteOf_spec hd).2.2.2]
      split <;> rfl
    · have hhigh : 128 ≤ d.toNat := Nat.not_lt.mp hd
      obtain ⟨b, bs, hbs⟩ := List.exists_cons_of_ne_nil (String.utf8EncodeChar_ne_nil (c := d))
      have hb : b ∈ String.utf8EncodeChar d := hbs ▸ List.mem_cons_self
      have hbyte := (highByte_spec (le_of_mem_utf8EncodeChar hhigh hb)).2.2.2
      rw [utf8_cons, hbs, List.cons_append, afterAsBytes?, if_neg fun hword => hbyte hword.2.1,
        afterAs?, if_neg fun hword => (highChar_spec hhigh).2.2.2 hword.2.1]
      rfl

/-- The bytes of a character that is not ASCII are passed. -/
theorem bodyFromBytes?_high {bs : List UInt8} (hbs : ∀ b ∈ bs, 128 ≤ b.toNat) (tail : List UInt8) :
    (∀ close : UInt8, close.toNat < 128 →
      bodyFromBytes? (.quoted close) (bs ++ tail) = bodyFromBytes? (.quoted close) tail) ∧
    ∀ before, bodyFromBytes? (.plain before) (bs ++ tail) =
      bodyFromBytes? (.plain (bs.getLast?.or before)) tail := by
  induction bs with
  | nil => simp
  | cons b bs ih =>
    obtain ⟨hb, hrest⟩ := List.forall_mem_cons.mp hbs
    obtain ⟨hquoted, hplain⟩ := ih hrest
    constructor
    · intro close hclose
      have hne : b ≠ close := by
        rintro rfl
        omega
      rw [List.cons_append, bodyFromBytes?]
      simp only [if_neg hne]
      exact hquoted close hclose
    · intro before
      obtain ⟨hopen, -, ha, -⟩ := highByte_spec hb
      have hword : afterAsBytes? (b :: (bs ++ tail)) = none := by
        unfold afterAsBytes?
        split
        · next a s rest hsplit =>
          rw [(List.cons.inj hsplit).1] at ha
          rw [if_neg fun h => ha h.1]
        · rfl
      have hlast : (b :: bs).getLast?.or before = bs.getLast?.or (some b) := by
        cases h : bs.getLast? <;> simp [List.getLast?_cons, h]
      rw [List.cons_append, bodyFromBytes?]
      simp only [hopen, hword, Option.none_or, ite_self, hlast]
      exact hplain (some b)

theorem byteOf_eq_iff {c d : Char} (hc : c.toNat < 128) (hd : d.toNat < 128) :
    byteOf c = byteOf d ↔ c = d := by
  refine ⟨fun h => ?_, congrArg byteOf⟩
  have hbyte : ∀ {e : Char}, e.toNat < 128 → (byteOf e).toNat = e.toNat := by
    intro e he
    rw [byteOf, UInt8.toNat_ofNat', Nat.mod_eq_of_lt (by omega)]
  have hnat : c.toNat = d.toNat := by rw [← hbyte hc, h, hbyte hd]
  rw [← Char.ofNat_toNat c, hnat, Char.ofNat_toNat]

theorem lt_of_closing? {c close : Char} (h : closing? c = some close) : close.toNat < 128 := by
  unfold closing? at h
  split at h <;> first | cases h; decide | cases h

/-- **The scanner over bytes finds the same body**, and so it never stops inside a character. -/
theorem bodyFromBytes?_utf8 (cs : List Char) {place : Place} {place' : BytePlace}
    (h : SamePlace place place') :
    bodyFromBytes? place' (utf8 cs) = (bodyFrom? place cs).map utf8 := by
  induction cs generalizing place place' with
  | nil => rfl
  | cons c cs ih =>
    by_cases hc : c.toNat < 128
    · obtain ⟨hclosing, hword, -, -⟩ := byteOf_spec hc
      have hnext : SamePlace (.plain (some c)) (.plain (some (byteOf c))) := .plain hword
      rw [utf8_cons, utf8EncodeChar_of_lt hc, List.singleton_append]
      cases h with
      | @quoted close hclose =>
        rw [bodyFromBytes?, bodyFrom?]
        by_cases heq : c = close
        · simp only [heq, if_true]
          exact ih (heq ▸ hnext)
        · simp only [if_neg heq, if_neg (mt (byteOf_eq_iff hc hclose).mp heq)]
          exact ih (.quoted hclose)
      | @plain before b hbefore =>
        rw [bodyFromBytes?, bodyFrom?, hclosing, hbefore, afterAsBytes?_utf8 hc]
        cases hopen : closing? c with
        | some close => exact ih (.quoted (lt_of_closing? hopen))
        | none =>
          simp only [Option.map_none]
          split
          · exact ih hnext
          · rw [ih hnext, Option.map_or]
    · have hhigh : 128 ≤ c.toNat := Nat.not_lt.mp hc
      obtain ⟨hopen, hword, ha, -⟩ := highChar_spec hhigh
      obtain ⟨hquoted, hplain⟩ :=
        bodyFromBytes?_high (fun b hb => le_of_mem_utf8EncodeChar hhigh hb) (utf8 cs)
      rw [utf8_cons]
      cases h with
      | @quoted close hclose =>
        have hne : c ≠ close := by
          rintro rfl
          omega
        rw [hquoted (byteOf close) (by simpa [byteOf] using by omega), bodyFrom?]
        simp only [if_neg hne]
        exact ih (.quoted hclose)
      | @plain before b hbefore =>
        have hpass : bodyFrom? (.plain before) (c :: cs) = bodyFrom? (.plain (some c)) cs := by
          refine bodyFrom?_plain_cons hopen fun _ => ?_
          by_contra hsome
          obtain ⟨rest, hrest⟩ := Option.ne_none_iff_exists'.mp hsome
          obtain ⟨a, s, hsplit, has, -⟩ := afterAs?_eq_some_iff.mp hrest
          exact ha ((List.cons.inj hsplit).1 ▸ has)
        have hlast := List.getLast_mem (String.utf8EncodeChar_ne_nil (c := c))
        have hbyte := (highByte_spec (le_of_mem_utf8EncodeChar hhigh hlast)).2.1
        rw [hplain, hpass,
          List.getLast?_eq_some_getLast (String.utf8EncodeChar_ne_nil (c := c)), Option.some_or]
        exact ih (.plain (hbyte.trans hword.symm))

theorem inFront_of_mem_columnParts {columns : List NameText} {x : Part}
    (hx : x ∈ columnParts columns) : x.InFront := by
  cases columns with
  | nil => cases hx
  | cons n columns =>
    simp only [columnParts, List.cons_append, List.mem_cons, List.mem_append, List.mem_flatMap,
      List.not_mem_nil, or_false] at hx
    rcases hx with rfl | rfl | ⟨m, -, rfl | rfl⟩ | rfl <;> simp [Part.InFront]

theorem inFront_of_mem_frontParts {temporary ifNotExists : Bool} {view : NameText}
    {columns : List NameText} {x : Part}
    (hx : x ∈ frontParts temporary ifNotExists view columns) : x.InFront := by
  have hkeyword : ∀ words ⊆ frontKeywords, ∀ x ∈ words.map Part.keyword, x.InFront := by
    intro words hwords x hx
    obtain ⟨word, hword, rfl⟩ := List.mem_map.mp hx
    exact hwords hword
  simp only [frontParts, List.mem_append, List.mem_cons] at hx
  rcases hx with (hx | rfl | hx) | rfl | hx
  · cases temporary with
    | true => exact hkeyword ["TEMP"] (by decide) x hx
    | false => cases hx
  · exact hkeyword ["VIEW"] (by decide) _ List.mem_cons_self
  · cases ifNotExists with
    | true => exact hkeyword ["IF", "NOT", "EXISTS"] (by decide) x hx
    | false => cases hx
  · trivial
  · exact inFront_of_mem_columnParts hx

/-- Only names hide anything. -/
theorem forall_not_hides_frontParts_iff {temporary ifNotExists : Bool} {view : NameText}
    {columns : List NameText} :
    (∀ x ∈ frontParts temporary ifNotExists view columns, ¬ x.Hides) ↔
      ∀ n ∈ view :: columns, ¬ n.Hides := by
  have hcolumns : (∀ x ∈ columnParts columns, ¬ x.Hides) ↔ ∀ n ∈ columns, ¬ n.Hides := by
    cases columns with
    | nil => simp [columnParts]
    | cons n columns =>
      have hrest : (∀ x ∈ columns.flatMap fun m => [Part.mark ',', .name m], ¬ x.Hides) ↔
          ∀ m ∈ columns, ¬ m.Hides := by
        rw [List.forall_mem_flatMap]
        simp
      rw [columnParts, List.forall_mem_append, List.forall_mem_cons, List.forall_mem_cons, hrest,
        List.forall_mem_cons]
      simp
  have hkeywords : ∀ x ∈ (if temporary then [Part.keyword "TEMP"] else []) ++ .keyword "VIEW" ::
      (if ifNotExists then [.keyword "IF", .keyword "NOT", .keyword "EXISTS"] else []),
      ¬ x.Hides := by
    cases temporary <;> cases ifNotExists <;> simp
  rw [frontParts, List.forall_mem_append, List.forall_mem_cons, List.forall_mem_cons, hcolumns]
  exact ⟨fun h => h.2, fun h => ⟨hkeywords, h⟩⟩

end ViewText

namespace LiveView

open ViewText

/-- **When the body of a view is found.** In every statement that creates a view it is found,
trimmed, exactly if no bare name of the view or of its columns hides an `AS`. Of any text whatsoever
an end of the trimmed text is taken, and a scanner over its bytes stops between two characters. -/
theorem ofStatement_finds (name sql : String) :
    (∀ (temporary ifNotExists : Bool) (view : NameText) (columns : List NameText)
      (rest : List Char), Spells rest (headParts temporary ifNotExists view columns) sql.toList →
        ((ofStatement name sql).definition = Text.trim (String.ofList rest) ↔
          ∀ n ∈ view :: columns, ¬ n.Hides)) ∧
      (ofStatement name sql).definition.toList <:+ Text.trimChars sql.toList ∧
      ∀ cs, bodyFromBytes? (.plain none) (utf8 cs) = (bodyFrom? (.plain none) cs).map utf8 := by
  refine ⟨?_, body_suffix sql, fun cs => bodyFromBytes?_utf8 cs (.plain rfl)⟩
  intro temporary ifNotExists view columns rest h
  have hparts : (∀ x ∈ frontParts temporary ifNotExists view columns, ¬ x.Hides) ↔
      ∀ n ∈ view :: columns, ¬ n.Hides := forall_not_hides_frontParts_iff
  rw [← hparts]
  exact body_eq_trim_iff (fun x hx => inFront_of_mem_frontParts hx) h

/-- In `x$as` the word seems to stand by itself, and the body seems to begin behind it. -/
theorem ofStatement_finds_dollar :
    Spells " SELECT 1".toList (headParts false false (.bare ['x', '$', 'a', 's']) [])
        "CREATE VIEW x$as AS SELECT 1".toList ∧
      (ofStatement "x$as" "CREATE VIEW x$as AS SELECT 1").definition ≠
        Text.trim (String.ofList " SELECT 1".toList) := by
  have htext : "CREATE VIEW x$as AS SELECT 1".toList =
      [] ++ (['C', 'R', 'E', 'A', 'T', 'E'] ++ ([' '] ++ (['V', 'I', 'E', 'W'] ++
        ([' '] ++ ((NameText.bare ['x', '$', 'a', 's']).chars ++
          ([' '] ++ (['A', 'S'] ++ " SELECT 1".toList))))))) := by
    decide +kernel
  have hspells : Spells " SELECT 1".toList
      (headParts false false (.bare ['x', '$', 'a', 's']) [])
      "CREATE VIEW x$as AS SELECT 1".toList := by
    rw [htext]
    have hblank : ∀ c ∈ [' '], isSpace c = true := List.all_eq_true.mp rfl
    have hbehind : ∀ cs : List Char, ∀ e ∈ ([' '] ++ cs).head?, Token.continuesName e = false := by
      simp [Token.continuesName, Token.beginsName]
    have hname : (NameText.bare ['x', '$', 'a', 's']).IsName :=
      .bare (by decide) (List.all_eq_true.mp rfl) (by decide)
    refine .cons (by simp) (.keyword (by decide)) (fun _ _ _ => hbehind _) ?_
    refine .cons hblank (.keyword (by decide)) (fun _ _ _ => hbehind _) ?_
    refine .cons hblank (.name hname) (fun _ _ _ => hbehind _) ?_
    exact .cons hblank (.keyword (by decide)) (fun _ _ _ => hbehind _) .nil
  refine ⟨hspells, fun hfound => ?_⟩
  have hnone := ((ofStatement_finds "x$as" _).1 false false _ [] _ hspells).mp hfound
  have hdollar : ∀ c ∈ ['x', '$'].getLast?.or none, Text.isWordChar c = false := by
    simpa using (by decide : Text.isWordChar '$' = false)
  exact hnone _ List.mem_cons_self
    ⟨['x', '$'], 'a', 's', [], rfl, by decide, by decide, hdollar, by simp⟩

end LiveView

end EntitySql
