import EntitySql.Proofs.Catalog.Report
import EntitySql.Proofs.Migration.Respelling

/-!
# Comparable forms of native types

Two native types are compared by their forms, so a form has to be one: it must be its own form, or a
type would differ from itself once it has been read back. What a form leaves out is what databases
report in more than one way. For PostgreSQL and SQL Server that is the case of letters, the blanks
between words, and everything from the first parenthesis on; the size of a type is there, so a size
never makes a type another one. SQLite knows a type by its affinity only.

Affinities are said here by themselves, as five rules of which the first that applies decides. The
words of a rule may stand anywhere in a type, also inside of other words: a `POINT` is an integer.

## Main definitions

* `Text.Mentions`: a word occurs in a text, whatever its case
* `Affinity.Applies`, `Affinity.Decides`: the rules and their order
* `Dialect.NormalizesTypes`, `Dialect.NormalizesWords`: what a comparable form is

## Main results

* `Text.words_append_gap`: blanks separate words, however many there are
* `baseType_baseType`, `baseType_append_arguments`, `baseType_respaced`: what a base type leaves out
* `Affinity.ofType_eq_iff`: the affinity is that of the first rule that applies
* `Dialect.normalizes_of_shipped`: the forms of the three databases
-/

namespace EntitySql

namespace Text

/-! ### Words -/

/-- Blanks end the word that is being read, if there is one. -/
theorem wordsFrom_gap {gap : List Char} (hgap : ∀ c ∈ gap, isBlank c = true) (hne : gap ≠ [])
    (word cs : List Char) : wordsFrom word (gap ++ cs) = wordsFrom word [] ++ words cs := by
  induction gap generalizing word with
  | nil => exact absurd rfl hne
  | cons c gap ih =>
    have hblank : isBlank c = true := hgap c List.mem_cons_self
    have hrest : wordsFrom [] (gap ++ cs) = words cs := by
      by_cases hnil : gap = []
      · rw [hnil, List.nil_append, words]
      · exact ih (fun d hd => hgap d (List.mem_cons_of_mem c hd)) hnil []
    have hread : wordsFrom word (c :: (gap ++ cs)) =
        if word.isEmpty then wordsFrom [] (gap ++ cs)
        else word.reverse :: wordsFrom [] (gap ++ cs) := by
      rw [wordsFrom, if_pos hblank]
    rw [List.cons_append, hread, hrest, wordsFrom]
    split <;> rfl

theorem wordsFrom_append_gap {gap : List Char} (hgap : ∀ c ∈ gap, isBlank c = true) (hne : gap ≠ [])
    (word before after : List Char) :
    wordsFrom word (before ++ (gap ++ after)) = wordsFrom word before ++ words after := by
  induction before generalizing word with
  | nil => exact wordsFrom_gap hgap hne word after
  | cons c before ih =>
    rw [List.cons_append, wordsFrom, wordsFrom, ih, ih]
    split
    · split <;> rfl
    · rfl

/-- **Blanks separate words**, however many there are. -/
theorem words_append_gap {gap : List Char} (hgap : ∀ c ∈ gap, isBlank c = true) (hne : gap ≠ [])
    (before after : List Char) : words (before ++ (gap ++ after)) = words before ++ words after :=
  wordsFrom_append_gap hgap hne [] before after

/-- Blanks at the ends belong to no word. -/
theorem words_surrounded {lead trail : List Char} (hlead : ∀ c ∈ lead, isBlank c = true)
    (htrail : ∀ c ∈ trail, isBlank c = true) (cs : List Char) :
    words (lead ++ (cs ++ trail)) = words cs := by
  have hend : words (cs ++ trail) = words cs := by
    by_cases hnil : trail = []
    · rw [hnil, List.append_nil]
    · have happend := words_append_gap htrail hnil cs []
      rw [List.append_nil] at happend
      rw [happend]
      exact List.append_nil _
  by_cases hnil : lead = []
  · rw [hnil, List.nil_append, hend]
  · exact (wordsFrom_gap hlead hnil [] (cs ++ trail)).trans hend

/-- What is read as one word. -/
structure IsWord (w : List Char) : Prop where
  /-- A word has a character. -/
  ne_nil : w ≠ []
  /-- It has no blanks. -/
  not_blank : ∀ c ∈ w, isBlank c = false

theorem wordsFrom_word {w : List Char} (hw : ∀ c ∈ w, isBlank c = false) (word cs : List Char) :
    wordsFrom word (w ++ cs) = wordsFrom (w.reverse ++ word) cs := by
  induction w generalizing word with
  | nil => rfl
  | cons c w ih =>
    have hc : isBlank c = false := hw c List.mem_cons_self
    rw [List.cons_append, wordsFrom, if_neg (by simp [hc]),
      ih fun d hd => hw d (List.mem_cons_of_mem c hd)]
    simp

theorem IsWord.words_eq {w : List Char} (hw : IsWord w) : words w = [w] := by
  have hread := wordsFrom_word hw.not_blank [] []
  rw [List.append_nil, List.append_nil] at hread
  rw [words, hread, wordsFrom, List.isEmpty_reverse, if_neg (by simpa using hw.ne_nil),
    List.reverse_reverse]

/-- Words with single blanks between them are read as these words. -/
theorem words_intercalate {ws : List (List Char)} (hws : ∀ w ∈ ws, IsWord w) :
    words ([' '].intercalate ws) = ws := by
  induction ws with
  | nil => rfl
  | cons w ws ih =>
    have hw := (hws w List.mem_cons_self).words_eq
    have hrest := ih fun v hv => hws v (List.mem_cons_of_mem w hv)
    cases ws with
    | nil => simpa using hw
    | cons v ws =>
      have hblank : ∀ c ∈ [' '], isBlank c = true := List.all_eq_true.mp rfl
      rw [List.intercalate_cons_cons, List.append_assoc,
        words_append_gap hblank (List.cons_ne_nil _ _), hw, hrest]
      rfl

/-- Each word that is read is one, and it has characters of the text only. -/
theorem isWord_of_mem_wordsFrom {word cs w : List Char} (hword : ∀ c ∈ word, isBlank c = false)
    (hw : w ∈ wordsFrom word cs) : IsWord w ∧ ∀ c ∈ w, c ∈ word ∨ c ∈ cs := by
  have hopen : ¬ word.isEmpty = true → IsWord word.reverse := fun hne =>
    ⟨by simpa using hne, fun c hc => hword c (List.mem_reverse.mp hc)⟩
  induction cs generalizing word with
  | nil =>
    rw [wordsFrom] at hw
    split at hw
    · cases hw
    · next hne =>
      obtain rfl := List.mem_singleton.mp hw
      exact ⟨hopen hne, fun c hc => .inl (List.mem_reverse.mp hc)⟩
  | cons c cs ih =>
    rw [wordsFrom] at hw
    have hbehind : w ∈ wordsFrom [] cs → IsWord w ∧ ∀ e ∈ w, e ∈ word ∨ e ∈ c :: cs := by
      intro hmem
      have hnil : ∀ c ∈ ([] : List Char), isBlank c = false := by simp
      obtain ⟨hisWord, hfrom⟩ := ih hnil hmem (by simp)
      refine ⟨hisWord, fun e he => ?_⟩
      rcases hfrom e he with hnil | hcs
      · cases hnil
      · exact .inr (List.mem_cons_of_mem c hcs)
    split at hw
    · split at hw
      · exact hbehind hw
      · next hne =>
        rcases List.mem_cons.mp hw with rfl | hmem
        · exact ⟨hopen hne, fun e he => .inl (List.mem_reverse.mp he)⟩
        · exact hbehind hmem
    · next hblank =>
      have hnext : ∀ e ∈ c :: word, isBlank e = false := by
        intro e he
        rcases List.mem_cons.mp he with rfl | hin
        · simpa using hblank
        · exact hword e hin
      obtain ⟨hisWord, hfrom⟩ := ih hnext hw fun _ =>
        ⟨by simp, fun e he => hnext e (List.mem_reverse.mp he)⟩
      refine ⟨hisWord, fun e he => ?_⟩
      rcases hfrom e he with hmem | hcs
      · rcases List.mem_cons.mp hmem with rfl | hin
        · exact .inr List.mem_cons_self
        · exact .inl hin
      · exact .inr (List.mem_cons_of_mem c hcs)

theorem isWord_of_mem_words {cs w : List Char} (hw : w ∈ words cs) :
    IsWord w ∧ ∀ c ∈ w, c ∈ cs := by
  obtain ⟨hisWord, hfrom⟩ := isWord_of_mem_wordsFrom (by simp) hw
  exact ⟨hisWord, fun c hc => (hfrom c hc).resolve_left List.not_mem_nil⟩

/-! ### Mentioned words -/

/-- A word occurs in a text, whatever the case of its letters and whatever stands around it. -/
def Mentions (s word : String) : Prop :=
  ∃ before found after, s = before ++ found ++ after ∧ sameName found word = true

theorem mentions_iff {s word : String} (hword : word.toList.map Char.toUpper = word.toList) :
    Mentions s word ↔ occursIn word.toList (upperAscii s).toList = true := by
  rw [occursIn_iff, upperAscii, String.toList_ofList]
  constructor
  · rintro ⟨before, found, after, rfl, hsame⟩
    refine ⟨before.toList.map Char.toUpper, after.toList.map Char.toUpper, ?_⟩
    rw [← hword, ← map_toUpper_eq_iff.mpr (sameName_iff.mp hsame)]
    simp
  · rintro ⟨before, after, hsplit⟩
    obtain ⟨front, back, hs, hfront, -⟩ := List.map_eq_append_iff.mp hsplit.symm
    obtain ⟨first, found, rfl, -, hfound⟩ := List.map_eq_append_iff.mp hfront
    refine ⟨String.ofList first, String.ofList found, String.ofList back, ?_, ?_⟩
    · rw [← String.ofList_append, ← String.ofList_append, ← hs, String.ofList_toList]
    · rw [sameName_iff, foldCase, foldCase, String.toList_ofList]
      exact map_toUpper_eq_iff.mp (hfound.trans hword.symm)

end Text

/-! ### Affinities -/

namespace Affinity

/-- The rule by which a declared type has an affinity, if no rule before it applies. -/
def Applies (s : String) : Affinity → Prop
  | integer => Text.Mentions s "INT"
  | text => Text.Mentions s "CHAR" ∨ Text.Mentions s "CLOB" ∨ Text.Mentions s "TEXT"
  | blob => Text.Mentions s "BLOB" ∨ ∀ c ∈ s.toList, Text.isBlank c = true
  | real => Text.Mentions s "REAL" ∨ Text.Mentions s "FLOA" ∨ Text.Mentions s "DOUB"
  | numeric => True

/-- The affinities in the order of their rules. -/
def ruleOrder : List Affinity := [integer, text, blob, real, numeric]

/-- The rule of the affinity applies, and none before it does. -/
def Decides (s : String) (a : Affinity) : Prop :=
  ∃ earlier later, ruleOrder = earlier ++ a :: later ∧ (∀ b ∈ earlier, ¬ Applies s b) ∧
    Applies s a

theorem decides_unique {s : String} {a b : Affinity} (ha : Decides s a) (hb : Decides s b) :
    a = b := by
  obtain ⟨as, as', hsplit, hnone, happlies⟩ := ha
  obtain ⟨bs, bs', hsplit', hnone', happlies'⟩ := hb
  rcases List.append_eq_append_iff.mp (hsplit.symm.trans hsplit') with
    ⟨_ | ⟨c, cs⟩, rfl, heq⟩ | ⟨_ | ⟨c, cs⟩, rfl, heq⟩
  · exact (List.cons.inj heq).1
  · obtain rfl := (List.cons.inj heq).1
    exact absurd happlies (hnone' _ (by simp))
  · exact (List.cons.inj heq).1.symm
  · obtain rfl := (List.cons.inj heq).1
    exact absurd happlies' (hnone _ (by simp))

/-- The affinity of a declared type is that of the first rule that applies. -/
theorem decides_ofType (s : String) : Decides s (ofType s) := by
  have hmentions : ∀ word : String, word.toList.map Char.toUpper = word.toList →
      (occursIn word.toList (Text.upperAscii s).toList = true ↔ Text.Mentions s word) :=
    fun word hword => (Text.mentions_iff hword).symm
  have hblank : (Text.upperAscii s).toList.all Text.isBlank = true ↔
      ∀ c ∈ s.toList, Text.isBlank c = true := by
    simp [Text.upperAscii, Text.isBlank_toUpper]
  have hint := hmentions "INT" (by decide)
  have htext : ((occursIn "CHAR".toList (Text.upperAscii s).toList ||
      occursIn "CLOB".toList (Text.upperAscii s).toList) ||
      occursIn "TEXT".toList (Text.upperAscii s).toList) = true ↔ Applies s text := by
    rw [Bool.or_eq_true, Bool.or_eq_true, hmentions "CHAR" (by decide),
      hmentions "CLOB" (by decide), hmentions "TEXT" (by decide), or_assoc]
    rfl
  have hblob : (occursIn "BLOB".toList (Text.upperAscii s).toList ||
      (Text.upperAscii s).toList.all Text.isBlank) = true ↔ Applies s blob := by
    rw [Bool.or_eq_true, hmentions "BLOB" (by decide), hblank]
    rfl
  have hreal : ((occursIn "REAL".toList (Text.upperAscii s).toList ||
      occursIn "FLOA".toList (Text.upperAscii s).toList) ||
      occursIn "DOUB".toList (Text.upperAscii s).toList) = true ↔ Applies s real := by
    rw [Bool.or_eq_true, Bool.or_eq_true, hmentions "REAL" (by decide),
      hmentions "FLOA" (by decide), hmentions "DOUB" (by decide), or_assoc]
    rfl
  rw [ofType]
  by_cases h₁ : Applies s integer
  · rw [if_pos (hint.mpr h₁)]
    exact ⟨[], [text, blob, real, numeric], rfl, by simp, h₁⟩
  rw [if_neg (mt hint.mp h₁)]
  by_cases h₂ : Applies s text
  · rw [if_pos (htext.mpr h₂)]
    exact ⟨[integer], [blob, real, numeric], rfl, by simp [h₁], h₂⟩
  rw [if_neg (mt htext.mp h₂)]
  by_cases h₃ : Applies s blob
  · rw [if_pos (hblob.mpr h₃)]
    exact ⟨[integer, text], [real, numeric], rfl, by simp [h₁, h₂], h₃⟩
  rw [if_neg (mt hblob.mp h₃)]
  by_cases h₄ : Applies s real
  · rw [if_pos (hreal.mpr h₄)]
    exact ⟨[integer, text, blob], [numeric], rfl, by simp [h₁, h₂, h₃], h₄⟩
  rw [if_neg (mt hreal.mp h₄)]
  exact ⟨[integer, text, blob, real], [], rfl, by simp [h₁, h₂, h₃, h₄], trivial⟩

/-- **The affinity is that of the first rule that applies.** -/
theorem ofType_eq_iff {s : String} {a : Affinity} : ofType s = a ↔ Decides s a :=
  ⟨fun h => h ▸ decides_ofType s, fun h => decides_unique (decides_ofType s) h⟩

theorem name_injective {a b : Affinity} (h : a.name = b.name) : a = b := by
  cases a <;> cases b <;> first | rfl | exact absurd h (by decide)

theorem ofType_name (a : Affinity) : ofType a.name = a := by
  cases a <;> decide +kernel

end Affinity

/-! ### Base types -/

theorem intercalate_map (f : Char → Char) {ws : List (List Char)} (hf : f ' ' = ' ') :
    [' '].intercalate (ws.map (·.map f)) = ([' '].intercalate ws).map f := by
  induction ws with
  | nil => rfl
  | cons w ws ih =>
    cases ws with
    | nil => simp
    | cons v ws => simpa [List.intercalate_cons_cons, hf] using ih

theorem toList_baseType (s : String) : (baseType s).toList =
    [' '].intercalate ((Text.words (s.toList.takeWhile (· != '('))).map (·.map Char.toUpper)) := by
  simp [baseType, Text.upperAscii, intercalate_map]

/-- The words of a base type are those of the type, in capitals. -/
theorem isWord_of_mem_baseWords {s : String} {w : List Char}
    (hw : w ∈ (Text.words (s.toList.takeWhile (· != '('))).map (·.map Char.toUpper)) :
    Text.IsWord w ∧ '(' ∉ w := by
  obtain ⟨v, hv, rfl⟩ := List.mem_map.mp hw
  obtain ⟨hisWord, hfrom⟩ := Text.isWord_of_mem_words hv
  refine ⟨⟨by simpa using hisWord.ne_nil, fun c hc => ?_⟩, fun hparen => ?_⟩
  · obtain ⟨e, he, rfl⟩ := List.mem_map.mp hc
    rw [Text.isBlank_toUpper, hisWord.not_blank e he]
  · obtain ⟨e, he, hupper⟩ := List.mem_map.mp hparen
    have hseen : (e.toUpper == '(') = (e == '(') :=
      Text.apply_toUpper (f := fun e => e == '(') (by decide) e
    have hnot : (e != '(') = true := List.mem_takeWhile_imp (p := (· != '(')) (hfrom e he)
    rw [hupper] at hseen
    simp [← hseen, bne] at hnot

theorem mem_intercalate_blank {c : Char} {ws : List (List Char)} (h : c ∈ [' '].intercalate ws) :
    c = ' ' ∨ ∃ w ∈ ws, c ∈ w := by
  induction ws with
  | nil => cases h
  | cons w ws ih =>
    cases ws with
    | nil => exact .inr ⟨w, List.mem_cons_self, by simpa using h⟩
    | cons v ws =>
      rw [List.intercalate_cons_cons, List.mem_append, List.mem_append] at h
      rcases h with (hw | hblank) | hrest
      · exact .inr ⟨w, List.mem_cons_self, hw⟩
      · exact .inl (List.mem_singleton.mp hblank)
      · rcases ih hrest with hblank | ⟨x, hx, hcx⟩
        · exact .inl hblank
        · exact .inr ⟨x, List.mem_cons_of_mem w hx, hcx⟩

/-- A base type has no parenthesis. -/
theorem takeWhile_baseType (s : String) :
    (baseType s).toList.takeWhile (· != '(') = (baseType s).toList := by
  rw [List.takeWhile_eq_self_iff]
  intro c hc
  rw [toList_baseType] at hc
  rcases mem_intercalate_blank hc with rfl | ⟨w, hw, hcw⟩
  · rfl
  · have hne : c ≠ '(' := fun heq => (isWord_of_mem_baseWords hw).2 (heq ▸ hcw)
    simpa using hne

/-- **A base type is its own base type.** -/
theorem baseType_baseType (s : String) : baseType (baseType s) = baseType s := by
  have hagain : ∀ w : List Char, (w.map Char.toUpper).map Char.toUpper = w.map Char.toUpper := by
    intro w
    rw [List.map_map]
    exact List.map_congr_left fun c _ => Text.toUpper_toUpper c
  refine String.toList_inj.mp ?_
  rw [toList_baseType (baseType s), takeWhile_baseType, toList_baseType s,
    Text.words_intercalate fun w hw => (isWord_of_mem_baseWords hw).1, List.map_map]
  exact congrArg _ (List.map_congr_left fun w _ => hagain w)

/-- **What follows a parenthesis is left out.** -/
theorem baseType_append_arguments (s arguments : String) :
    baseType (s ++ "(" ++ arguments) = baseType s := by
  have hhead : ∀ cs ds : List Char, (cs ++ '(' :: ds).takeWhile (· != '(') =
      cs.takeWhile (· != '(') := by
    intro cs ds
    induction cs with
    | nil => rfl
    | cons c cs ih =>
      rw [List.cons_append, List.takeWhile_cons, List.takeWhile_cons, ih]
  have hlist : (s ++ "(" ++ arguments).toList = s.toList ++ '(' :: arguments.toList := by simp
  simp only [baseType, hlist, hhead]

/-- In front of a parenthesis the words decide, and behind it nothing does. -/
theorem baseType_congr_words {a b : String}
    (h : Text.words (a.toList.takeWhile (· != '(')) = Text.words (b.toList.takeWhile (· != '('))) :
    baseType a = baseType b := by
  simp only [baseType, h]

theorem ne_paren_of_blank {gap : String} (hgap : ∀ c ∈ gap.toList, Text.isBlank c = true) :
    ∀ c ∈ gap.toList, (c != '(') = true := by
  intro c hc
  have hne : c ≠ '(' := by
    rintro rfl
    exact absurd (hgap _ hc) (by decide)
  simpa using hne

/-- Blanks at the ends are left out. -/
theorem baseType_surrounded {lead trail : String}
    (hlead : ∀ c ∈ lead.toList, Text.isBlank c = true)
    (htrail : ∀ c ∈ trail.toList, Text.isBlank c = true) (s : String) :
    baseType (lead ++ s ++ trail) = baseType s := by
  refine baseType_congr_words ?_
  rw [String.toList_append, String.toList_append, List.append_assoc,
    List.takeWhile_append_of_pos (ne_paren_of_blank hlead), List.takeWhile_append]
  split
  · next hwhole =>
    have hall : s.toList.takeWhile (· != '(') = s.toList :=
      (List.takeWhile_prefix _).eq_of_length hwhole
    have hbehind : trail.toList.takeWhile (· != '(') = trail.toList :=
      List.takeWhile_eq_self_iff.mpr (ne_paren_of_blank htrail)
    rw [hall, hbehind]
    exact Text.words_surrounded hlead htrail s.toList
  · have hnil : ∀ c ∈ ([] : List Char), Text.isBlank c = true := by simp
    have hnone := Text.words_surrounded hlead hnil (s.toList.takeWhile (· != '('))
    rwa [List.append_nil] at hnone

/-- **Blanks between two words count once**, however many and whichever they are. -/
theorem baseType_respaced {gap gap' : String} (hgap : ∀ c ∈ gap.toList, Text.isBlank c = true)
    (hgap' : ∀ c ∈ gap'.toList, Text.isBlank c = true) (hne : gap ≠ "") (hne' : gap' ≠ "")
    (before after : String) :
    baseType (before ++ gap ++ after) = baseType (before ++ gap' ++ after) := by
  have hwords : ∀ {g : String}, (∀ c ∈ g.toList, Text.isBlank c = true) → g ≠ "" →
      Text.words ((before ++ g ++ after).toList.takeWhile (· != '(')) =
        Text.words (before.toList.takeWhile (· != '(')) ++
          if (before.toList.takeWhile (· != '(')).length = before.toList.length then
            Text.words (after.toList.takeWhile (· != '(')) else [] := by
    intro g hg hnonempty
    have hnil : g.toList ≠ [] := by simpa using hnonempty
    rw [String.toList_append, String.toList_append, List.append_assoc, List.takeWhile_append,
      List.takeWhile_append_of_pos (ne_paren_of_blank hg)]
    split
    · next hwhole =>
      have hall : before.toList.takeWhile (· != '(') = before.toList :=
        (List.takeWhile_prefix _).eq_of_length hwhole
      rw [Text.words_append_gap hg hnil, hall]
    · rw [List.append_nil]
  exact baseType_congr_words ((hwords hgap hne).trans (hwords hgap' hne').symm)

/-! ### The forms of the databases -/

/-- The comparable form of a native type is its own form, it does not depend on the case of letters,
and a size changes nothing in it. -/
structure Dialect.NormalizesTypes (d : Dialect) : Prop where
  /-- A form is its own form. -/
  idempotent : ∀ s, d.normalType (d.normalType s) = d.normalType s
  /-- The case of ASCII letters does not matter. -/
  folded : ∀ a b, Text.sameName a b = true → d.normalType a = d.normalType b
  /-- A column type is one native type, whatever its size. -/
  resized : ∀ type m n, d.sameType (d.nativeType type m) (d.nativeType type n) = true

/-- The comparable form of a native type is made of the words in front of the first parenthesis. -/
structure Dialect.NormalizesWords (d : Dialect) : Prop where
  /-- Arguments are left out. -/
  arguments : ∀ s arguments, d.normalType (s ++ "(" ++ arguments) = d.normalType s
  /-- So are blanks at the ends. -/
  surrounded : ∀ lead s trail : String, (∀ c ∈ lead.toList, Text.isBlank c = true) →
    (∀ c ∈ trail.toList, Text.isBlank c = true) → d.normalType (lead ++ s ++ trail) = d.normalType s
  /-- Blanks between words count once. -/
  respaced : ∀ before gap gap' after : String, (∀ c ∈ gap.toList, Text.isBlank c = true) →
    (∀ c ∈ gap'.toList, Text.isBlank c = true) → gap ≠ "" → gap' ≠ "" →
    d.normalType (before ++ gap ++ after) = d.normalType (before ++ gap' ++ after)

/-- What a base type leaves out, every form leaves out that is computed from it. -/
theorem Dialect.normalizesWords_of_baseType {d : Dialect}
    (h : ∀ a b, baseType a = baseType b → d.normalType a = d.normalType b) : d.NormalizesWords where
  arguments s arguments := h _ _ (baseType_append_arguments s arguments)
  surrounded _ s _ hlead htrail := h _ _ (baseType_surrounded hlead htrail s)
  respaced before _ _ after hgap hgap' hne hne' :=
    h _ _ (baseType_respaced hgap hgap' hne hne' before after)

/-- What an alias stands for is no alias. -/
theorem Postgres.normalType_normalType (s : String) : normalType (normalType s) = normalType s := by
  rw [normalType.eq_def s]
  split
  any_goals decide +kernel
  -- where the base type is no alias
  simp only [normalType, baseType_baseType]

theorem SqlServer.normalType_normalType (s : String) :
    normalType (normalType s) = normalType s := by
  rw [normalType.eq_def s]
  split
  any_goals decide +kernel
  simp only [normalType, baseType_baseType]

/-- Only texts have a size. -/
theorem Postgres.nativeType_cases (type : ColumnType) (size : Option UInt32) :
    nativeType type size = nativeType type none ∨
      nativeType type none = "TEXT" ∧
        ∃ arguments, nativeType type size = "VARCHAR" ++ "(" ++ arguments := by
  have hsized : ∀ n : UInt32,
      s!"VARCHAR({n.toNat})" = "VARCHAR" ++ "(" ++ (n.toNat.repr ++ ")") := by
    intro n
    refine String.toList_inj.mp ?_
    simp [toString]
  cases size with
  | none => exact .inl rfl
  | some n =>
    cases type with
    | text => exact .inr ⟨rfl, _, hsized n⟩
    | custom name => exact .inr ⟨rfl, _, hsized n⟩
    | _ => exact .inl rfl

theorem SqlServer.nativeType_cases (type : ColumnType) (size : Option UInt32) :
    nativeType type size = nativeType type none ∨
      nativeType type none = "NVARCHAR(MAX)" ∧
        ∃ arguments, nativeType type size = "NVARCHAR" ++ "(" ++ arguments := by
  have hsized : ∀ n : UInt32,
      s!"NVARCHAR({n.toNat})" = "NVARCHAR" ++ "(" ++ (n.toNat.repr ++ ")") := by
    intro n
    refine String.toList_inj.mp ?_
    simp [toString]
  cases size with
  | none => exact .inl rfl
  | some n =>
    cases type with
    | text => exact .inr ⟨rfl, _, hsized n⟩
    | custom name => exact .inr ⟨rfl, _, hsized n⟩
    | _ => exact .inl rfl

/-- With any size a type is what it is without one. -/
theorem Postgres.normalType_nativeType (type : ColumnType) (size : Option UInt32) :
    normalType (nativeType type size) = normalType (nativeType type none) := by
  rcases nativeType_cases type size with hsame | ⟨hnone, arguments, hsized⟩
  · rw [hsame]
  · have hbase : baseType (nativeType type size) = "VARCHAR" := by
      rw [hsized, baseType_append_arguments]
      decide +kernel
    rw [normalType, hbase, hnone]
    decide +kernel

theorem SqlServer.normalType_nativeType (type : ColumnType) (size : Option UInt32) :
    normalType (nativeType type size) = normalType (nativeType type none) := by
  rcases nativeType_cases type size with hsame | ⟨hnone, arguments, hsized⟩
  · rw [hsame]
  · have hbase : baseType (nativeType type size) = "NVARCHAR" := by
      rw [hsized, baseType_append_arguments]
      decide +kernel
    rw [normalType, hbase, hnone]
    decide +kernel

theorem Dialect.sameType_iff {d : Dialect} {a b : String} :
    d.sameType a b = true ↔ d.normalType a = d.normalType b := by
  rw [sameType, beq_iff_eq]

theorem Dialect.normalType_sqlite (s : String) :
    Dialect.sqlite.normalType s = (Affinity.ofType s).name := rfl

theorem Dialect.normalType_postgres : Dialect.postgres.normalType = Postgres.normalType := by
  rw [postgres]

theorem Dialect.normalType_sqlServer : Dialect.sqlServer.normalType = SqlServer.normalType := by
  rw [sqlServer]

theorem Dialect.normalizesTypes_sqlite : Dialect.sqlite.NormalizesTypes where
  idempotent s := by rw [normalType_sqlite, normalType_sqlite, Affinity.ofType_name]
  folded _ _ h := normalType_congr (d := sqlite) (by simp [mem_shipped]) h
  resized _ _ _ := sameType_iff.mpr rfl

theorem Dialect.normalizesTypes_postgres : Dialect.postgres.NormalizesTypes where
  idempotent s := by
    simp only [normalType_postgres, Postgres.normalType_normalType]
  folded _ _ h := normalType_congr (d := postgres) (by simp [mem_shipped]) h
  resized type m n := by
    rw [sameType_iff, normalType_postgres]
    exact (Postgres.normalType_nativeType type m).trans (Postgres.normalType_nativeType type n).symm

theorem Dialect.normalizesTypes_sqlServer : Dialect.sqlServer.NormalizesTypes where
  idempotent s := by
    simp only [normalType_sqlServer, SqlServer.normalType_normalType]
  folded _ _ h := normalType_congr (d := sqlServer) (by simp [mem_shipped]) h
  resized type m n := by
    rw [sameType_iff, normalType_sqlServer]
    exact (SqlServer.normalType_nativeType type m).trans
      (SqlServer.normalType_nativeType type n).symm

theorem Dialect.normalizesWords_postgres : Dialect.postgres.NormalizesWords := by
  refine normalizesWords_of_baseType fun a b h => ?_
  rw [normalType_postgres, Postgres.normalType, Postgres.normalType, h]

theorem Dialect.normalizesWords_sqlServer : Dialect.sqlServer.NormalizesWords := by
  refine normalizesWords_of_baseType fun a b h => ?_
  rw [normalType_sqlServer, SqlServer.normalType, SqlServer.normalType, h]

/-- **The comparable forms of native types.** Every database has one form for each type, that of
PostgreSQL and of SQL Server is made of words, and that of SQLite is the affinity of the first rule
that applies. -/
theorem Dialect.normalizes_of_shipped :
    (∀ d ∈ shipped, d.NormalizesTypes) ∧
      (∀ d ∈ shipped, d ≠ sqlite → d.NormalizesWords) ∧
      ∀ s a, sqlite.normalType s = a.name ↔ Affinity.Decides s a := by
  refine ⟨?_, ?_, ?_⟩
  · intro d hd
    rcases mem_shipped.mp hd with rfl | rfl | rfl
    · exact normalizesTypes_sqlite
    · exact normalizesTypes_postgres
    · exact normalizesTypes_sqlServer
  · intro d hd hother
    rcases mem_shipped.mp hd with rfl | rfl | rfl
    · exact absurd rfl hother
    · exact normalizesWords_postgres
    · exact normalizesWords_sqlServer
  · intro s a
    rw [normalType_sqlite, ← Affinity.ofType_eq_iff]
    exact ⟨Affinity.name_injective, congrArg Affinity.name⟩

/-- The size of a text is no part of its type, and a `POINT` is an integer. -/
theorem Dialect.normalizes_of_shipped_point :
    postgres ∈ shipped ∧ postgres ≠ sqlite ∧
      postgres.normalType "varchar(20)" = postgres.normalType "varchar" ∧
      Affinity.Decides "POINT" .integer := by
  have hmem : postgres ∈ shipped := by simp [mem_shipped]
  have hne : postgres ≠ sqlite := fun h => absurd (congrArg Dialect.name h) (by decide +kernel)
  refine ⟨hmem, hne, (normalizes_of_shipped.2.1 postgres hmem hne).arguments "varchar" "20)", ?_⟩
  refine (normalizes_of_shipped.2.2 "POINT" .integer).mp ?_
  decide +kernel

end EntitySql
