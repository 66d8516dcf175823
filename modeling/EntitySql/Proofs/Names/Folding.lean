import EntitySql.Proofs.Names
import EntitySql.Text.Blank

/-!
# Folding the case of ASCII letters

Names are the same when folding the case of their ASCII letters makes them equal. What is computed
from a text and does not see that folding is therefore the same for names that are the same. For
what looks at one character at a time this is a matter of 26 letters; the exception is the
lower-case form of a sigma, which looks at the letters around it, but only for whether they have a
case at all.

## Main definitions

* `Text.capitals`: the letters that folding changes
* `Text.smallLetters`: the letters that are made capitals

## Main results

* `Text.apply_toLower`: what does not see the capitals folded, sees no character folded
* `Text.apply_toUpper`: the same for the small letters made capitals
* `Text.lowercase_congr`: names that are the same have one lower-case form
* `Text.words_map_toLower`: folding does not move the bounds of words
* `Text.upperAscii_congr`: names that are the same are the same in capitals
-/

namespace EntitySql.Text

/-- The ASCII capitals. -/
def capitals : List Char := (List.range 26).map fun i => Char.ofNat (65 + i)

/-- A character is a capital, or folding leaves it alone. -/
theorem mem_capitals_or_toLower_eq (c : Char) : c ∈ capitals ∨ c.toLower = c := by
  by_cases h : 'A' ≤ c ∧ c ≤ 'Z'
  · refine .inl (List.mem_map.mpr ⟨c.toNat - 65, ?_, ?_⟩)
    · have hle : c.toNat ≤ 90 := UInt32.le_iff_toNat_le.mp h.2
      rw [List.mem_range]
      omega
    · have hle : 65 ≤ c.toNat := UInt32.le_iff_toNat_le.mp h.1
      rw [Nat.add_sub_cancel' hle, Char.ofNat_toNat]
  · refine .inr ?_
    delta Char.toLower
    exact dif_neg h

/-- **What does not see the capitals folded, sees no character folded.** -/
theorem apply_toLower {α : Type} {f : Char → α}
    (h : capitals.map (fun c => f c.toLower) = capitals.map f) (c : Char) : f c.toLower = f c := by
  rcases mem_capitals_or_toLower_eq c with hc | hc
  · exact List.map_inj_left.mp h c hc
  · rw [hc]

theorem toUpper_toLower (c : Char) : c.toLower.toUpper = c.toUpper :=
  apply_toLower (by decide) c

theorem isBlank_toLower (c : Char) : isBlank c.toLower = isBlank c :=
  apply_toLower (by decide) c

/-- No other character than a letter is folded to anything else. -/
theorem toLower_eq_iff {c d : Char} (hd : d.isAlpha = false) : c.toLower = d ↔ c = d := by
  rcases mem_capitals_or_toLower_eq c with hc | hc
  · have halpha : c.isAlpha = true ∧ c.toLower.isAlpha = true := by
      have hall : capitals.all (fun c => c.isAlpha && c.toLower.isAlpha) = true := by decide
      simpa using List.all_eq_true.mp hall c hc
    constructor <;> rintro rfl
    · simp [halpha.2] at hd
    · simp [halpha.1] at hd
  · rw [hc]

/-! ### Texts -/

theorem toList_lowerAscii (s : String) : (lowerAscii s).toList = foldCase s := by
  rw [lowerAscii, String.toList_ofList]
  rfl

theorem lowerAscii_congr {a b : String} (h : sameName a b = true) : lowerAscii a = lowerAscii b :=
  congrArg String.ofList (sameName_iff.mp h)

@[simp] theorem foldCase_append (a b : String) : foldCase (a ++ b) = foldCase a ++ foldCase b := by
  simp [foldCase]

theorem sameName_congr_right {a b : String} (h : sameName a b = true) (c : String) :
    sameName c a = sameName c b := by
  rw [sameName, sameName, sameName_iff.mp h]

theorem sameName_append {a b c d : String} (hab : sameName a b = true)
    (hcd : sameName c d = true) : sameName (a ++ c) (b ++ d) = true := by
  rw [sameName_iff] at *
  rw [foldCase_append, foldCase_append, hab, hcd]

/-- Texts that are the same one by one are the same with a text between them. -/
theorem sameName_intercalate {xs ys : List String}
    (h : List.Forall₂ (fun x y => sameName x y = true) xs ys) (sep : String) :
    sameName (sep.intercalate xs) (sep.intercalate ys) = true := by
  induction h with
  | nil => exact sameName_refl _
  | @cons x y xs ys hxy hrest ih =>
    cases hrest with
    | nil => simpa using hxy
    | cons _ _ =>
      rw [String.intercalate_cons_cons, String.intercalate_cons_cons]
      exact sameName_append (sameName_append hxy (sameName_refl sep)) ih

/-! ### Lower case -/

theorem isCased_toLower (c : Char) : isCased c.toLower = isCased c :=
  apply_toLower (by decide) c

theorem isCaseIgnorable_toLower (c : Char) : isCaseIgnorable c.toLower = isCaseIgnorable c :=
  apply_toLower (by decide) c

theorem lowerChar_toLower (c : Char) : lowerChar c.toLower = lowerChar c :=
  apply_toLower (by decide) c

/-- Folding the letters around a sigma does not change whether it ends a word. -/
theorem sigmaEndsWord_map_toLower (before after : List Char) :
    sigmaEndsWord (before.map Char.toLower) (after.map Char.toLower) =
      sigmaEndsWord before after := by
  have hnearest : ∀ cs : List Char,
      (((cs.map Char.toLower).dropWhile isCaseIgnorable).head?.map isCased).getD false =
        ((cs.dropWhile isCaseIgnorable).head?.map isCased).getD false := by
    intro cs
    have hpass : isCaseIgnorable ∘ Char.toLower = isCaseIgnorable :=
      funext isCaseIgnorable_toLower
    have hcased : isCased ∘ Char.toLower = isCased := funext isCased_toLower
    rw [List.dropWhile_map, hpass, List.head?_map, Option.map_map, hcased]
  simp only [sigmaEndsWord, hnearest]

theorem lowerFrom_map_toLower (before cs : List Char) :
    lowerFrom (before.map Char.toLower) (cs.map Char.toLower) = lowerFrom before cs := by
  induction cs generalizing before with
  | nil => rfl
  | cons c cs ih =>
    have hsigma : c.toLower = 'Σ' ↔ c = 'Σ' := toLower_eq_iff (by decide)
    have hrest := ih (c :: before)
    rw [List.map_cons] at hrest
    simp only [List.map_cons, lowerFrom, hsigma, sigmaEndsWord_map_toLower, lowerChar_toLower,
      hrest]

theorem lowercase_lowerAscii (s : String) : lowercase (lowerAscii s) = lowercase s := by
  rw [lowercase, lowercase, toList_lowerAscii]
  exact congrArg String.ofList (lowerFrom_map_toLower [] s.toList)

/-- **Names that are the same have one lower-case form.** The converse holds in ASCII only. -/
theorem lowercase_congr {a b : String} (h : sameName a b = true) : lowercase a = lowercase b := by
  rw [← lowercase_lowerAscii a, ← lowercase_lowerAscii b, lowerAscii_congr h]

/-! ### Words and capitals -/

theorem upperAscii_lowerAscii (s : String) : upperAscii (lowerAscii s) = upperAscii s := by
  rw [upperAscii, upperAscii, toList_lowerAscii, foldCase, List.map_map]
  exact congrArg String.ofList (List.map_congr_left fun c _ => toUpper_toLower c)

/-- **Names that are the same are the same in capitals.** -/
theorem upperAscii_congr {a b : String} (h : sameName a b = true) :
    upperAscii a = upperAscii b := by
  rw [← upperAscii_lowerAscii a, ← upperAscii_lowerAscii b, lowerAscii_congr h]

theorem wordsFrom_map_toLower (word cs : List Char) :
    wordsFrom (word.map Char.toLower) (cs.map Char.toLower) =
      (wordsFrom word cs).map (·.map Char.toLower) := by
  induction cs generalizing word with
  | nil => by_cases h : word = [] <;> simp [wordsFrom, h]
  | cons c cs ih =>
    have hblank := ih []
    have hnext := ih (c :: word)
    rw [List.map_nil] at hblank
    rw [List.map_cons] at hnext
    simp only [List.map_cons, wordsFrom, isBlank_toLower, hblank, hnext, List.isEmpty_map]
    split
    · split
      · rfl
      · rw [List.map_cons, List.map_reverse]
    · rfl

/-- **Folding does not move the bounds of words.** -/
theorem words_map_toLower (cs : List Char) :
    words (cs.map Char.toLower) = (words cs).map (·.map Char.toLower) :=
  wordsFrom_map_toLower [] cs

/-! ### Capitals -/

/-- The ASCII letters that capitals are made of. -/
def smallLetters : List Char := (List.range 26).map fun i => Char.ofNat (97 + i)

theorem mem_smallLetters_or_toUpper_eq (c : Char) : c ∈ smallLetters ∨ c.toUpper = c := by
  by_cases h : 'a' ≤ c ∧ c ≤ 'z'
  · refine .inl (List.mem_map.mpr ⟨c.toNat - 97, ?_, ?_⟩)
    · have hle : c.toNat ≤ 122 := UInt32.le_iff_toNat_le.mp h.2
      rw [List.mem_range]
      omega
    · have hle : 97 ≤ c.toNat := UInt32.le_iff_toNat_le.mp h.1
      rw [Nat.add_sub_cancel' hle, Char.ofNat_toNat]
  · refine .inr ?_
    delta Char.toUpper
    exact dif_neg h

/-- What does not see the small letters made capitals, sees no character made a capital. -/
theorem apply_toUpper {α : Type} {f : Char → α}
    (h : smallLetters.map (fun c => f c.toUpper) = smallLetters.map f) (c : Char) :
    f c.toUpper = f c := by
  rcases mem_smallLetters_or_toUpper_eq c with hc | hc
  · exact List.map_inj_left.mp h c hc
  · rw [hc]

theorem toUpper_toUpper (c : Char) : c.toUpper.toUpper = c.toUpper := apply_toUpper (by decide) c

theorem toLower_toUpper (c : Char) : c.toUpper.toLower = c.toLower := apply_toUpper (by decide) c

theorem isBlank_toUpper (c : Char) : isBlank c.toUpper = isBlank c := apply_toUpper (by decide) c

/-- Texts are the same if they are the same in capitals. -/
theorem map_toUpper_eq_iff {xs ys : List Char} :
    xs.map Char.toUpper = ys.map Char.toUpper ↔ xs.map Char.toLower = ys.map Char.toLower := by
  have hlower : ∀ zs : List Char, (zs.map Char.toUpper).map Char.toLower = zs.map Char.toLower := by
    intro zs
    rw [List.map_map]
    exact List.map_congr_left fun c _ => toLower_toUpper c
  have hupper : ∀ zs : List Char, (zs.map Char.toLower).map Char.toUpper = zs.map Char.toUpper := by
    intro zs
    rw [List.map_map]
    exact List.map_congr_left fun c _ => toUpper_toLower c
  constructor
  · intro h
    rw [← hlower xs, h, hlower]
  · intro h
    rw [← hupper xs, h, hupper]

end EntitySql.Text
