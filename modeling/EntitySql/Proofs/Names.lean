import EntitySql.Text.Ascii
import EntitySql.Text.Lowercase
import Mathlib.Data.List.Forall2
import Mathlib.Data.List.Pairwise

/-!
# Names in ASCII

Names are compared in two ways: ignoring the case of ASCII letters, and, inside the set of columns
of a constraint, by their full lower-case form. On names in ASCII the two are the same.

## Main definitions

* `Text.IsAscii`: a name has only ASCII characters

## Main results

* `Text.toList_lowercase_of_isAscii`: the lower-case form of an ASCII name
* `Text.sameName_of_lowercase_eq`: ASCII names with one lower-case form are the same name
* `Text.IsAscii.of_sameName`: a name that is the same as one in ASCII is in ASCII
-/

namespace EntitySql.Text

/-- A name has only ASCII characters. -/
def IsAscii (s : String) : Prop := ∀ c ∈ s.toList, c.toNat < 0x80

theorem lowerFrom_of_isAscii {cs : List Char} (h : ∀ c ∈ cs, c.toNat < 0x80)
    (before : List Char) : lowerFrom before cs = cs.map Char.toLower := by
  induction cs generalizing before with
  | nil => rfl
  | cons c cs ih =>
    have hc : c.toNat < 0x80 := h c List.mem_cons_self
    have hsigma : c ≠ 'Σ' := by
      rintro rfl
      exact absurd hc (by decide)
    rw [lowerFrom, if_neg hsigma, lowerChar, if_pos hc,
      ih fun b hb => h b (List.mem_cons_of_mem c hb)]
    rfl

/-- In ASCII, lower case is the comparison key of a name. -/
theorem toList_lowercase_of_isAscii {s : String} (h : IsAscii s) :
    (lowercase s).toList = foldCase s := by
  rw [lowercase, String.toList_ofList, lowerFrom_of_isAscii h]
  rfl

theorem sameName_of_lowercase_eq {a b : String} (ha : IsAscii a) (hb : IsAscii b)
    (h : lowercase a = lowercase b) : sameName a b = true := by
  rw [sameName_iff, ← toList_lowercase_of_isAscii ha, ← toList_lowercase_of_isAscii hb, h]

/-- Folding the case of a character does not take it into ASCII or out of it. -/
theorem toNat_toLower_lt (c : Char) : c.toLower.toNat < 0x80 ↔ c.toNat < 0x80 := by
  delta Char.toLower
  split
  · next h =>
    have hle : c.toNat ≤ 90 := UInt32.le_iff_toNat_le.mp h.2
    have hval : (c.val + ('a'.val - 'A'.val)).toNat = c.toNat + 32 := by
      have hoffset : ('a'.val - 'A'.val).toNat = 32 := rfl
      have hnat : c.val.toNat = c.toNat := rfl
      rw [UInt32.toNat_add, hoffset, hnat]
      omega
    have hlower : ∀ h', (⟨c.val + ('a'.val - 'A'.val), h'⟩ : Char).toNat = c.toNat + 32 :=
      fun _ => hval
    rw [hlower]
    omega
  · rfl

theorem IsAscii.of_sameName {a b : String} (ha : IsAscii a) (h : sameName a b = true) :
    IsAscii b := by
  intro c hc
  have hmem : c.toLower ∈ foldCase a := by
    rw [sameName_iff.mp h]
    exact List.mem_map_of_mem hc
  obtain ⟨c', hc', heq⟩ := List.mem_map.mp hmem
  have hlow := (toNat_toLower_lt c').mpr (ha c' hc')
  rw [heq] at hlow
  exact (toNat_toLower_lt c).mp hlow

/-! ### Lists of named things -/

section

variable {α : Type} {name : α → String} {xs : List α}

/-- In a list without repeated names, a name tells which item it is. -/
theorem eq_of_sameName_of_pairwise
    (h : xs.Pairwise fun a b => sameName (name a) (name b) = false) {a b : α} (ha : a ∈ xs)
    (hb : b ∈ xs) (hab : sameName (name a) (name b) = true) : a = b := by
  by_contra hne
  have : Std.Symm fun a b => sameName (name a) (name b) = false := by
    refine ⟨fun a b hab => ?_⟩
    rw [sameName_comm]
    exact hab
  have hfalse := h.forall ha hb hne
  rw [hab] at hfalse
  exact absurd hfalse (by decide)

/-- A change of the items of a name changes no other. -/
theorem map_of_sameName {f : α → α} {n : String} (h : ∀ a ∈ xs, sameName (name a) n = false) :
    (xs.map fun a => if sameName (name a) n then f a else a) = xs := by
  refine (List.map_congr_left fun a ha => ?_).trans (List.map_id xs)
  rw [h a ha]
  rfl

/-- What is found by a name is an item, and has the name. -/
theorem of_find?_eq_some {n : String} {a : α}
    (h : xs.find? (fun x => sameName (name x) n) = some a) :
    a ∈ xs ∧ sameName (name a) n = true :=
  ⟨List.mem_of_find?_eq_some h, List.find?_some (p := fun x => sameName (name x) n) h⟩

/-- So looking an item up by its name finds it, in every list that has it and no items besides. -/
theorem find?_of_subset (h : xs.Pairwise fun a b => sameName (name a) (name b) = false)
    {ys : List α} (hys : ys ⊆ xs) {a : α} (ha : a ∈ ys) {n : String}
    (hn : sameName (name a) n = true) : ys.find? (fun x => sameName (name x) n) = some a := by
  cases hfind : ys.find? fun x => sameName (name x) n with
  | none => exact absurd hn (by simpa using List.find?_eq_none.mp hfind a ha)
  | some b =>
    obtain ⟨hmem, hb⟩ := of_find?_eq_some hfind
    rw [sameName_comm] at hn
    rw [eq_of_sameName_of_pairwise h (hys hmem) (hys ha) (sameName_trans hb hn)]

theorem find?_of_pairwise (h : xs.Pairwise fun a b => sameName (name a) (name b) = false) {a : α}
    (ha : a ∈ xs) {n : String} (hn : sameName (name a) n = true) :
    xs.find? (fun x => sameName (name x) n) = some a :=
  find?_of_subset h (List.Subset.refl xs) ha hn

/-- And its position is the one where it stands. -/
theorem findIdx?_of_pairwise (h : xs.Pairwise fun a b => sameName (name a) (name b) = false)
    {i : Nat} {a : α} (hi : xs[i]? = some a) {n : String} (hn : sameName (name a) n = true) :
    xs.findIdx? (fun x => sameName (name x) n) = some i := by
  obtain ⟨hlt, rfl⟩ := List.getElem?_eq_some_iff.mp hi
  rw [List.findIdx?_eq_some_iff_getElem]
  refine ⟨hlt, hn, fun j hj hsame => ?_⟩
  have hne := List.pairwise_iff_getElem.mp h j i (Nat.lt_trans hj hlt) hlt hj
  rw [sameName_comm] at hn
  rw [sameName_trans hsame hn] at hne
  exact absurd hne (by decide)

/-- What is left without a name is what is left without its position. -/
theorem filter_sameName_of_findIdx? (h : xs.Pairwise fun a b => sameName (name a) (name b) = false)
    {n : String} {p : Nat} (hp : xs.findIdx? (fun a => sameName (name a) n) = some p) :
    xs.filter (fun a => !sameName (name a) n) = xs.eraseIdx p := by
  induction xs generalizing p with
  | nil => simp at hp
  | cons a xs ih =>
    obtain ⟨ha, hxs⟩ := List.pairwise_cons.mp h
    rw [List.findIdx?_cons] at hp
    cases hn : sameName (name a) n with
    | true =>
      obtain rfl : 0 = p := by simpa [hn] using hp
      rw [List.filter_cons_of_neg (by simp [hn]), List.eraseIdx_cons_zero, List.filter_eq_self]
      intro b hb
      rw [Bool.not_eq_true', Bool.eq_false_iff]
      intro hbn
      rw [sameName_comm] at hbn
      exact Bool.eq_false_iff.mp (ha b hb) (sameName_trans hn hbn)
    | false =>
      obtain ⟨q, hq, rfl⟩ : ∃ q, xs.findIdx? (fun a => sameName (name a) n) = some q ∧
          q + 1 = p := by
        simpa [hn] using hp
      rw [List.filter_cons_of_pos (by simp [hn]), List.eraseIdx_cons_succ, ih hxs hq]

/-- Looking an item up among those that are kept finds the same, if the kept ones are told by
their names. -/
theorem find?_filter_of_sameName {p : α → Bool} {n : String} {keep : Bool}
    (h : ∀ a ∈ xs, sameName (name a) n = true → p a = keep) :
    (xs.filter p).find? (fun x => sameName (name x) n) =
      if keep then xs.find? (fun x => sameName (name x) n) else none := by
  induction xs with
  | nil => simp
  | cons a xs ih =>
    have ih := ih fun b hb => h b (List.mem_cons_of_mem a hb)
    cases hn : sameName (name a) n with
    | false =>
      have hskip : (List.filter p (a :: xs)).find? (fun x => sameName (name x) n) =
          (xs.filter p).find? fun x => sameName (name x) n := by
        rw [List.filter_cons]
        split
        · rw [List.find?_cons_of_neg (by simp [hn])]
        · rfl
      rw [hskip, ih, List.find?_cons_of_neg (by simp [hn])]
    | true =>
      have hp := h a List.mem_cons_self hn
      cases keep with
      | false => rw [List.filter_cons_of_neg (by simp [hp]), ih]; rfl
      | true =>
        rw [List.filter_cons_of_pos hp, List.find?_cons_of_pos (by simpa using hn),
          List.find?_cons_of_pos (by simpa using hn)]
        rfl

/-- Items that are related are items of their lists. -/
theorem forall₂_mem_right {β : Type} {R : α → β → Prop} {ys : List β} (h : List.Forall₂ R xs ys) :
    List.Forall₂ (fun a b => b ∈ ys ∧ R a b) xs ys :=
  ((List.forall₂_and_left ys xs).mpr ⟨fun _ hb => hb, h.flip⟩).flip

theorem exists_mem_of_forall₂ {β : Type} {R : α → β → Prop} {ys : List β} (h : List.Forall₂ R xs ys)
    {b : β} (hb : b ∈ ys) : ∃ a ∈ xs, R a b := by
  induction h with
  | nil => exact absurd hb List.not_mem_nil
  | @cons a b' as bs hab _ ih =>
    rcases List.mem_cons.mp hb with rfl | hb
    · exact ⟨a, List.mem_cons_self, hab⟩
    · obtain ⟨a', ha', hab'⟩ := ih hb
      exact ⟨a', List.mem_cons_of_mem a ha', hab'⟩

theorem exists_getElem?_of_forall₂ {β : Type} {R : α → β → Prop} {ys : List β}
    (h : List.Forall₂ R xs ys) {i : Nat} {a : α} (ha : xs[i]? = some a) :
    ∃ b, ys[i]? = some b ∧ R a b := by
  obtain ⟨hlt, rfl⟩ := List.getElem?_eq_some_iff.mp ha
  have hlt' : i < ys.length := h.length_eq ▸ hlt
  exact ⟨ys[i], List.getElem?_eq_getElem hlt', h.get hlt hlt'⟩

/-- What each item is related to makes a list. -/
theorem exists_forall₂ {β : Type} {R : α → β → Prop} (h : ∀ a ∈ xs, ∃ b, R a b) :
    ∃ ys, List.Forall₂ R xs ys := by
  induction xs with
  | nil => exact ⟨[], .nil⟩
  | cons a xs ih =>
    obtain ⟨b, hb⟩ := h a List.mem_cons_self
    obtain ⟨ys, hys⟩ := ih fun x hx => h x (List.mem_cons_of_mem a hx)
    exact ⟨b :: ys, .cons hb hys⟩

theorem forall₂_trans {β γ : Type} {R : α → β → Prop} {S : β → γ → Prop} {T : α → γ → Prop}
    (h : ∀ a b c, R a b → S b c → T a c) {ys : List β} {zs : List γ} (hxy : List.Forall₂ R xs ys)
    (hyz : List.Forall₂ S ys zs) : List.Forall₂ T xs zs := by
  induction hxy generalizing zs with
  | nil =>
    cases hyz
    exact .nil
  | cons hab _ ih =>
    cases hyz with
    | cons hbc hrest => exact .cons (h _ _ _ hab hbc) (ih hrest)

/-- Looking up in lists that are related item by item finds items that are related. -/
theorem rel_find? {β : Type} {R : α → β → Prop} {p : α → Bool} {q : β → Bool}
    (hpq : ∀ a b, R a b → p a = q b) {ys : List β} (h : List.Forall₂ R xs ys) :
    Option.Rel R (xs.find? p) (ys.find? q) := by
  induction h with
  | nil => exact .none
  | @cons a b as bs hab _ ih =>
    rw [List.find?_cons, List.find?_cons, hpq a b hab]
    cases q b with
    | true => exact .some hab
    | false => exact ih

/-- What is related to an item is an item. -/
theorem exists_of_rel_some {β : Type} {R : α → β → Prop} {o : Option α} {b : β}
    (h : Option.Rel R o (some b)) : ∃ a, o = some a ∧ R a b := by
  cases h with
  | some hab => exact ⟨_, rfl, hab⟩

theorem isSome_eq_of_rel {β : Type} {R : α → β → Prop} {o : Option α} {p : Option β}
    (h : Option.Rel R o p) : o.isSome = p.isSome := by
  cases h <;> rfl

/-- An item that is found is still found when it is kept. -/
theorem find?_filter_of_kept {p q : α → Bool} {a : α} (h : xs.find? p = some a) (ha : q a = true) :
    (xs.filter q).find? p = some a := by
  obtain ⟨hp, before, behind, rfl, hbefore⟩ := List.find?_eq_some_iff_append.mp h
  refine List.find?_eq_some_iff_append.mpr
    ⟨hp, before.filter q, behind.filter q, ?_, fun b hb => hbefore b (List.mem_filter.mp hb |>.1)⟩
  rw [List.filter_append, List.filter_cons_of_pos ha]

end

end EntitySql.Text
