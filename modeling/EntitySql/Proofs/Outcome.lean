import Mathlib.Data.List.Forall2
import Mathlib.Data.List.Perm.Basic

/-!
# Computations that succeed

What is known of the parts of a computation that may fail, when the whole of it succeeds.

## Main results

* `exists_of_bind_eq_ok`: the first part of two succeeds
* `of_refuse_eq_ok`: what may be refused first is not
* `mapM_eq_ok_iff`: what a list of computations gives
* `filterM_eq_ok`, `exists_of_filterM_eq_ok`: what is picked from a list
* `foldlM_invariant`: what every step preserves, a fold preserves
* `exists_of_foldlM_eq_error`: a fold fails where a step fails
-/

namespace EntitySql

variable {ε α β : Type}

/-- What a computation that may fail gave, one step earlier. -/
theorem exists_of_bind_eq_ok {x : Except ε α} {f : α → Except ε β} {b : β}
    (h : (x >>= f) = .ok b) : ∃ a, x = .ok a ∧ f a = .ok b := by
  cases x with
  | error e => simp [bind, Except.bind] at h
  | ok a => exact ⟨a, rfl, h⟩

@[simp] theorem throw_eq_error (e : ε) : (throw e : Except ε α) = .error e := (rfl)

theorem exists_of_map_eq_ok {x : Except ε α} {f : α → β} {b : β} (h : f <$> x = .ok b) :
    ∃ a, x = .ok a ∧ f a = b := by
  cases x with
  | error e => simp [Functor.map, Except.map] at h
  | ok a => exact ⟨a, rfl, Except.ok.inj h⟩

/-- What a computation gives that may refuse first. -/
theorem of_refuse_eq_ok {c : Prop} [Decidable c] {e : ε} {f : PUnit → Except ε β} {b : β}
    (h : (if c then throw e >>= f else f ⟨⟩) = .ok b) : ¬ c ∧ f ⟨⟩ = .ok b := by
  by_cases hc : c
  · rw [if_pos hc] at h
    cases h
  · rw [if_neg hc] at h
    exact ⟨hc, h⟩

/-- An answer that comes with a state is an answer. -/
theorem exists_eq_ok {σ : Type} {x : Except ε α × σ} (h : x.1.isOk = true) :
    ∃ a, x = (.ok a, x.2) := by
  obtain ⟨⟨⟩ | a, s⟩ := x
  · simp [Except.isOk, Except.toBool] at h
  · exact ⟨a, rfl⟩

/-- A list of computations succeeds with what each of them gives. -/
theorem mapM_eq_ok_iff {f : α → Except ε β} {xs : List α} {ys : List β} :
    xs.mapM f = .ok ys ↔ List.Forall₂ (fun x y => f x = .ok y) xs ys := by
  induction xs generalizing ys with
  | nil =>
    constructor
    · intro h
      obtain rfl : [] = ys := Except.ok.inj h
      exact .nil
    · rintro ⟨⟩
      rfl
  | cons x xs ih =>
    rw [List.mapM_cons]
    constructor
    · intro h
      obtain ⟨y, hy, h⟩ := exists_of_bind_eq_ok h
      obtain ⟨zs, hzs, h⟩ := exists_of_bind_eq_ok h
      obtain rfl : y :: zs = ys := Except.ok.inj h
      exact .cons hy (ih.mp hzs)
    · rintro (_ | ⟨hy, hzs⟩)
      rw [hy, ih.mpr hzs]
      rfl

/-- So does a list of computations in another order, with the same in that order. -/
theorem exists_mapM_of_perm {f : α → Except ε β} {xs xs' : List α} {ys : List β}
    (h : xs.mapM f = .ok ys) (hperm : xs'.Perm xs) : ∃ ys', xs'.mapM f = .ok ys' ∧ ys'.Perm ys := by
  obtain ⟨ys', hys', hperm'⟩ := List.perm_comp_forall₂ hperm (mapM_eq_ok_iff.mp h)
  exact ⟨ys', mapM_eq_ok_iff.mpr hys', hperm'⟩

/-- Elements are picked by a test that always has an outcome. -/
theorem filterM_eq_ok {f : α → Except ε Bool} {p : α → Bool} {xs : List α}
    (h : ∀ a ∈ xs, f a = .ok (p a)) : xs.filterM f = .ok (xs.filter p) := by
  have haux : ∀ done, List.filterAuxM f xs done = .ok ((xs.filter p).reverse ++ done) := by
    induction xs with
    | nil => exact fun done => rfl
    | cons a xs ih =>
      intro done
      have hstep : List.filterAuxM f (a :: xs) done =
          List.filterAuxM f xs (bif p a then a :: done else done) := by
        rw [List.filterAuxM, h a List.mem_cons_self]
        rfl
      rw [hstep, ih fun b hb => h b (List.mem_cons_of_mem a hb)]
      cases hp : p a <;> simp [hp]
  rw [List.filterM, haux, List.append_nil]
  exact congrArg Except.ok (List.reverse_reverse _)

/-- A test by which elements have been picked has an outcome for each of them. -/
theorem exists_of_filterM_eq_ok {f : α → Except ε Bool} {xs ys : List α}
    (h : xs.filterM f = .ok ys) :
    ∃ p : α → Bool, (∀ a ∈ xs, f a = .ok (p a)) ∧ ys = xs.filter p := by
  have haux : ∀ done picked, List.filterAuxM f xs done = .ok picked →
      ∀ a ∈ xs, f a = .ok ((f a).toOption.getD false) := by
    clear h
    induction xs with
    | nil => exact fun _ _ _ a ha => absurd ha List.not_mem_nil
    | cons x xs ih =>
      intro done picked h a ha
      rw [List.filterAuxM] at h
      obtain ⟨b, hb, h⟩ := exists_of_bind_eq_ok h
      rcases List.mem_cons.mp ha with rfl | ha
      · rw [hb]
        rfl
      · exact ih _ _ h a ha
  obtain ⟨picked, hpicked, -⟩ := exists_of_bind_eq_ok (x := List.filterAuxM f xs []) h
  have hp := haux [] picked hpicked
  exact ⟨_, hp, Except.ok.inj (h.symm.trans (filterM_eq_ok hp))⟩

/-- **What every step preserves, a fold preserves.** The invariant may speak of the items that are
done. -/
theorem foldlM_invariant {step : β → α → Except ε β} {P : List α → β → Prop} {xs : List α}
    (hstep : ∀ done, ∀ a ∈ xs, ∀ b b', P done b → step b a = .ok b' → P (done ++ [a]) b')
    {d : List α} {b b' : β} (hb : P d b) (h : xs.foldlM step b = .ok b') :
    P (d ++ xs) b' := by
  induction xs generalizing d b with
  | nil =>
    obtain rfl : b = b' := Except.ok.inj h
    rwa [List.append_nil]
  | cons a xs ih =>
    rw [List.foldlM_cons] at h
    obtain ⟨c, hc, hrest⟩ := exists_of_bind_eq_ok h
    have hfirst := hstep d a List.mem_cons_self b c hb hc
    have hall := ih (fun done x hx => hstep done x (List.mem_cons_of_mem a hx)) hfirst hrest
    rwa [List.append_assoc] at hall

/-- A computation that fails, fails in one of its parts. -/
theorem of_bind_eq_error {x : Except ε α} {f : α → Except ε β} {e : ε} (h : (x >>= f) = .error e) :
    x = .error e ∨ ∃ a, x = .ok a ∧ f a = .error e := by
  cases x with
  | error e' => exact .inl (congrArg _ (Except.error.inj h))
  | ok a => exact .inr ⟨a, rfl, h⟩

theorem of_map_eq_error {x : Except ε α} {f : α → β} {e : ε} (h : f <$> x = .error e) :
    x = .error e := by
  cases x with
  | error e' => exact congrArg _ (Except.error.inj h)
  | ok a => cases h

theorem exists_of_mapM_eq_error {f : α → Except ε β} {xs : List α} {e : ε}
    (h : xs.mapM f = .error e) : ∃ x ∈ xs, f x = .error e := by
  induction xs with
  | nil => cases h
  | cons x xs ih =>
    rw [List.mapM_cons] at h
    rcases of_bind_eq_error h with hx | ⟨y, -, h⟩
    · exact ⟨x, List.mem_cons_self, hx⟩
    · rcases of_bind_eq_error h with hrest | ⟨ys, -, h⟩
      · obtain ⟨z, hz, hfault⟩ := ih hrest
        exact ⟨z, List.mem_cons_of_mem x hz, hfault⟩
      · cases h

/-- A fold fails where one of its steps fails. -/
theorem exists_of_foldlM_eq_error {step : β → α → Except ε β} {xs : List α} {b : β} {e : ε}
    (h : xs.foldlM step b = .error e) : ∃ b', ∃ a ∈ xs, step b' a = .error e := by
  induction xs generalizing b with
  | nil => cases h
  | cons a xs ih =>
    rw [List.foldlM_cons] at h
    rcases of_bind_eq_error h with hstep | ⟨c, -, hrest⟩
    · exact ⟨b, a, List.mem_cons_self, hstep⟩
    · obtain ⟨b', x, hx, hstep⟩ := ih hrest
      exact ⟨b', x, List.mem_cons_of_mem a hx, hstep⟩

end EntitySql
