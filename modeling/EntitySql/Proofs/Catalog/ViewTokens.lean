import EntitySql.Proofs.Catalog.ViewText
import EntitySql.Proofs.Database.Lossless

/-!
# Views that are taken for unchanged

Two view bodies are compared by their letters and digits. What that says of their tokens is settled
here. A body is spelled by its tokens, names without their quotes, and by the comments between them;
blanks and semicolons at the end are left out (`ViewText.spellings`). Its letters and digits are
those of its spellings, one after the other, so nothing that is left out has one.

Letters and digits do not tell where a token ends and which marks it has: `a < 18` and `a >= 18` are
one view, and so are `1, 2` and `12`, or two literals that differ in a mark (`planView_merges`).
What is missing is just that: bodies that have the same letters and digits, and the same marks in
the same places of the same tokens, are spelled alike.

## Main definitions

* `ViewText.spellings`: the tokens and comments of a body
* `ViewText.marks`: the spellings with every letter and digit blotted out

Main statement: `planView_eq_noOp_iff_spellings`.
-/

namespace EntitySql

/-! ## Spellings -/

namespace Token

/-- The comment in a gap, if there is one, without its blanks. -/
def comment (gap : List Char) : List (List Char) :=
  let signs := gap.filter fun c => !isGap c
  if signs.isEmpty then [] else [signs]

theorem flatten_comment (gap : List Char) :
    (comment gap).flatten = gap.filter fun c => !isGap c := by
  unfold comment
  extract_lets signs
  by_cases h : signs.isEmpty = true
  · have hsigns : signs = [] := List.isEmpty_iff.1 h
    rw [if_pos h, show gap.filter (fun c => !isGap c) = [] from hsigns]
    rfl
  · rw [if_neg h]
    exact List.flatten_singleton

/-- The blanks between tokens are neither letters nor digits. -/
theorem isAlphanumeric_of_isGap {c : Char} (h : isGap c = true) : Text.isAlphanumeric c = false := by
  simp only [isGap, Bool.or_eq_true, beq_iff_eq] at h
  refine Text.isAlphanumeric_of_isBlank ?_
  rcases h with (((rfl | rfl) | rfl) | rfl) | rfl <;> rfl

theorem filter_comment (gap : List Char) :
    (comment gap).flatten.filter Text.isAlphanumeric = gap.filter Text.isAlphanumeric := by
  rw [flatten_comment, List.filter_filter]
  refine List.filter_congr fun c _ => ?_
  cases hgap : isGap c with
  | true => simp [isAlphanumeric_of_isGap hgap]
  | false => simp

end Token

namespace ViewText

/-- The tokens of a body, names without their quotes, and the comments between them. Semicolons at
the end are left out. -/
def spellings (body : String) : List (List Char) :=
  ((Token.ofText body).flatMap (fun t => Token.comment t.gap ++ [t.bare]) ++
    Token.comment (Token.behind body)).rdropWhile (· == [';'])

/-- The letters and digits of spellings, one after the other. -/
def letters (spellings : List (List Char)) : List Char :=
  spellings.flatten.filter Text.isAlphanumeric

@[simp] theorem letters_nil : letters [] = [] := rfl

@[simp] theorem letters_append (xs ys : List (List Char)) :
    letters (xs ++ ys) = letters xs ++ letters ys := by
  simp [letters]

theorem letters_singleton (cs : List Char) : letters [cs] = cs.filter Text.isAlphanumeric := by
  simp [letters]

/-- The spellings left out at the end have no letter and no digit. -/
theorem letters_rdropWhile (xs : List (List Char)) :
    letters (xs.rdropWhile (· == [';'])) = letters xs := by
  induction xs using List.reverseRecOn with
  | nil => rfl
  | append_singleton xs x ih =>
    by_cases hx : x = [';']
    · have hsemicolon : letters [[';']] = [] := by decide +kernel
      rw [List.rdropWhile_concat_pos _ _ _ (by simpa using hx), ih, letters_append, hx, hsemicolon,
        List.append_nil]
    · rw [List.rdropWhile_concat_neg _ _ _ (by simpa using hx)]

/-- Tokens that have the letters and digits of what they spell. -/
theorem letters_tokens {ts : List Token}
    (h : ∀ t ∈ ts, t.bare.filter Text.isAlphanumeric = t.text.filter Text.isAlphanumeric) :
    letters (ts.flatMap fun t => Token.comment t.gap ++ [t.bare]) =
      (Token.spelled ts).filter Text.isAlphanumeric := by
  induction ts with
  | nil => rfl
  | cons t ts ih =>
    have ht := h t List.mem_cons_self
    have hts := ih fun u hu => h u (List.mem_cons_of_mem t hu)
    have hcomment : letters (Token.comment t.gap) = t.gap.filter Text.isAlphanumeric :=
      Token.filter_comment t.gap
    simp only [List.flatMap_cons, letters_append, hcomment, letters_singleton, ht, hts,
      Token.spelled_cons, List.filter_append, List.append_assoc]

/-- **The letters and digits of a body are those of its spellings.** -/
theorem letters_spellings (body : String) : letters (spellings body) = fingerprint body := by
  have hbehind : letters (Token.comment (Token.behind body)) =
      (Token.behind body).filter Text.isAlphanumeric := Token.filter_comment _
  rw [spellings, letters_rdropWhile, letters_append, hbehind,
    letters_tokens fun t ht => Token.filter_bare ht, ← List.filter_append, Token.spelled_ofText]
  rfl

/-! ## Marks -/

/-- A character, unless it is a letter or a digit. -/
def mark (c : Char) : Option Char := if Text.isAlphanumeric c then none else some c

/-- Spellings with every letter and digit blotted out. -/
def marks (spellings : List (List Char)) : List (List (Option Char)) :=
  spellings.map (·.map mark)

/-- The marks of a text say how many letters and digits it takes, and where they stand. -/
theorem eq_of_map_mark {xs ys : List Char} (hmark : xs.map mark = ys.map mark)
    {us vs : List Char}
    (h : xs.filter Text.isAlphanumeric ++ us = ys.filter Text.isAlphanumeric ++ vs) :
    xs = ys ∧ us = vs := by
  induction xs generalizing ys with
  | nil =>
    obtain rfl : ys = [] := by simpa using hmark.symm
    exact ⟨rfl, h⟩
  | cons x xs ih =>
    obtain ⟨y, ys, rfl⟩ : ∃ y ys', ys = y :: ys' := by
      cases ys with
      | nil => cases hmark
      | cons y ys => exact ⟨y, ys, rfl⟩
    obtain ⟨hfirst, hrest⟩ := List.cons.inj hmark
    cases hx : Text.isAlphanumeric x with
    | true =>
      have hy : Text.isAlphanumeric y = true := by simpa [mark, hx] using hfirst
      simp only [List.filter_cons, hx, hy, if_true, List.cons_append] at h
      obtain ⟨rfl, hletters⟩ := List.cons.inj h
      obtain ⟨rfl, rfl⟩ := ih hrest hletters
      exact ⟨rfl, rfl⟩
    | false =>
      obtain ⟨hy, rfl⟩ : Text.isAlphanumeric y = false ∧ x = y := by
        cases hy : Text.isAlphanumeric y <;> simp_all [mark]
      simp only [List.filter_cons, hy, Bool.false_eq_true, if_false] at h
      obtain ⟨rfl, rfl⟩ := ih hrest h
      exact ⟨rfl, rfl⟩

/-- Spellings are made of their letters and digits and of their marks. -/
theorem eq_of_marks {xs ys : List (List Char)} (hmarks : marks xs = marks ys)
    (h : letters xs = letters ys) : xs = ys := by
  induction xs generalizing ys with
  | nil =>
    obtain rfl : ys = [] := by simpa [marks] using hmarks.symm
    rfl
  | cons x xs ih =>
    obtain ⟨y, ys, rfl⟩ : ∃ y ys', ys = y :: ys' := by
      cases ys with
      | nil => cases hmarks
      | cons y ys => exact ⟨y, ys, rfl⟩
    obtain ⟨hfirst, hrest⟩ := List.cons.inj hmarks
    simp only [letters, List.flatten_cons, List.filter_append] at h
    obtain ⟨rfl, hletters⟩ := eq_of_map_mark hfirst h
    rw [ih hrest hletters]

end ViewText

/-! ## The plan of a view -/

theorem planView_some {m : Model} {definition : String} (hm : m.storage = .view definition)
    (live : LiveView) :
    planView m (some live) =
      if ViewText.fingerprint live.definition = ViewText.fingerprint definition then .noOp
      else .replaceView m.name definition := by
  simp [planView, hm, sameDefinition]

/-- A live view is left in place exactly when the tokens and comments of its body have, one after
the other, the letters and digits of the declared one. The bodies are then spelled alike if their
marks agree too, and not otherwise. A view that is not left in place is replaced by the declared
one. -/
theorem planView_eq_noOp_iff_spellings {m : Model} {definition : String}
    (hm : m.storage = .view definition) (live : LiveView) :
    (planView m (some live) = .noOp ↔
        ViewText.letters (ViewText.spellings live.definition) =
          ViewText.letters (ViewText.spellings definition)) ∧
      (planView m (some live) = .noOp ∧
          ViewText.marks (ViewText.spellings live.definition) =
            ViewText.marks (ViewText.spellings definition) ↔
        ViewText.spellings live.definition = ViewText.spellings definition) ∧
      (planView m (some live) ≠ .noOp →
        planView m (some live) = .replaceView m.name definition) := by
  have hletters : planView m (some live) = .noOp ↔
      ViewText.letters (ViewText.spellings live.definition) =
        ViewText.letters (ViewText.spellings definition) := by
    rw [ViewText.letters_spellings, ViewText.letters_spellings, planView_some hm]
    split <;> simp_all
  refine ⟨hletters, ?_, fun hchanged => ?_⟩
  · constructor
    · rintro ⟨hnoOp, hmarks⟩
      exact ViewText.eq_of_marks hmarks (hletters.1 hnoOp)
    · intro hsame
      exact ⟨hletters.2 (congrArg ViewText.letters hsame), congrArg ViewText.marks hsame⟩
  · rw [planView_some hm] at hchanged ⊢
    exact if_neg fun hsame => hchanged (if_pos hsame)

/-- Other quotes, blanks and semicolons at the end make no other view. -/
theorem planView_eq_noOp_iff_spellings_layout :
    let m : Model := ⟨"v", .view "SELECT a FROM t WHERE a>=18", [], [], []⟩
    let live : LiveView := ⟨"v", "SELECT \"a\"\n FROM [t] WHERE a >= 18 ;"⟩
    m.storage = .view "SELECT a FROM t WHERE a>=18" ∧ planView m (some live) = .noOp ∧
      ViewText.spellings live.definition = ViewText.spellings "SELECT a FROM t WHERE a>=18" :=
  have hsame : ViewText.spellings "SELECT \"a\"\n FROM [t] WHERE a >= 18 ;" =
      ViewText.spellings "SELECT a FROM t WHERE a>=18" := by decide +kernel
  have hview := planView_eq_noOp_iff_spellings
    (m := ⟨"v", .view "SELECT a FROM t WHERE a>=18", [], [], []⟩) rfl
    ⟨"v", "SELECT \"a\"\n FROM [t] WHERE a >= 18 ;"⟩
  ⟨rfl, (hview.2.1.2 hsame).1, hsame⟩

/-- Views that differ in an operator, in where a token ends, or inside a literal are taken for the
same. -/
theorem planView_merges :
    (planView ⟨"v", .view "SELECT a FROM t WHERE a >= 18", [], [], []⟩
        (some ⟨"v", "SELECT a FROM t WHERE a < 18"⟩) = .noOp ∧
      ViewText.spellings "SELECT a FROM t WHERE a < 18" ≠
        ViewText.spellings "SELECT a FROM t WHERE a >= 18") ∧
    (planView ⟨"v", .view "SELECT 12", [], [], []⟩ (some ⟨"v", "SELECT 1, 2"⟩) = .noOp ∧
      ViewText.spellings "SELECT 1, 2" ≠ ViewText.spellings "SELECT 12") ∧
    (planView ⟨"v", .view "SELECT 'ab'", [], [], []⟩ (some ⟨"v", "SELECT 'a-b'"⟩) = .noOp ∧
      ViewText.spellings "SELECT 'a-b'" ≠ ViewText.spellings "SELECT 'ab'") := by
  decide +kernel

end EntitySql
