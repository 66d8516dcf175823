import EntitySql.Proofs.Query.Assembly
import EntitySql.Proofs.Reading.Symbol
import Mathlib.Data.List.Chain

/-!
# Writing into a draft

A statement can be written in one pass: each piece goes to the end of what is there, text is joined
to the text in front of it, and a term is written by writing its parts one after the other into the
same list. Nothing but the last fragment is ever looked at. What is written in this way is here
related to the definition of a draft, which appends all fragments of a term and normalizes.

What carries the comparison is that a normal form is determined by its signs, that is, by the
characters, the values and the slots that it consists of. A writer is then described by the signs
that it adds, whatever stood there before, and by its keeping of the normal form. Both compose.

## Main definitions

* `Fragment.push`: one more fragment at the end
* `Term.write`: a term written into what is there
* `Draft.written`: what a sequence of steps writes
* `Fragment.Appends`: a writer keeps the normal form and adds the given signs
* `Operation.Composes`: what holds of the operations that steps assemble

## Main results

* `Fragment.normalize_eq_iff`: normal forms are equal exactly if their signs are
* `Fragment.isNormal_iff`: no fragment of a normal form is empty, and no two texts are neighbours
* `Term.appends_write`: a term adds its own signs, wherever it is written
* `Operation.composes_of_steps`: rendering is compositional
-/

namespace EntitySql

namespace Fragment

/-! ### Normal forms and their signs -/

/-- The fragments in normal form that consist of the given signs. -/
def ofSigns : List Sign → List Fragment
  | [] => []
  | .char c :: xs => consText (String.singleton c) (ofSigns xs)
  | .value v :: xs => captured v :: ofSigns xs
  | .slot list :: xs => (if list then listSlot else slot) :: ofSigns xs

theorem ofSigns_ofText_append (sql : String) (xs : List Sign) :
    ofSigns (Sign.ofText sql ++ xs) = consText sql (ofSigns xs) := by
  have hchars : ∀ cs : List Char,
      ofSigns (cs.map .char ++ xs) = consText (String.ofList cs) (ofSigns xs) := by
    intro cs
    induction cs with
    | nil => exact (consText_empty _).symm
    | cons c cs ih =>
      have hjoin : String.singleton c ++ String.ofList cs = String.ofList (c :: cs) := by
        rw [String.singleton_eq_ofList, ← String.ofList_append, List.singleton_append]
      rw [List.map_cons, List.cons_append, ofSigns, ih, consText_consText, hjoin]
  have htext := hchars sql.toList
  rwa [String.ofList_toList] at htext

/-- The normal form is computed from the signs. -/
theorem ofSigns_allSigns (fs : List Fragment) : ofSigns (allSigns fs) = normalize fs := by
  induction fs with
  | nil => rfl
  | cons f fs ih =>
    rw [allSigns_cons]
    cases f with
    | text sql => rw [signs, ofSigns_ofText_append, ih, normalize]
    | captured v =>
      by_cases hv : v = .null
      · subst hv
        exact (ofSigns_ofText_append "NULL" _).trans (congrArg (consText "NULL") ih)
      · have hnull : v.isNull = false := by cases v <;> first | rfl | exact absurd rfl hv
        rw [signs, hnull, normalize_captured hv, ← ih]
        rfl
    | slot => exact congrArg (slot :: ·) ih
    | listSlot => exact congrArg (listSlot :: ·) ih

/-- **Normal forms are equal exactly if their signs are**, however the text was cut. -/
theorem normalize_eq_iff {fs gs : List Fragment} :
    normalize fs = normalize gs ↔ allSigns fs = allSigns gs := by
  constructor
  · intro h
    rw [← allSigns_normalize fs, h, allSigns_normalize]
  · intro h
    rw [← ofSigns_allSigns, h, ofSigns_allSigns]

theorem IsNormal.tail {f : Fragment} {fs : List Fragment} (h : IsNormal (f :: fs)) :
    IsNormal fs := by
  cases f with
  | text sql => exact h.2.2
  | captured v => exact h.2
  | slot => exact h
  | listSlot => exact h

theorem isNormal_consText {fs : List Fragment} (h : IsNormal fs) (sql : String) :
    IsNormal (consText sql fs) := by
  unfold consText
  split
  · next next rest =>
    exact ⟨fun hempty => h.1 (String.append_eq_empty_iff.mp hempty).2, h.2⟩
  · next hother =>
    split
    · exact h
    · next hne =>
      refine ⟨hne, fun s hs => ?_, h⟩
      obtain ⟨rest, hrest⟩ := List.head?_eq_some_iff.mp hs
      exact hother s rest hrest

theorem isNormal_normalize (fs : List Fragment) : IsNormal (normalize fs) := by
  induction fs with
  | nil => trivial
  | cons f fs ih =>
    cases f with
    | text sql => exact isNormal_consText ih sql
    | captured v =>
      by_cases hv : v = .null
      · subst hv
        exact isNormal_consText ih "NULL"
      · rw [normalize_captured hv]
        exact ⟨hv, ih⟩
    | slot => exact ih
    | listSlot => exact ih

/-- What is in normal form is its own normal form. -/
theorem normalize_of_isNormal {fs : List Fragment} (h : IsNormal fs) : normalize fs = fs := by
  induction fs with
  | nil => rfl
  | cons f fs ih =>
    have htail := ih h.tail
    cases f with
    | text sql =>
      rw [normalize, htail, consText.eq_def]
      split
      · next next rest => exact absurd rfl (h.2.1 next)
      · rw [if_neg h.1]
    | captured v => rw [normalize_captured h.1, htail]
    | slot => exact congrArg (slot :: ·) htail
    | listSlot => exact congrArg (listSlot :: ·) htail

/-- In normal form, fragments with the same signs are the same. -/
theorem IsNormal.eq_of_allSigns {fs gs : List Fragment} (hf : IsNormal fs) (hg : IsNormal gs)
    (h : allSigns fs = allSigns gs) : fs = gs := by
  rw [← normalize_of_isNormal hf, ← normalize_of_isNormal hg, normalize_eq_iff.mpr h]

/-- Whether a fragment is literal text. -/
def isText : Fragment → Bool
  | text _ => true
  | _ => false

theorem isNormal_cons_iff {f : Fragment} {fs : List Fragment} :
    IsNormal (f :: fs) ↔ f ≠ text "" ∧ f ≠ captured .null ∧
      (f.isText = true → ∀ g ∈ fs.head?, g.isText = false) ∧ IsNormal fs := by
  cases f with
  | text sql =>
    have hhead : (∀ s, fs.head? ≠ some (text s)) ↔ ∀ g ∈ fs.head?, g.isText = false := by
      constructor
      · intro h g hg
        cases g with
        | text s => exact absurd hg (h s)
        | _ => rfl
      · intro h s hs
        exact absurd (h (text s) hs) (by simp [isText])
    simp [IsNormal, hhead, isText]
  | captured v => simp [IsNormal, isText]
  | slot => simp [IsNormal, isText]
  | listSlot => simp [IsNormal, isText]

/-- **Normal forms in terms of their fragments**: no text is empty, no absent value is captured, and
no two neighbours are texts. -/
theorem isNormal_iff {fs : List Fragment} :
    IsNormal fs ↔ text "" ∉ fs ∧ captured .null ∉ fs ∧
      fs.IsChain fun f g => f.isText = true → g.isText = false := by
  induction fs with
  | nil => simp [IsNormal]
  | cons f fs ih =>
    rw [isNormal_cons_iff, ih, List.isChain_cons, List.mem_cons, List.mem_cons, not_or, not_or]
    constructor
    · rintro ⟨hempty, hnull, hhead, hempties, hnulls, hchain⟩
      exact ⟨⟨hempty.symm, hempties⟩, ⟨hnull.symm, hnulls⟩, fun g hg hf => hhead hf g hg, hchain⟩
    · rintro ⟨⟨hempty, hempties⟩, ⟨hnull, hnulls⟩, hhead, hchain⟩
      exact ⟨Ne.symm hempty, Ne.symm hnull, fun hf g hg => hhead g hg hf, hempties, hnulls, hchain⟩

/-! ### Writing at the end -/

/-- Text at the end of fragments: it is joined to the text that is there. -/
def pushText (fs : List Fragment) (sql : String) : List Fragment :=
  match fs.getLast? with
  | some (text last) => fs.dropLast ++ [text (last ++ sql)]
  | _ => if sql = "" then fs else fs ++ [text sql]

/-- One more fragment at the end. The absent value is written as a word. -/
def push (fs : List Fragment) : Fragment → List Fragment
  | text sql => pushText fs sql
  | captured .null => pushText fs "NULL"
  | f => fs ++ [f]

/-- A writer keeps the normal form, and adds the given signs to any that are there. -/
structure Appends (write : List Fragment → List Fragment) (xs : List Sign) : Prop where
  /-- The normal form is kept. -/
  isNormal : ∀ fs, IsNormal fs → IsNormal (write fs)
  /-- The signs are added. -/
  allSigns : ∀ fs, allSigns (write fs) = allSigns fs ++ xs

theorem appends_id : Appends id [] where
  isNormal _ h := h
  allSigns _ := (List.append_nil _).symm

/-- Writers compose, and so do the signs that they add. -/
theorem Appends.andThen {f g : List Fragment → List Fragment} {xs ys : List Sign}
    (hf : Appends f xs) (hg : Appends g ys) : Appends (fun fs => g (f fs)) (xs ++ ys) where
  isNormal fs h := hg.isNormal _ (hf.isNormal fs h)
  allSigns fs := by rw [hg.allSigns, hf.allSigns, List.append_assoc]

theorem Appends.congr {write : List Fragment → List Fragment} {xs ys : List Sign}
    (h : Appends write xs) (hsigns : xs = ys) : Appends write ys := hsigns ▸ h

/-- A writer that adds the signs of fragments does what appending these and normalizing does. -/
theorem Appends.eq_normalize {write : List Fragment → List Fragment} {xs : List Sign}
    (h : Appends write xs) {more : List Fragment} (hmore : Fragment.allSigns more = xs)
    {fs : List Fragment} (hfs : IsNormal fs) : write fs = normalize (fs ++ more) := by
  refine (h.isNormal fs hfs).eq_of_allSigns (isNormal_normalize _) ?_
  rw [h.allSigns, allSigns_normalize, allSigns_append, hmore]

theorem isNormal_concat {fs : List Fragment} {f : Fragment} (h : IsNormal fs) (hempty : f ≠ text "")
    (hnull : f ≠ captured .null)
    (hjoin : ∀ g ∈ fs.getLast?, g.isText = true → f.isText = false) : IsNormal (fs ++ [f]) := by
  obtain ⟨hempties, hnulls, hchain⟩ := isNormal_iff.mp h
  refine isNormal_iff.mpr ⟨?_, ?_, ?_⟩
  · simp [hempties, hempty.symm]
  · simp [hnulls, hnull.symm]
  · rw [List.isChain_append]
    refine ⟨hchain, List.isChain_singleton f, fun g hg e he => ?_⟩
    obtain rfl : f = e := by simpa using he
    exact hjoin g hg

/-- Behind anything but text, a text stands by itself unless it is empty. -/
theorem pushText_of_not_isText {fs : List Fragment} (h : ∀ g ∈ fs.getLast?, g.isText = false)
    (sql : String) : pushText fs sql = if sql = "" then fs else fs ++ [text sql] := by
  unfold pushText
  split
  · next last hlast => exact absurd (h (text last) hlast) (by simp [isText])
  · rfl

theorem pushText_concat (front : List Fragment) (last sql : String) :
    pushText (front ++ [text last]) sql = front ++ [text (last ++ sql)] := by
  simp [pushText]

theorem appends_pushText (sql : String) : Appends (pushText · sql) (Sign.ofText sql) := by
  have hcases : ∀ fs : List Fragment, (∀ g ∈ fs.getLast?, g.isText = false) ∨
      ∃ front last, fs = front ++ [text last] := by
    intro fs
    rcases fs.eq_nil_or_concat with rfl | ⟨front, f, rfl⟩
    · exact .inl (by simp)
    · rw [List.concat_eq_append]
      cases f with
      | text last => exact .inr ⟨front, last, rfl⟩
      | _ => exact .inl (by simp [isText])
  constructor
  case isNormal =>
    intro fs h
    rcases hcases fs with hother | ⟨front, last, rfl⟩
    · rw [pushText_of_not_isText hother]
      split
      · exact h
      · next hne =>
        refine isNormal_concat h (by simpa using hne) (by simp) fun g hg htext => ?_
        exact absurd (hother g hg) (by simp [htext])
    · obtain ⟨hempty, hnull, hchain⟩ := isNormal_iff.mp h
      obtain ⟨hfront, -, hjoin⟩ := List.isChain_append.mp hchain
      have hnormal : IsNormal front :=
        isNormal_iff.mpr ⟨fun hmem => hempty (List.mem_append_left _ hmem),
          fun hmem => hnull (List.mem_append_left _ hmem), hfront⟩
      have hne : last ++ sql ≠ "" := by
        intro hsplit
        rw [(String.append_eq_empty_iff.mp hsplit).1] at hempty
        exact hempty (List.mem_append_right _ List.mem_cons_self)
      rw [pushText_concat]
      exact isNormal_concat hnormal (by simpa using hne) (by simp) fun g hg =>
        hjoin g hg (text last) rfl
  case allSigns =>
    intro fs
    rcases hcases fs with hother | ⟨front, last, rfl⟩
    · rw [pushText_of_not_isText hother]
      split
      · next hempty => simp [hempty, Sign.ofText]
      · simp [signs]
    · simp [pushText_concat, signs]

/-- Pushing a fragment adds its signs. -/
theorem appends_push (f : Fragment) : Appends (push · f) f.signs := by
  have hother : ∀ g : Fragment, g.isText = false → g ≠ captured .null →
      Appends (fun fs => fs ++ [g]) g.signs := by
    intro g htext hnull
    refine ⟨fun fs h => ?_, fun fs => by simp⟩
    refine isNormal_concat h ?_ hnull fun _ _ _ => htext
    rintro rfl
    cases htext
  cases f with
  | text sql => exact appends_pushText sql
  | captured v =>
    cases v with
    | null => exact appends_pushText "NULL"
    | _ => exact hother _ rfl (by simp)
  | slot => exact hother _ rfl (by simp)
  | listSlot => exact hother _ rfl (by simp)

/-- Fragments at the end, one after the other. -/
def pushAll (fs more : List Fragment) : List Fragment := more.foldl push fs

theorem appends_pushAll (more : List Fragment) :
    Appends (pushAll · more) (Fragment.allSigns more) := by
  induction more with
  | nil => exact appends_id
  | cons f more ih => exact (appends_push f).andThen ih

/-- What stands between parentheses, if they are wanted. -/
def pushWrapped (wanted : Bool) (write : List Fragment → List Fragment) (fs : List Fragment) :
    List Fragment :=
  if wanted then push (write (push fs (.text "("))) (.text ")") else write fs

/-- One of two ways of writing. -/
def either (first : Bool) (write other : List Fragment → List Fragment) (fs : List Fragment) :
    List Fragment :=
  if first then write fs else other fs

theorem Appends.either {f g : List Fragment → List Fragment} {xs ys : List Sign}
    (hf : Appends f xs) (hg : Appends g ys) (first : Bool) :
    Appends (Fragment.either first f g) (if first then xs else ys) := by
  cases first with
  | false => exact hg
  | true => exact hf

theorem Appends.wrapped {write : List Fragment → List Fragment} {more : List Fragment}
    (h : Appends write (Fragment.allSigns more)) (wanted : Bool) :
    Appends (pushWrapped wanted write) (Fragment.allSigns (Term.wrapIf wanted more)) := by
  cases wanted with
  | false => exact h
  | true =>
    refine ((appends_push (.text "(")).andThen (h.andThen (appends_push (.text ")")))).congr ?_
    simp [Term.wrapIf]

end Fragment

namespace Term

open Fragment

/-- The alias of a table and a point, at the end. -/
def writeQualifier (d : Dialect) (fs : List Fragment) : Option String → List Fragment
  | some a => pushAll fs [.text (d.quote a), .text "."]
  | none => fs

mutual

/-- A term written at the end of fragments. -/
def write (d : Dialect) : Term → List Fragment → List Fragment
  | column qualifier name => fun fs => push (writeQualifier d fs qualifier) (.text (d.quote name))
  | constant v => fun fs => push fs (.captured v)
  | argument list => fun fs => push fs (if list then .listSlot else .slot)
  | operation left op right => fun fs =>
    pushWrapped (wrapsRight op right) (right.write d)
      (pushAll (pushWrapped (left.needsParens op false) (left.write d) fs)
        [.text " ", .text op.sql, .text " "])
  | unary op operand => fun fs =>
    pushWrapped operand.priority?.isSome (operand.write d) (push fs (.text op.sql))
  | call function distinct args => fun fs =>
    push (either args.isEmpty (push · (.text "*")) (writeList d args)
      (either distinct (push · (.text "DISTINCT ")) id
        (pushAll fs [.text function.sql, .text "("]))) (.text ")")
  | case operand branches otherwise => fun fs =>
    push (writeOption d " ELSE " otherwise
      (writeBranches d branches (writeOption d " " operand (push fs (.text "CASE")))))
      (.text " END")
  | cond condition yes no => fun fs =>
    push (no.write d (push (yes.write d (push (condition.write d (push fs (.text "CASE WHEN ")))
      (.text " THEN "))) (.text " ELSE "))) (.text " END")
  | cast operand target => fun fs =>
    pushAll (operand.write d (push fs (.text "CAST(")))
      [.text " AS ", .text (d.nativeType target none), .text ")"]
  | tuple items => fun fs => push (writeList d items (push fs (.text "("))) (.text ")")
  | named operand name => fun fs =>
    pushAll (operand.write d fs) [.text " AS ", .text (d.quote name)]
  | all qualifier => fun fs => push (writeQualifier d fs qualifier) (.text "*")
  | rowNumber partition order => fun fs =>
    push (either order.isEmpty id
      (fun fs => writeOrder d order (push (either partition.isEmpty id (push · (.text " ")) fs)
        (.text "ORDER BY ")))
      (either partition.isEmpty id
        (fun fs => writeList d partition (push fs (.text "PARTITION BY ")))
        (push fs (.text "ROW_NUMBER() OVER (")))) (.text ")")
  | paging limit offset ordered => fun fs => push fs (.text (d.paging limit offset ordered))

/-- Terms divided by commas, at the end of fragments. -/
def writeList (d : Dialect) : List Term → List Fragment → List Fragment
  | [] => fun fs => fs
  | [t] => t.write d
  | t :: ts => fun fs => writeList d ts (push (t.write d fs) (.text ", "))

/-- An optional term behind a keyword, at the end of fragments. -/
def writeOption (d : Dialect) (keyword : String) : Option Term → List Fragment → List Fragment
  | none => fun fs => fs
  | some t => fun fs => t.write d (push fs (.text keyword))

/-- The branches of a choice, at the end of fragments. -/
def writeBranches (d : Dialect) : List (Term × Term) → List Fragment → List Fragment
  | [] => fun fs => fs
  | (condition, result) :: rest => fun fs =>
    writeBranches d rest
      (result.write d (push (condition.write d (push fs (.text " WHEN "))) (.text " THEN ")))

/-- Order terms divided by commas, at the end of fragments. -/
def writeOrder (d : Dialect) : List (Term × Bool) → List Fragment → List Fragment
  | [] => fun fs => fs
  | [(t, descending)] => fun fs => pushAll (t.write d fs) (orderMark descending)
  | (t, descending) :: rest => fun fs =>
    writeOrder d rest (push (pushAll (t.write d fs) (orderMark descending)) (.text ", "))

end

variable {d : Dialect}

theorem appends_writeQualifier (d : Dialect) (qualifier : Option String) :
    Appends (writeQualifier d · qualifier) (Sign.ofText (qualifierText d qualifier)) := by
  cases qualifier with
  | none => exact appends_id
  | some a =>
    refine (appends_pushAll [.text (d.quote a), .text "."]).congr ?_
    simp [qualifierText, signs]

mutual

/-- **A term adds its own signs**, wherever it is written. -/
theorem appends_write : (t : Term) → Appends (t.write d) (Fragment.allSigns (t.fragments d))
  | column qualifier name => by
    rw [write, fragments]
    refine ((appends_writeQualifier d qualifier).andThen
      (appends_push (.text (d.quote name)))).congr ?_
    simp [signs]
  | constant v => by
    rw [write, fragments]
    exact (appends_push (.captured v)).congr (by simp)
  | argument list => by
    rw [write, fragments]
    exact (appends_push (if list then .listSlot else .slot)).congr (by simp)
  | operation left op right => by
    rw [write, fragments]
    refine (((appends_write left).wrapped (left.needsParens op false)).andThen
      ((appends_pushAll [.text " ", .text op.sql, .text " "]).andThen
        ((appends_write right).wrapped (wrapsRight op right)))).congr ?_
    simp [signs, toString]
  | unary op operand => by
    rw [write, fragments]
    refine ((appends_push (.text op.sql)).andThen
      ((appends_write operand).wrapped operand.priority?.isSome)).congr ?_
    simp
  | call function distinct args => by
    rw [write, fragments]
    refine ((appends_pushAll [.text function.sql, .text "("]).andThen
      ((((appends_push (.text "DISTINCT ")).either appends_id distinct).andThen
        (((appends_push (.text "*")).either (appends_writeList args) args.isEmpty).andThen
          (appends_push (.text ")")))))).congr ?_
    cases distinct <;> cases args.isEmpty <;> simp [signs]
  | case operand branches otherwise => by
    rw [write, fragments]
    refine ((appends_push (.text "CASE")).andThen
      ((appends_writeOption " " operand).andThen ((appends_writeBranches branches).andThen
        ((appends_writeOption " ELSE " otherwise).andThen (appends_push (.text " END")))))).congr ?_
    simp
  | cond condition yes no => by
    rw [write, fragments]
    refine ((appends_push (.text "CASE WHEN ")).andThen ((appends_write condition).andThen
      ((appends_push (.text " THEN ")).andThen ((appends_write yes).andThen
        ((appends_push (.text " ELSE ")).andThen ((appends_write no).andThen
          (appends_push (.text " END")))))))).congr ?_
    simp
  | cast operand target => by
    rw [write, fragments]
    refine ((appends_push (.text "CAST(")).andThen ((appends_write operand).andThen
      (appends_pushAll [.text " AS ", .text (d.nativeType target none), .text ")"]))).congr ?_
    simp [signs, toString]
  | tuple items => by
    rw [write, fragments]
    refine ((appends_push (.text "(")).andThen ((appends_writeList items).andThen
      (appends_push (.text ")")))).congr ?_
    simp
  | named operand name => by
    rw [write, fragments]
    refine ((appends_write operand).andThen
      (appends_pushAll [.text " AS ", .text (d.quote name)])).congr ?_
    simp [signs]
  | all qualifier => by
    rw [write, fragments]
    refine ((appends_writeQualifier d qualifier).andThen (appends_push (.text "*"))).congr ?_
    simp [signs]
  | rowNumber partition order => by
    rw [write, fragments]
    have hspace := appends_id.either (appends_push (.text " ")) partition.isEmpty
    have hdivided := appends_id.either ((appends_push (.text "PARTITION BY ")).andThen
      (appends_writeList partition)) partition.isEmpty
    have hordered := appends_id.either (hspace.andThen ((appends_push (.text "ORDER BY ")).andThen
      (appends_writeOrder order))) order.isEmpty
    refine ((appends_push (.text "ROW_NUMBER() OVER (")).andThen (hdivided.andThen
      (hordered.andThen (appends_push (.text ")"))))).congr ?_
    have hby : Sign.ofText " ORDER BY " = Sign.ofText " " ++ Sign.ofText "ORDER BY " := rfl
    cases partition.isEmpty <;> cases order.isEmpty <;> simp [signs, hby]
  | paging limit offset ordered => by
    rw [write, fragments]
    exact (appends_push (.text (d.paging limit offset ordered))).congr (by simp)

theorem appends_writeList : (ts : List Term) →
    Appends (writeList d ts) (Fragment.allSigns (listFragments d ts))
  | [] => by
    rw [writeList, listFragments]
    exact appends_id
  | [t] => by
    rw [writeList, listFragments]
    exact appends_write t
  | t :: u :: ts => by
    rw [writeList, listFragments]
    · refine ((appends_write t).andThen ((appends_push (.text ", ")).andThen
        (appends_writeList (u :: ts)))).congr ?_
      simp
    all_goals simp

theorem appends_writeOption (keyword : String) : (t : Option Term) →
    Appends (writeOption d keyword t) (Fragment.allSigns (optionFragments d keyword t))
  | none => by
    rw [writeOption, optionFragments]
    exact appends_id
  | some t => by
    rw [writeOption, optionFragments]
    exact (appends_push (.text keyword)).andThen (appends_write t)

theorem appends_writeBranches : (branches : List (Term × Term)) →
    Appends (writeBranches d branches) (Fragment.allSigns (branchFragments d branches))
  | [] => by
    rw [writeBranches, branchFragments]
    exact appends_id
  | (condition, result) :: rest => by
    rw [writeBranches, branchFragments]
    refine ((appends_push (.text " WHEN ")).andThen ((appends_write condition).andThen
      ((appends_push (.text " THEN ")).andThen ((appends_write result).andThen
        (appends_writeBranches rest))))).congr ?_
    simp

theorem appends_writeOrder : (order : List (Term × Bool)) →
    Appends (writeOrder d order) (Fragment.allSigns (orderFragments d order))
  | [] => by
    rw [writeOrder, orderFragments]
    exact appends_id
  | [(t, descending)] => by
    rw [writeOrder, orderFragments]
    exact ((appends_write t).andThen (appends_pushAll (orderMark descending))).congr (by simp)
  | (t, descending) :: next :: rest => by
    rw [writeOrder, orderFragments]
    · refine ((appends_write t).andThen ((appends_pushAll (orderMark descending)).andThen
        ((appends_push (.text ", ")).andThen (appends_writeOrder (next :: rest))))).congr ?_
      simp
    all_goals simp

end

end Term

/-! ### Drafts -/

namespace Draft

open Fragment

variable {d : Dialect}

/-- What a step writes at the end of fragments. -/
def Step.write (d : Dialect) : Step → List Fragment → List Fragment
  | text sql => (push · (.text sql))
  | quoted name => (push · (.text (d.quote name)))
  | param v => (push · (.captured v))
  | slot => (push · .slot)
  | listSlot => (push · .listSlot)
  | term t => t.write d

/-- What steps write, one after the other. -/
def written (d : Dialect) (steps : List Step) : List Fragment :=
  steps.foldl (fun fs step => step.write d fs) []

theorem Step.appends_write (step : Step) :
    Appends (step.write d) (Fragment.allSigns (step.pieces d)) := by
  cases step with
  | text sql => exact (appends_push (.text sql)).congr (by simp [pieces])
  | quoted name => exact (appends_push (.text (d.quote name))).congr (by simp [pieces])
  | param v => exact (appends_push (.captured v)).congr (by simp [pieces])
  | slot => exact (appends_push .slot).congr (by simp [pieces])
  | listSlot => exact (appends_push .listSlot).congr (by simp [pieces])
  | term t => exact t.appends_write

/-- Steps add the signs of all their pieces. -/
theorem appends_foldl_write (steps : List Step) :
    Appends (fun fs => steps.foldl (fun fs step => step.write d fs) fs)
      (Fragment.allSigns (steps.flatMap (·.pieces d))) := by
  induction steps with
  | nil => exact appends_id
  | cons step steps ih =>
    refine (step.appends_write.andThen ih).congr ?_
    rw [List.flatMap_cons, allSigns_append]

theorem isNormal_written (d : Dialect) (steps : List Step) : IsNormal (written d steps) :=
  (appends_foldl_write steps).isNormal [] trivial

/-- **What is written step by step is the draft.** -/
theorem foldl_apply_eq_written (d : Dialect) (steps : List Step) :
    steps.foldl apply ⟨d, []⟩ = ⟨d, written d steps⟩ := by
  have hempty : IsNormal [] := trivial
  have hnormal := (appends_foldl_write (d := d) steps).eq_normalize rfl hempty
  have hfold := foldl_apply d [] steps
  rw [Fragment.normalize] at hfold
  rw [hfold, written, hnormal]

end Draft

namespace Operation

open Fragment

/-- What holds of the operations that steps assemble. -/
structure Composes (d : Dialect) (steps : List Draft.Step) : Prop where
  /-- The draft has what the steps write, one after the other. -/
  draft : steps.foldl Draft.apply ⟨d, []⟩ = ⟨d, Draft.written d steps⟩
  /-- No text in it is empty. -/
  nonempty : .text "" ∉ Draft.written d steps
  /-- Of two neighbours at most one is text. -/
  joined : (Draft.written d steps).IsChain fun f g => f.isText = true → g.isText = false
  /-- A term that is written behind it is what the term is by itself. -/
  term : ∀ t : Term, Draft.build ⟨d, t.write d (Draft.written d steps)⟩ =
    ofFragments d (Draft.written d steps ++ t.write d [])
  /-- Steps with the same characters, values and slots assemble the same operation, and no others
  do. -/
  recut : ∀ more : List Draft.Step, assemble d more = assemble d steps ↔
    Fragment.allSigns (more.flatMap (·.pieces d)) = Fragment.allSigns (steps.flatMap (·.pieces d))

/-- **Rendering is compositional.** Whatever steps have assembled so far, fragments are in normal
form, a term adds what it is by itself, and it does not matter how text was cut. -/
theorem composes_of_steps (d : Dialect) (steps : List Draft.Step) : Composes d steps := by
  have hnormal := Draft.isNormal_written d steps
  obtain ⟨hempty, -, hchain⟩ := isNormal_iff.mp hnormal
  refine ⟨Draft.foldl_apply_eq_written d steps, hempty, hchain, fun t => ?_, fun more => ?_⟩
  · have happends := t.appends_write (d := d)
    have hsigns : Fragment.allSigns (t.write d []) = Fragment.allSigns (t.fragments d) :=
      happends.allSigns []
    exact congrArg (Operation.mk d) (happends.eq_normalize hsigns hnormal)
  · rw [← normalize_eq_iff, assemble_eq, assemble_eq]
    exact ⟨congrArg Operation.fragments, congrArg (Operation.mk d)⟩

end Operation

end EntitySql
