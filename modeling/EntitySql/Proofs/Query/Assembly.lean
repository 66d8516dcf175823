import EntitySql.Proofs.Query.Masking

/-!
# Assembled statements

An operation is assembled by steps, each of which appends some pieces, and is then called any number
of times. What a call gives is said here of the pieces as they were appended: what they are written
as, the values that they bind, and which arguments are refused. The normal form in which an
operation keeps them does not occur in it.

There are two ways to the text of a statement. Without slots for lists it is written once, when the
operation is assembled, as if every argument were absent; with such slots it is written for each
call. An absent value is a word where it is captured, but it takes a marker where it is an argument,
and so the text that was written once is that of every call.

## Main definitions

* `Operation.assemble`: the operation of a sequence of steps
* `Fragment.Renders`: what pieces are written as in a call, and the values of its markers
* `Fragment.Refuses`: the arguments that do not fit, with the fault of each
* `Marked`: a text with consecutive markers in it
* `Operation.reusing`: a call that uses the text written once
* `Operation.Conforms`: what an operation is for the pieces that it is assembled of

## Main results

* `Operation.assemble_eq`: assembling in steps is assembling all their pieces at once
* `Fragment.Renders.eq_filled`: what is written is what the normal form is filled to
* `Operation.takes_or_refuses`: arguments fit, or are refused for a reason
* `Operation.sql_of_sql?`: the text that was written once is that of every call
* `Operation.conforms_assemble`: an assembled operation is what its pieces specify
-/

namespace EntitySql

/-! ### Steps -/

namespace Fragment

theorem consText_consText (a b : String) (fs : List Fragment) :
    consText a (consText b fs) = consText (a ++ b) fs := by
  rcases fs with _ | ⟨f, fs⟩
  · by_cases hb : b = "" <;> simp [consText, hb]
  · cases f with
    | text sql => simp [consText, String.append_assoc]
    | captured v => by_cases hb : b = "" <;> simp [consText, hb]
    | slot => by_cases hb : b = "" <;> simp [consText, hb]
    | listSlot => by_cases hb : b = "" <;> simp [consText, hb]

theorem consText_empty (fs : List Fragment) : consText "" fs = fs := by
  rcases fs with _ | ⟨f, fs⟩
  · rfl
  · cases f <;> simp [consText]

theorem normalize_consText_append (sql : String) (fs gs : List Fragment) :
    normalize (consText sql fs ++ gs) = consText sql (normalize (fs ++ gs)) := by
  -- in front of text it is joined to that, and in front of anything else it stands by itself
  have hother : normalize ((if sql = "" then fs else text sql :: fs) ++ gs) =
      consText sql (normalize (fs ++ gs)) := by
    split
    · next hempty => rw [hempty, consText_empty]
    · rfl
  rcases fs with _ | ⟨f, fs⟩
  · exact hother
  · cases f with
    | text next => exact (consText_consText sql next _).symm
    | captured v => exact hother
    | slot => exact hother
    | listSlot => exact hother

/-- **Pieces may be normalized as they are appended.** -/
theorem normalize_append (fs gs : List Fragment) :
    normalize (normalize fs ++ gs) = normalize (fs ++ gs) := by
  induction fs with
  | nil => rfl
  | cons f fs ih =>
    cases f with
    | text sql => rw [normalize, normalize_consText_append, ih]; rfl
    | captured v =>
      cases v with
      | null => rw [normalize, normalize_consText_append, ih]; rfl
      | _ => simp [normalize, ih]
    | slot => simp [normalize, ih]
    | listSlot => simp [normalize, ih]

theorem filter_isSlot_consText (sql : String) (fs : List Fragment) :
    (consText sql fs).filter isSlot = fs.filter isSlot := by
  unfold consText
  split
  · rfl
  · split <;> rfl

/-- The normal form has the same slots. -/
theorem filter_isSlot_normalize (fs : List Fragment) :
    (normalize fs).filter isSlot = fs.filter isSlot := by
  induction fs with
  | nil => rfl
  | cons f fs ih =>
    cases f with
    | text sql => rw [normalize, filter_isSlot_consText, ih]; rfl
    | captured v =>
      cases v with
      | null => rw [normalize, filter_isSlot_consText, ih]; rfl
      | _ => exact ih
    | slot => exact congrArg (slot :: ·) ih
    | listSlot => exact congrArg (listSlot :: ·) ih

theorem normalize_captured {v : Value} (h : v ≠ .null) (fs : List Fragment) :
    normalize (captured v :: fs) = captured v :: normalize fs := by
  cases v <;> first | exact absurd rfl h | rfl

end Fragment

namespace Draft

/-- A step of assembling an operation. -/
inductive Step where
  /-- Literal text. -/
  | text (sql : String)
  /-- A name, which is quoted. -/
  | quoted (name : String)
  /-- A value. -/
  | param (v : Value)
  /-- A slot for one value. -/
  | slot
  /-- A slot for a list of values. -/
  | listSlot
  /-- A term. -/
  | term (t : Term)

/-- The draft after a step. -/
def apply (b : Draft) : Step → Draft
  | .text sql => b.text sql
  | .quoted name => b.quoted name
  | .param v => b.param v
  | .slot => b.slot
  | .listSlot => b.listSlot
  | .term t => b.term t

/-- The pieces that a step appends. -/
def Step.pieces (d : Dialect) : Step → List Fragment
  | text sql => [.text sql]
  | quoted name => [.text (d.quote name)]
  | param v => [.captured v]
  | slot => [.slot]
  | listSlot => [.listSlot]
  | term t => t.fragments d

theorem apply_eq (b : Draft) (step : Step) : b.apply step = b.append (step.pieces b.dialect) := by
  cases step <;> rfl

theorem foldl_apply (d : Dialect) (fs : List Fragment) (steps : List Step) :
    steps.foldl apply ⟨d, Fragment.normalize fs⟩ =
      ⟨d, Fragment.normalize (fs ++ steps.flatMap (·.pieces d))⟩ := by
  induction steps generalizing fs with
  | nil => simp
  | cons step steps ih =>
    rw [List.foldl_cons, apply_eq, append, Fragment.normalize_append, ih, List.flatMap_cons,
      List.append_assoc]

end Draft

/-- The operation that is assembled by steps. -/
def Operation.assemble (d : Dialect) (steps : List Draft.Step) : Operation :=
  (steps.foldl Draft.apply ⟨d, []⟩).build

/-- **Assembling in steps is assembling all their pieces at once.** -/
theorem Operation.assemble_eq (d : Dialect) (steps : List Draft.Step) :
    assemble d steps = ofFragments d (steps.flatMap (·.pieces d)) :=
  congrArg Draft.build (Draft.foldl_apply d [] steps)

/-! ### What pieces are written as -/

namespace Fragment

/-- The argument is of the shape that the slot takes. -/
inductive Takes : Fragment → Argument → Prop where
  /-- One value. -/
  | value {v : Value} : Takes slot (.value v)
  /-- A list of values. -/
  | list {vs : List Value} : Takes listSlot (.list vs)

/-- What pieces are written as in a call, and the values of its markers, which are numbered from the
given number on. -/
inductive Renders (d : Dialect) : Nat → List Fragment → List Argument → String → List Value → Prop
    where
  /-- Nothing is left. -/
  | nil {next} : Renders d next [] [] "" []
  /-- Text stays as it is. -/
  | text {next fs args sql params} (s : String) : Renders d next fs args sql params →
      Renders d next (.text s :: fs) args (s ++ sql) params
  /-- An absent value that is captured is a word. -/
  | null {next fs args sql params} : Renders d next fs args sql params →
      Renders d next (.captured .null :: fs) args ("NULL" ++ sql) params
  /-- Any other takes a marker. -/
  | captured {next fs args sql params} {v : Value} : v ≠ .null →
      Renders d (next + 1) fs args sql params →
      Renders d next (.captured v :: fs) args (d.marker next ++ sql) (d.toBound v :: params)
  /-- So does every argument, absent or not. -/
  | slot {next fs args sql params} (v : Value) : Renders d (next + 1) fs args sql params →
      Renders d next (.slot :: fs) (.value v :: args) (d.marker next ++ sql)
        (d.toBound v :: params)
  /-- A list without values is a word. -/
  | empty {next fs args sql params} : Renders d next fs args sql params →
      Renders d next (.listSlot :: fs) (.list [] :: args) ("NULL" ++ sql) params
  /-- Any other takes a marker for each of its values, absent or not. -/
  | list {next fs args sql params} {vs : List Value} : vs ≠ [] →
      Renders d (next + vs.length) fs args sql params →
      Renders d next (.listSlot :: fs) (.list vs :: args)
        (",".intercalate (numbered d next vs.length) ++ sql) (vs.map d.toBound ++ params)

theorem write_fill_consText (marker : Nat → String) (next : Nat) (sql : String)
    (fs : List Fragment) (args : List Argument) :
    Cell.write marker next (fill (consText sql fs) args) =
      sql ++ Cell.write marker next (fill fs args) := by
  unfold consText
  split
  · simp [fill, Cell.write, String.append_assoc]
  · split
    · next hempty => simp [hempty]
    · rfl

theorem values_fill_consText (sql : String) (fs : List Fragment) (args : List Argument) :
    Cell.values (fill (consText sql fs) args) = Cell.values (fill fs args) := by
  unfold consText
  split
  · rfl
  · split <;> rfl

theorem write_ofList_eq (d : Dialect) (next : Nat) {vs : List Value} (h : vs ≠ []) :
    Cell.write d.marker next (Cell.ofList vs) = ",".intercalate (numbered d next vs.length) := by
  induction vs generalizing next with
  | nil => exact absurd rfl h
  | cons v vs ih =>
    rcases vs with _ | ⟨w, vs⟩
    · simp [Cell.ofList, Cell.write, numbered]
    · have hrest := ih (next + 1) (List.cons_ne_nil w vs)
      rw [List.length_cons, numbered_succ] at hrest ⊢
      rw [List.length_cons, numbered_succ, String.intercalate_cons_cons, Cell.ofList, Cell.write,
        Cell.write, hrest, String.append_assoc]
      simp

section

variable {d : Dialect} {next : Nat} {fs : List Fragment} {args : List Argument} {sql : String}
  {params : List Value}

/-- The arguments of a call that is written fit its slots. -/
theorem Renders.takes (h : Renders d next fs args sql params) :
    List.Forall₂ Takes (fs.filter isSlot) args := by
  induction h with
  | nil => exact .nil
  | text _ _ ih | null _ ih | captured _ _ ih => exact ih
  | slot v _ ih => exact .cons .value ih
  | empty _ ih | list _ _ ih => exact .cons .list ih

/-- Arguments that fit the slots can be written. -/
theorem exists_renders (d : Dialect) (next : Nat)
    (h : List.Forall₂ Takes (fs.filter isSlot) args) :
    ∃ sql params, Renders d next fs args sql params := by
  induction fs generalizing next args with
  | nil =>
    cases h
    exact ⟨_, _, .nil⟩
  | cons f fs ih =>
    cases f with
    | text s =>
      obtain ⟨sql, params, hrest⟩ := ih next h
      exact ⟨_, _, .text s hrest⟩
    | captured v =>
      by_cases hv : v = .null
      · subst hv
        obtain ⟨sql, params, hrest⟩ := ih next h
        exact ⟨_, _, .null hrest⟩
      · obtain ⟨sql, params, hrest⟩ := ih (next + 1) h
        exact ⟨_, _, .captured hv hrest⟩
    | slot =>
      obtain ⟨_, args, htakes, hargs, rfl⟩ := List.forall₂_cons_left_iff.mp h
      cases htakes with | @value v =>
      obtain ⟨sql, params, hrest⟩ := ih (next + 1) hargs
      exact ⟨_, _, .slot v hrest⟩
    | listSlot =>
      obtain ⟨_, args, htakes, hargs, rfl⟩ := List.forall₂_cons_left_iff.mp h
      cases htakes with | @list vs =>
      by_cases hvs : vs = []
      · subst hvs
        obtain ⟨sql, params, hrest⟩ := ih next hargs
        exact ⟨_, _, .empty hrest⟩
      · obtain ⟨sql, params, hrest⟩ := ih (next + vs.length) hargs
        exact ⟨_, _, .list hvs hrest⟩

/-- **What is written is what the normal form is filled to.** -/
theorem Renders.eq_filled (h : Renders d next fs args sql params) :
    sql = Cell.write d.marker next (fill (normalize fs) args) ∧
      params = (Cell.values (fill (normalize fs) args)).map d.toBound := by
  induction h with
  | nil => exact ⟨rfl, rfl⟩
  | text s _ ih =>
    rw [normalize, write_fill_consText, values_fill_consText, ← ih.1]
    exact ⟨rfl, ih.2⟩
  | null _ ih =>
    rw [normalize, write_fill_consText, values_fill_consText, ← ih.1]
    exact ⟨rfl, ih.2⟩
  | captured hv _ ih =>
    rw [normalize_captured hv, ih.1, ih.2]
    exact ⟨rfl, rfl⟩
  | slot v _ ih =>
    rw [ih.1, ih.2]
    exact ⟨rfl, rfl⟩
  | empty _ ih =>
    rw [ih.1, ih.2]
    exact ⟨rfl, rfl⟩
  | list hvs _ ih =>
    have hfill : ∀ (fs : List Fragment) (vs : List Value) (args : List Argument),
        fill (normalize (.listSlot :: fs)) (.list vs :: args) =
          Cell.ofList vs ++ fill (normalize fs) args := fun _ _ _ => rfl
    rw [ih.1, ih.2, hfill, Cell.write_append, Cell.values_append, Cell.values_ofList,
      write_ofList_eq d _ hvs, List.map_append]
    exact ⟨rfl, rfl⟩

end

end Fragment

/-! ### Markers -/

/-- A text that is made of as many markers as given, numbered from the given number on, and of other
text around them. -/
inductive Marked (d : Dialect) : Nat → Nat → String → Prop where
  /-- No marker, and other text. -/
  | text {next : Nat} (s : String) : Marked d next 0 s
  /-- Other text, the next marker and what follows it. -/
  | marker {next count : Nat} {sql : String} (s : String) : Marked d (next + 1) count sql →
      Marked d next (count + 1) (s ++ d.marker next ++ sql)

namespace Marked

variable {d : Dialect} {next count : Nat} {sql : String}

theorem behind_text (h : Marked d next count sql) (s : String) :
    Marked d next count (s ++ sql) := by
  cases h with
  | text => exact .text (s ++ sql)
  | marker t hrest =>
    have hmarker := Marked.marker (s ++ t) hrest
    simpa only [String.append_assoc] using hmarker

theorem behind_marker (h : Marked d (next + 1) count sql) :
    Marked d next (count + 1) (d.marker next ++ sql) := by
  have hmarker := Marked.marker "" h
  simpa only [String.empty_append] using hmarker

/-- The markers of a list are numbered on. -/
theorem behind_list {n : Nat} (h : Marked d (next + (n + 1)) count sql) :
    Marked d next (n + 1 + count) (",".intercalate (numbered d next (n + 1)) ++ sql) := by
  induction n generalizing next with
  | zero =>
    have hone : ",".intercalate (numbered d next 1) = d.marker next := by simp [numbered]
    rw [hone, Nat.add_comm 1 count]
    exact h.behind_marker
  | succ n ih =>
    have hnext : next + (n + 1 + 1) = next + 1 + (n + 1) := by omega
    have hcount : n + 1 + 1 + count = n + 1 + count + 1 := by omega
    have hrest := (ih (hnext ▸ h)).behind_text ","
    rw [numbered_succ] at hrest
    rw [numbered_succ, numbered_succ, String.intercalate_cons_cons, hcount, String.append_assoc,
      String.append_assoc]
    exact hrest.behind_marker

end Marked

/-- **What is written has one marker for each of its values**, numbered in their order. -/
theorem Fragment.Renders.marked {d : Dialect} {next : Nat} {fs : List Fragment}
    {args : List Argument} {sql : String} {params : List Value}
    (h : Renders d next fs args sql params) : Marked d next params.length sql := by
  induction h with
  | nil => exact .text ""
  | text s _ ih => exact ih.behind_text s
  | null _ ih | empty _ ih => exact ih.behind_text "NULL"
  | captured _ _ ih | slot _ _ ih => exact ih.behind_marker
  | list hvs _ ih =>
    obtain ⟨n, hn⟩ := Nat.exists_eq_add_of_le' (List.length_pos_iff.mpr hvs)
    rw [List.length_append, List.length_map, hn]
    rw [hn] at ih
    exact ih.behind_list

/-! ### The arguments of a call -/

/-- The arguments that do not fit slots, each list of them with the fault that is reported. -/
inductive Fragment.Refuses : List Fragment → List Argument → ArgumentFault → Prop where
  /-- There are more or fewer of them than slots. -/
  | count {slots : List Fragment} {args : List Argument} : args.length ≠ slots.length →
      Refuses slots args (.count slots.length args.length)
  /-- The first one that does not fit is a list for a slot that takes one value. -/
  | listForScalar {before after : List Fragment} {taken more : List Argument} {vs : List Value} :
      List.Forall₂ Takes before taken → more.length = after.length →
      Refuses (before ++ slot :: after) (taken ++ .list vs :: more)
        (.listForScalar before.length)
  /-- The first one that does not fit is one value for a slot that takes a list. -/
  | scalarForList {before after : List Fragment} {taken more : List Argument} {v : Value} :
      List.Forall₂ Takes before taken → more.length = after.length →
      Refuses (before ++ listSlot :: after) (taken ++ .value v :: more)
        (.scalarForList before.length)

/-- Two lists of one length are related, or there is a first place where they are not. -/
theorem forall₂_or_exists_first {α β : Type} {R : α → β → Prop} {xs : List α} {ys : List β}
    (hlength : ys.length = xs.length) :
    List.Forall₂ R xs ys ∨ ∃ before x after taken y more, xs = before ++ x :: after ∧
      ys = taken ++ y :: more ∧ List.Forall₂ R before taken ∧ more.length = after.length ∧
        ¬ R x y := by
  induction xs generalizing ys with
  | nil => exact .inl (List.length_eq_zero_iff.mp hlength ▸ .nil)
  | cons x xs ih =>
    obtain ⟨y, ys, rfl⟩ := List.exists_cons_of_length_eq_add_one hlength
    have hrest : ys.length = xs.length := by simpa using hlength
    by_cases hxy : R x y
    · rcases ih hrest with
        hall | ⟨before, x', after, taken, y', more, rfl, rfl, htaken, hmore, hnot⟩
      · exact .inl (.cons hxy hall)
      · exact .inr ⟨x :: before, x', after, y :: taken, y', more, rfl, rfl, .cons hxy htaken, hmore,
          hnot⟩
    · exact .inr ⟨[], x, xs, [], y, ys, rfl, rfl, .nil, hrest, hxy⟩

namespace Operation

open Fragment (Takes Refuses Renders)

section

variable {o : Operation} {args : List Argument}

/-- Arguments that fit are passed over. -/
theorem shapeFault?_append {before : List Fragment} {taken : List Argument}
    (h : List.Forall₂ Takes before taken) (position : Nat) (slots : List Fragment) :
    shapeFault? position (before ++ slots) (taken ++ args) =
      shapeFault? (position + before.length) slots args := by
  induction h generalizing position with
  | nil => rfl
  | cons htakes _ ih =>
    have hnext := ih (position + 1)
    rw [Nat.add_assoc, Nat.add_comm 1] at hnext
    cases htakes with
    | value => exact hnext
    | list => exact hnext

theorem statement_of_takes (h : List.Forall₂ Takes o.slots args) :
    o.statement args = .ok (o.filled args) := by
  have hfault : shapeFault? 0 o.slots args = none := by
    rw [← List.append_nil o.slots, ← List.append_nil args, shapeFault?_append h]
    rfl
  have hlength : args.length = o.slotCount := h.length_eq.symm
  rw [statement, if_neg (not_not_intro hlength), hfault]

theorem statement_of_refuses {fault : ArgumentFault} (h : Refuses o.slots args fault) :
    o.statement args = .error (.argumentMismatch fault) := by
  rw [statement, slotCount]
  generalize o.slots = slots at h
  cases h with
  | count hlength => rw [if_pos hlength]
  | listForScalar htaken hmore | scalarForList htaken hmore =>
    rw [if_neg (by simp [htaken.length_eq, hmore]), shapeFault?_append htaken, Nat.zero_add]
    rfl

/-- **Arguments fit, or are refused for a reason.** -/
theorem takes_or_refuses (o : Operation) (args : List Argument) :
    List.Forall₂ Takes o.slots args ∨ ∃ fault, Refuses o.slots args fault := by
  have hslot : ∀ f ∈ o.slots, f.isSlot = true := fun f hf => (List.mem_filter.mp hf).2
  by_cases hlength : args.length = o.slots.length
  · rcases forall₂_or_exists_first (R := Takes) hlength with
      htakes | ⟨before, f, after, taken, a, more, hslots, rfl, htaken, hmore, hnot⟩
    · exact .inl htakes
    · have hf : f.isSlot = true := hslot f (by simp [hslots])
      rw [hslots]
      cases f with
      | text sql => cases hf
      | captured v => cases hf
      | slot =>
        cases a with
        | value v => exact absurd .value hnot
        | list vs => exact .inr ⟨_, .listForScalar htaken hmore⟩
      | listSlot =>
        cases a with
        | value v => exact .inr ⟨_, .scalarForList htaken hmore⟩
        | list vs => exact absurd .list hnot
  · exact .inr ⟨_, .count hlength⟩

theorem exists_statement_iff :
    (∃ st, o.statement args = .ok st) ↔ List.Forall₂ Takes o.slots args := by
  constructor
  · rintro ⟨st, hst⟩
    rcases takes_or_refuses o args with htakes | ⟨fault, hrefuses⟩
    · exact htakes
    · rw [statement_of_refuses hrefuses] at hst
      cases hst
  · intro htakes
    exact ⟨_, statement_of_takes htakes⟩

theorem statement_eq_error_iff {error : Error} : o.statement args = .error error ↔
    ∃ fault, error = .argumentMismatch fault ∧ Refuses o.slots args fault := by
  constructor
  · intro herror
    rcases takes_or_refuses o args with htakes | ⟨fault, hrefuses⟩
    · rw [statement_of_takes htakes] at herror
      cases herror
    · rw [statement_of_refuses hrefuses] at herror
      exact ⟨fault, (Except.error.inj herror).symm, hrefuses⟩
  · rintro ⟨fault, rfl, hrefuses⟩
    exact statement_of_refuses hrefuses

/-! ### The text that is written once -/

/-- The statement for a list of arguments, with the text that was written when the operation was
assembled if there is one. -/
def reusing (o : Operation) (args : List Argument) : Except Error Statement :=
  (o.statement args).map fun st => { st with sql := o.sql?.getD st.sql }

/-- Arguments of slots for one value are of one shape. -/
theorem map_shape_of_takes {slots : List Fragment} (hlist : .listSlot ∉ slots)
    (h : List.Forall₂ Takes slots args) :
    (List.replicate slots.length (.value .null)).map Argument.shape = args.map Argument.shape := by
  induction h with
  | nil => rfl
  | cons htakes _ ih =>
    cases htakes with
    | value => exact congrArg (none :: ·) (ih (List.not_mem_of_not_mem_cons hlist))
    | list => exact absurd List.mem_cons_self hlist

theorem exists_sql?_iff (o : Operation) : (∃ sql, o.sql? = some sql) ↔ .listSlot ∉ o.slots := by
  have hslots : .listSlot ∈ o.slots ↔ .listSlot ∈ o.fragments := by simp [slots, Fragment.isSlot]
  rw [hslots, sql?, hasListSlots]
  by_cases hlist : .listSlot ∈ o.fragments <;> simp [hlist]

/-- **The text that was written once is that of every call.** -/
theorem sql_of_sql? {sql : String} (hsql : o.sql? = some sql) {st : Statement}
    (hst : o.statement args = .ok st) : st.sql = sql := by
  have hlist := (exists_sql?_iff o).mp ⟨sql, hsql⟩
  have htakes := exists_statement_iff.mp ⟨st, hst⟩
  rw [statement_of_takes htakes] at hst
  obtain rfl := Except.ok.inj hst
  rw [sql?] at hsql
  split at hsql
  · cases hsql
  · obtain rfl := Option.some.inj hsql
    exact (Fragment.write_fill_shape o.dialect.marker o.fragments
      (map_shape_of_takes hlist htakes) 1).symm

theorem reusing_eq (o : Operation) (args : List Argument) :
    o.reusing args = o.statement args := by
  rw [reusing]
  cases hst : o.statement args with
  | error error => rfl
  | ok st =>
    cases hsql : o.sql? with
    | none => rfl
    | some sql =>
      obtain rfl := sql_of_sql? hsql hst
      rfl

end

/-! ### Assembled operations -/

/-- What an operation is for the pieces that it is assembled of. -/
structure Conforms (o : Operation) (d : Dialect) (pieces : List Fragment) : Prop where
  /-- A call gives a statement exactly if there is an argument of the right shape for each slot. -/
  accepts : ∀ args, (∃ st, o.statement args = .ok st) ↔
    List.Forall₂ Takes (pieces.filter Fragment.isSlot) args
  /-- Otherwise the error is the number of the arguments, or else the first that does not fit. -/
  refuses : ∀ args error, o.statement args = .error error ↔
    ∃ fault, error = .argumentMismatch fault ∧ Refuses (pieces.filter Fragment.isSlot) args fault
  /-- A statement is the pieces, written in their order, and the values of its markers. -/
  renders : ∀ args st, o.statement args = .ok st ↔ Renders d 1 pieces args st.sql st.params
  /-- Its markers are numbered from one, as many as values. -/
  marked : ∀ args st, o.statement args = .ok st → Marked d 1 st.params.length st.sql
  /-- There is a text written once exactly if no slot takes a list. -/
  constant : (∃ sql, o.sql? = some sql) ↔ .listSlot ∉ pieces
  /-- It is the text of every call. -/
  reuses : ∀ sql, o.sql? = some sql → ∀ args st, o.statement args = .ok st → st.sql = sql
  /-- So a call may use it. -/
  reusing : ∀ args, o.reusing args = o.statement args

theorem slots_ofFragments (d : Dialect) (fs : List Fragment) :
    (ofFragments d fs).slots = fs.filter Fragment.isSlot :=
  Fragment.filter_isSlot_normalize fs

theorem statement_ofFragments_iff {d : Dialect} {fs : List Fragment} {args : List Argument}
    {st : Statement} : (ofFragments d fs).statement args = .ok st ↔
      Renders d 1 fs args st.sql st.params := by
  constructor
  · intro hst
    have htakes := exists_statement_iff.mp ⟨st, hst⟩
    rw [statement_of_takes htakes] at hst
    obtain rfl := Except.ok.inj hst
    rw [slots_ofFragments] at htakes
    obtain ⟨sql, params, hrenders⟩ := Fragment.exists_renders d 1 htakes
    obtain ⟨rfl, rfl⟩ := hrenders.eq_filled
    exact hrenders
  · intro hrenders
    have htakes := hrenders.takes
    rw [← slots_ofFragments d] at htakes
    obtain ⟨hsql, hparams⟩ := hrenders.eq_filled
    have hfilled : (ofFragments d fs).filled args = st :=
      congrArg₂ Statement.mk hsql.symm hparams.symm
    rw [statement_of_takes htakes, hfilled]

theorem conforms_ofFragments (d : Dialect) (fs : List Fragment) :
    (ofFragments d fs).Conforms d fs := by
  refine ⟨fun args => ?_, fun args error => ?_, fun args st => statement_ofFragments_iff,
    fun args st hst => (statement_ofFragments_iff.mp hst).marked, ?_,
    fun sql hsql args st hst => sql_of_sql? hsql hst, reusing_eq _⟩
  · rw [exists_statement_iff, slots_ofFragments]
  · rw [statement_eq_error_iff, slots_ofFragments]
  · rw [exists_sql?_iff, slots_ofFragments]
    simp [Fragment.isSlot]

/-- **An assembled operation is what its pieces specify.** -/
theorem conforms_assemble (d : Dialect) (steps : List Draft.Step) :
    (assemble d steps).Conforms d (steps.flatMap (·.pieces d)) := by
  rw [assemble_eq]
  exact conforms_ofFragments d _

/-- An absent value is a word if it is captured, and takes a marker if it is an argument. -/
example : (assemble .postgres [.text "a = ", .param .null, .text " OR b = ", .slot,
      .text " OR c IN (", .listSlot, .text ")"]).statement [.value .null, .list []] =
    .ok ⟨"a = NULL OR b = $1 OR c IN (NULL)", [.null]⟩ := by decide +kernel

end Operation

end EntitySql
