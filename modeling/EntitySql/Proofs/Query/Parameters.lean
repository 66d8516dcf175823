import EntitySql.Proofs.Query.Leaf
import EntitySql.Proofs.Reading.Marker
import EntitySql.Proofs.Reading.Term

/-!
# The parameters of a statement

From an expression to a statement no parameter is lost, doubled or moved. A call gives a statement
exactly when its arguments fit the leaves of the operation; its parameters are then the values of
the leaves from left to right, each in the form in which the dialect binds it; and the markers of
its text are numbered from one, as many as there are parameters.

Markers are found by scanning the text, so a name that looks like a marker is none. That the values
of a list and their commas are scanned in place of the one slot is `writes_ofList`.

## Main definitions

* `numbered`: consecutive markers
* `Operation.Binds`: what is bound when an operation is called

## Main results

* `Fragment.values_fill`: the values that are filled in are those that the leaves bind
* `Operation.statement_eq_ok_iff`: a call gives a statement exactly when its arguments fit
* `markers_fill`: the markers of a filled text are numbered in the order of its values
* `Scope.binds_prepare`: an expression binds its leaves
-/

namespace EntitySql

/-- As many markers as given, in order from the given number. -/
def numbered (d : Dialect) (next count : Nat) : List String :=
  (List.range count).map fun i => d.marker (next + i)

theorem numbered_add (d : Dialect) (next m n : Nat) :
    numbered d next (m + n) = numbered d next m ++ numbered d (next + m) n := by
  simp [numbered, List.range_add, Function.comp_def, Nat.add_assoc]

theorem numbered_succ (d : Dialect) (next n : Nat) :
    numbered d next (n + 1) = d.marker next :: numbered d (next + 1) n := by
  rw [Nat.add_comm, numbered_add]
  rfl

/-! ### Filling -/

namespace Cell

theorem values_append (as bs : List Cell) : values (as ++ bs) = values as ++ values bs := by
  induction as with
  | nil => rfl
  | cons a as ih => cases a <;> simp [values, ih]

theorem values_ofList (vs : List Value) : values (ofList vs) = vs := by
  induction vs with
  | nil => rfl
  | cons v vs ih =>
    cases vs with
    | nil => rfl
    | cons w ws => simpa [ofList, values] using ih

theorem write_append (marker : Nat → String) (next : Nat) (as bs : List Cell) :
    write marker next (as ++ bs) =
      write marker next as ++ write marker (next + (values as).length) bs := by
  induction as generalizing next with
  | nil => simp [write, values]
  | cons a as ih =>
    cases a with
    | text sql => simp [write, values, ih, String.append_assoc]
    | bound v => simp [write, values, ih, String.append_assoc, Nat.add_assoc, Nat.add_comm 1]

end Cell

namespace Fragment

/-- No absent value is captured. -/
def NoNull (fs : List Fragment) : Prop := .captured .null ∉ fs

theorem noNull_consText {sql : String} {fs : List Fragment} (h : NoNull fs) :
    NoNull (consText sql fs) := by
  unfold consText
  split
  · simpa [NoNull] using h
  · split
    · exact h
    · simpa [NoNull] using h

theorem noNull_normalize (fs : List Fragment) : NoNull (normalize fs) := by
  induction fs with
  | nil => simp [normalize, NoNull]
  | cons f rest ih =>
    cases f with
    | text sql => exact noNull_consText ih
    | captured v =>
      cases v with
      | null => exact noNull_consText ih
      | _ => simpa [normalize, NoNull] using ih
    | slot => simpa [normalize, NoNull] using ih
    | listSlot => simpa [normalize, NoNull] using ih

theorem leaf_captured {v : Value} (h : v ≠ .null) : leaf (captured v) = [.constant v] := by
  cases v <;> first | exact absurd rfl h | rfl

/-- **The values that are filled in are those that the leaves bind.** -/
theorem values_fill {fs : List Fragment} (hnull : NoNull fs) {args : List Argument}
    (hfits : Leaf.fits (leaves fs) args = true) :
    Cell.values (fill fs args) = Leaf.bind (leaves fs) args := by
  induction fs generalizing args with
  | nil => cases args <;> rfl
  | cons f fs ih =>
    have hrest : NoNull fs := fun h => hnull (List.mem_cons_of_mem f h)
    cases f with
    | text sql => exact ih hrest hfits
    | captured v =>
      have hv : v ≠ .null := by
        rintro rfl
        exact hnull List.mem_cons_self
      rw [leaves_cons, leaf_captured hv] at hfits ⊢
      exact congrArg (v :: ·) (ih hrest hfits)
    | slot =>
      cases args with
      | nil => simp [leaf, Leaf.fits] at hfits
      | cons a args =>
        cases a with
        | value v => exact congrArg (v :: ·) (ih hrest hfits)
        | list vs => simp [leaf, Leaf.fits] at hfits
    | listSlot =>
      cases args with
      | nil => simp [leaf, Leaf.fits] at hfits
      | cons a args =>
        cases a with
        | value v => simp [leaf, Leaf.fits] at hfits
        | list vs =>
          have hvalues := ih hrest hfits
          rw [fill, Cell.values_append, Cell.values_ofList, hvalues]
          rfl

end Fragment

namespace Operation

theorem slotCount_eq (o : Operation) :
    o.slotCount = Leaf.slotCount (Fragment.leaves o.fragments) := by
  simp only [slotCount, slots, Leaf.slotCount]
  induction o.fragments with
  | nil => rfl
  | cons f fs ih =>
    cases f with
    | text sql => exact ih
    | captured v => cases v <;> exact ih
    | slot => exact congrArg (· + 1) ih
    | listSlot => exact congrArg (· + 1) ih

/-- Arguments fit the leaves of fragments when they are as many as the slots, and each is of the shape
of its slot. -/
theorem fits_iff (fs : List Fragment) (args : List Argument) (position : Nat) :
    Leaf.fits (Fragment.leaves fs) args = true ↔
      args.length = (fs.filter Fragment.isSlot).length ∧
        shapeFault? position (fs.filter Fragment.isSlot) args = none := by
  induction fs generalizing args position with
  | nil => cases args <;> simp [Leaf.fits, shapeFault?]
  | cons f fs ih =>
    cases f with
    | text sql => exact ih args position
    | captured v =>
      have hleaf : Leaf.fits (Fragment.leaves (.captured v :: fs)) args =
          Leaf.fits (Fragment.leaves fs) args := by
        cases v <;> rfl
      rw [hleaf]
      exact ih args position
    | slot =>
      have hslots : (Fragment.slot :: fs).filter Fragment.isSlot =
          .slot :: fs.filter Fragment.isSlot := rfl
      rw [hslots]
      cases args with
      | nil => simp [Fragment.leaf, Leaf.fits]
      | cons a args =>
        cases a with
        | value v => simpa [shapeFault?, Fragment.leaf, Leaf.fits] using ih args (position + 1)
        | list vs => simp [Fragment.leaf, Leaf.fits, shapeFault?]
    | listSlot =>
      have hslots : (Fragment.listSlot :: fs).filter Fragment.isSlot =
          .listSlot :: fs.filter Fragment.isSlot := rfl
      rw [hslots]
      cases args with
      | nil => simp [Fragment.leaf, Leaf.fits]
      | cons a args =>
        cases a with
        | value v => simp [Fragment.leaf, Leaf.fits, shapeFault?]
        | list vs => simpa [shapeFault?, Fragment.leaf, Leaf.fits] using ih args (position + 1)

/-- **A call gives a statement exactly when its arguments fit.** -/
theorem statement_eq_ok_iff {o : Operation} {args : List Argument} {st : Statement} :
    o.statement args = .ok st ↔
      Leaf.fits (Fragment.leaves o.fragments) args = true ∧ o.filled args = st := by
  rw [fits_iff o.fragments args 0, statement]
  by_cases hlength : args.length = o.slotCount
  · have hcount : args.length = (o.fragments.filter Fragment.isSlot).length := hlength
    rw [if_neg (not_not_intro hlength)]
    change _ ↔ (_ ∧ shapeFault? 0 o.slots args = none) ∧ _
    cases hfault : shapeFault? 0 o.slots args with
    | none => simp [hcount]
    | some fault => simp
  · rw [if_pos hlength]
    constructor
    · intro h
      exact absurd h (by simp)
    · rintro ⟨⟨hcount, -⟩, -⟩
      exact absurd hcount hlength

end Operation

/-! ### Markers -/

section

variable {d : Dialect} (hd : d ∈ Dialect.shipped)

include hd

theorem writes_marker (n : Nat) :
    Scan.Writes d (d.marker n) [] (d.marker n).toList ∧
      markers [.word (String.ofList (d.marker n).toList)] = [d.marker n] := by
  obtain ⟨hword, hfirst⟩ := marker_isWord hd n
  have hne : (d.marker n).toList ≠ [] := by
    intro hnil
    simp [hnil] at hfirst
  refine ⟨Scan.writes_word (Dialect.hasPlainQuotes_of_shipped hd) hne hword, ?_⟩
  rw [String.ofList_toList]
  simp [markers, Symbol.marker?, hfirst]

/-- The markers of a list are divided by commas. Without a value there is the word `NULL`, which is
no marker. -/
theorem writes_ofList (vs : List Value) (next : Nat) :
    ∃ front w, Scan.Writes d (Cell.write d.marker next (Cell.ofList vs)) front w ∧
      markers (front ++ [.word (String.ofList w)]) = numbered d next vs.length := by
  induction vs generalizing next with
  | nil =>
    have hempty : Cell.write d.marker next (Cell.ofList []) = "NULL" := rfl
    refine ⟨[], "NULL".toList, ?_, rfl⟩
    rw [hempty]
    exact Scan.writes_word (Dialect.hasPlainQuotes_of_shipped hd) (by decide)
      (List.all_eq_true.mp rfl)
  | cons v vs ih =>
    obtain ⟨hfirst, hmarkers⟩ := writes_marker hd next
    cases vs with
    | nil =>
      refine ⟨[], (d.marker next).toList, ?_, ?_⟩
      · simpa [Cell.ofList, Cell.write] using hfirst
      · simpa [numbered] using hmarkers
    | cons u us =>
      obtain ⟨front, w, hrest, hnumbers⟩ := ih (next + 1)
      refine ⟨_, w, hfirst.comma (Dialect.hasPlainQuotes_of_shipped hd) hrest, ?_⟩
      have hcomma : markers [.mark ","] = [] := rfl
      have hsplit : ([] : List Symbol) ++ .word (String.ofList (d.marker next).toList) ::
          .mark "," :: front ++ [.word (String.ofList w)] =
            [.word (String.ofList (d.marker next).toList)] ++ ([.mark ","] ++
              (front ++ [.word (String.ofList w)])) := by simp
      rw [hsplit, markers_append, hmarkers, markers_append, hcomma, hnumbers, List.nil_append]
      exact (numbered_succ d next (us.length + 1)).symm

/-- **The markers of a filled text are numbered in the order of its values.** -/
theorem markers_fill {fs : List Fragment} (hnull : Fragment.NoNull fs) {args : List Argument}
    (hfits : Leaf.fits (Fragment.leaves fs) args = true) {s s' : Scan} (next : Nat)
    (hs : Scan.Filled s s') (h : Plain (Scan.total d s (Fragment.allSigns fs))) :
    markers (Scan.total d s' (Sign.ofText (Cell.write d.marker next (Fragment.fill fs args)))) =
      markers s'.pending ++
        numbered d next (Leaf.bind (Fragment.leaves fs) args).length := by
  induction fs generalizing args s s' next with
  | nil =>
    have hnone : Fragment.fill [] args = [] := by cases args <;> rfl
    simp [hnone, Cell.write, Sign.ofText, Leaf.bind, numbered]
  | cons f fs ih =>
    have hrest : Fragment.NoNull fs := fun h => hnull (List.mem_cons_of_mem f h)
    cases f with
    | text sql =>
      rw [Fragment.allSigns_cons, Fragment.signs, Sign.ofText] at h
      rw [Fragment.fill, Cell.write, Sign.ofText_append, Sign.ofText]
      exact Scan.markers_total_text hs h fun t t' ht hplain => ih hrest hfits next ht hplain
    | captured v =>
      have hv : v ≠ .null := by
        rintro rfl
        exact hnull List.mem_cons_self
      have hsigns : Fragment.signs (.captured v) = [.value v] := by
        cases v <;> first | exact absurd rfl hv | rfl
      obtain ⟨hwrites, hmarker⟩ := writes_marker hd next
      rw [Fragment.leaves_cons, Fragment.leaf_captured hv] at hfits ⊢
      rw [Fragment.allSigns_cons, hsigns] at h
      rw [Fragment.fill, Cell.write, Sign.ofText_append]
      refine (Scan.markers_total_hole rfl hs h hwrites fun t t' ht hplain =>
        ih hrest hfits (next + 1) ht hplain).trans ?_
      rw [List.nil_append, hmarker, List.singleton_append, ← numbered_succ]
      rfl
    | slot =>
      cases args with
      | nil => simp [Fragment.leaf, Leaf.fits] at hfits
      | cons a args =>
        cases a with
        | list vs => simp [Fragment.leaf, Leaf.fits] at hfits
        | value v =>
          obtain ⟨hwrites, hmarker⟩ := writes_marker hd next
          rw [Fragment.fill, Cell.write, Sign.ofText_append]
          refine (Scan.markers_total_hole rfl hs h hwrites fun t t' ht hplain =>
            ih hrest hfits (next + 1) ht hplain).trans ?_
          rw [List.nil_append, hmarker, List.singleton_append, ← numbered_succ]
          rfl
    | listSlot =>
      cases args with
      | nil => simp [Fragment.leaf, Leaf.fits] at hfits
      | cons a args =>
        cases a with
        | value v => simp [Fragment.leaf, Leaf.fits] at hfits
        | list vs =>
          obtain ⟨front, w, hwrites, hmarkers⟩ := writes_ofList hd vs next
          rw [Fragment.fill, Cell.write_append, Cell.values_ofList, Sign.ofText_append]
          refine (Scan.markers_total_hole rfl hs h hwrites fun t t' ht hplain =>
            ih hrest hfits (next + vs.length) ht hplain).trans ?_
          rw [hmarkers, ← numbered_add, ← List.length_append]
          rfl

/-! ### Operations -/

/-- What is bound when an operation is called: each leaf once, from left to right, and one marker in
the text for each value, numbered in the order of the values. -/
structure Operation.Binds (o : Operation) (d : Dialect) (ls : List Leaf) : Prop where
  /-- There is a slot for each leaf that takes an argument. -/
  slotCount : o.slotCount = Leaf.slotCount ls
  /-- A call gives a statement exactly when its arguments fit the leaves. -/
  accepts : ∀ args, (∃ st, o.statement args = .ok st) ↔ Leaf.fits ls args = true
  /-- The parameters are the values of the leaves, as the dialect binds them. -/
  params : ∀ args st, o.statement args = .ok st →
    st.params = (Leaf.bind ls args).map d.toBound
  /-- The markers are numbered from one. -/
  markers : ∀ args st, o.statement args = .ok st →
    d.markersIn st.sql = numbered d 1 st.params.length

omit hd in
/-- The parameters of a call are the values of the leaves. -/
theorem Operation.params_ofFragments {fs : List Fragment} {args : List Argument} {st : Statement}
    (h : (ofFragments d fs).statement args = .ok st) :
    Leaf.fits (Fragment.leaves fs) args = true ∧
      st.params = (Leaf.bind (Fragment.leaves fs) args).map d.toBound := by
  have hfragments : (ofFragments d fs).fragments = Fragment.normalize fs := rfl
  obtain ⟨hfits, rfl⟩ := statement_eq_ok_iff.mp h
  have hvalues := Fragment.values_fill (Fragment.noNull_normalize fs) (hfragments ▸ hfits)
  rw [Fragment.leaves_normalize] at hvalues
  rw [hfragments, Fragment.leaves_normalize] at hfits
  exact ⟨hfits, hvalues ▸ rfl⟩

/-- **An operation binds the leaves of its fragments**, if its text is one of plain symbols. -/
theorem Operation.binds_ofFragments {fs : List Fragment} {as : List Symbol}
    (hscans : Scans d (Fragment.allSigns fs) as) (hplain : Plain as) :
    (ofFragments d fs).Binds d (Fragment.leaves fs) := by
  have hfragments : (ofFragments d fs).fragments = Fragment.normalize fs := rfl
  have hleaves : Fragment.leaves (ofFragments d fs).fragments = Fragment.leaves fs := by
    rw [hfragments, Fragment.leaves_normalize]
  have hnull : Fragment.NoNull (ofFragments d fs).fragments := by
    rw [hfragments]
    exact Fragment.noNull_normalize fs
  refine ⟨?_, fun args => ?_, fun args st h => (params_ofFragments h).2, fun args st h => ?_⟩
  · rw [slotCount_eq, hleaves]
  · simp [statement_eq_ok_iff, hleaves]
  · have htotal : Plain (Scan.total d .between (Fragment.allSigns (ofFragments d fs).fragments)) := by
      rw [hfragments, Fragment.allSigns_normalize]
      obtain rfl := hscans.symbols_eq
      exact hplain
    rw [(params_ofFragments h).2, List.length_map]
    obtain ⟨hfits, rfl⟩ := statement_eq_ok_iff.mp h
    rw [← hleaves]
    exact markers_fill hd hnull hfits 1 (.same fun x => by simp) htotal

/-- **An expression binds its leaves.** -/
theorem Scope.binds_prepare {s : Scope} {e : Expr} {o : Operation} (h : s.prepare d e = .ok o) :
    o.Binds d e.leaves := by
  rw [prepare] at h
  cases hcompile : s.compile e with
  | error fault => simp [hcompile, Except.map] at h
  | ok t =>
    rw [hcompile] at h
    obtain rfl := Except.ok.inj h
    rw [← leaves_compile s d e hcompile]
    exact Operation.binds_ofFragments hd (t.scans_fragments hd) (t.plain_symbols hd)

end

end EntitySql
