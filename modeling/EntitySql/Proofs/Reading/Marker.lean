import EntitySql.Proofs.Reading.Symbol
import EntitySql.Sql.Operation

/-!
# The markers of a filled statement

A statement is filled by writing a marker for every captured value and for every value of an
argument. The markers of the text are then the words, outside of quotes, that begin as a marker
does. They are found in the text by scanning it.

Scanning the filled text follows scanning the fragments step by step: where the one holds a value or
a slot, the other has the word of the last marker written for it. That this word ends where the
value ends is what the scanner of the fragments checked when it refused a value that touches a word.

## Main definitions

* `Scan.Filled`: how the states of the two scans correspond
* `Scan.Writes`: a text that is read as symbols that end in a word, wherever a value may stand

## Main results

* `Scan.markers_total_text`: a text adds no markers on either side
* `Scan.markers_total_hole`: a value or a slot is scanned as what is written for it
* `marker_isWord`: the markers of the dialects are words, and begin as a marker does
-/

namespace EntitySql

namespace Scan

variable {d : Dialect}

/-- A word that is being read does not cease to be a marker. -/
theorem markers_pending_of_plain {s : Scan} {xs : List Sign} (h : Plain (total d s xs)) :
    markers s.pending = [] := by
  induction xs generalizing s with
  | nil => exact h.markers_eq_nil
  | cons x xs ih =>
    rw [total_cons] at h
    cases s with
    | word cs =>
      cases x with
      | char c =>
        by_cases hc : Symbol.isWordChar c = true
        · have hnext := ih (s := .word (cs ++ [c])) (by simpa [step, takeChar, hc] using h.right)
          cases cs with
          | nil => rfl
          | cons b cs => simpa [markers, pending, Symbol.marker?] using hnext
        · have hout := h.left
          simp only [step, takeChar, hc, restart] at hout
          exact hout.left.markers_eq_nil
      | value v => exact absurd (by simp [step, hold]) h.left.not_mem_illegal
      | slot list => exact absurd (by simp [step, hold]) h.left.not_mem_illegal
    | held y =>
      cases x with
      | char c =>
        by_cases hc : Symbol.isWordChar c = true
        · exact absurd (by simp [step, takeChar, hc]) h.left.not_mem_illegal
        · have hout := h.left
          simp only [step, takeChar, hc, restart] at hout
          exact hout.left.markers_eq_nil
      | value v => exact absurd (by simp [step, hold]) h.left.not_mem_illegal
      | slot list => exact absurd (by simp [step, hold]) h.left.not_mem_illegal
    | between | quoted | closed | mark => rfl

/-! ### The scan of a filled text -/

/-- How the scan of a filled text follows the scan of its fragments: the states are the same, but
that a word, the last marker of a value or a slot, stands for it. -/
inductive Filled : Scan → Scan → Prop where
  | same {s : Scan} (h : ∀ x, s ≠ .held x) : Filled s s
  | held {x : Symbol} {w : List Char} : Filled (.held x) (.word w)

theorem start_ne_held {opening c : Char} (x : Symbol) : (start opening c).2 ≠ .held x := by
  simp only [start]
  repeat' split
  all_goals simp

theorem takeChar_ne_held {opening close : Char} {s : Scan} {c : Char} (x : Symbol) :
    (s.takeChar opening close c).2 ≠ .held x := by
  have hstart : (start opening c).2 ≠ .held x := start_ne_held x
  cases s <;> simp only [takeChar, restart] <;> (try split) <;>
    first | exact hstart | simp

/-- A character that no word has ends a word, and what a value or a slot stands for. -/
theorem step_word {w : List Char} {c : Char} (hc : Symbol.isWordChar c = false) :
    step d (.word w) (.char c) =
      (.word (String.ofList w) :: (start d.openQuote c).1, (start d.openQuote c).2) := by
  simp [step, takeChar, hc, restart, pending]

theorem step_held {x : Symbol} {c : Char} (hc : Symbol.isWordChar c = false) :
    step d (.held x) (.char c) = (x :: (start d.openQuote c).1, (start d.openQuote c).2) := by
  simp [step, takeChar, hc, restart, pending]

/-- A character is scanned alike on both sides. -/
theorem markers_total_char {s s' : Scan} {c : Char} {ys ys' : List Sign} {ms : List String}
    (hs : Filled s s') (h : Plain (total d s (.char c :: ys)))
    (hrest : ∀ t t', Filled t t' → Plain (total d t ys) →
      markers (total d t' ys') = markers t'.pending ++ ms) :
    markers (total d s' (.char c :: ys')) = markers s'.pending ++ ms := by
  have hpending := markers_pending_of_plain h
  rw [total_cons] at h
  have hnext := markers_pending_of_plain h.right
  rw [total_cons, markers_append]
  cases hs with
  | same hheld =>
    have hsame : Filled (step d s (.char c)).2 (step d s (.char c)).2 :=
      .same fun x => takeChar_ne_held x
    rw [hrest _ _ hsame h.right, h.left.markers_eq_nil, hpending, hnext]
    rfl
  | @held x w =>
    cases hc : Symbol.isWordChar c with
    | true => exact absurd (by simp [step, takeChar, hc]) h.left.not_mem_illegal
    | false =>
      rw [step_held hc] at h hnext
      have hsame : Filled (start d.openQuote c).2 (start d.openQuote c).2 :=
        .same fun x => start_ne_held x
      have hout : Plain ([x] ++ (start d.openQuote c).1) := h.left
      rw [step_word hc, hrest _ _ hsame h.right, hnext]
      have hword : markers (.word (String.ofList w) :: (start d.openQuote c).1) =
          markers [.word (String.ofList w)] ++ markers (start d.openQuote c).1 :=
        markers_append [_] _
      rw [hword, hout.right.markers_eq_nil, List.append_nil]
      rfl

/-- So is a text. -/
theorem markers_total_text {s s' : Scan} {cs : List Char} {ys ys' : List Sign} {ms : List String}
    (hs : Filled s s') (h : Plain (total d s (cs.map .char ++ ys)))
    (hrest : ∀ t t', Filled t t' → Plain (total d t ys) →
      markers (total d t' ys') = markers t'.pending ++ ms) :
    markers (total d s' (cs.map .char ++ ys')) = markers s'.pending ++ ms := by
  induction cs generalizing s s' with
  | nil => exact hrest s s' hs h
  | cons c cs ih => exact markers_total_char hs h fun t t' ht hplain => ih ht hplain

/-! ### What stands for a value or a slot -/

/-- The state is one in which a value or a slot may come next. -/
def isReady : Scan → Bool
  | between | closed _ | mark _ => true
  | word _ | quoted _ | held _ => false

theorem ne_of_isWordChar {c b : Char} (hc : Symbol.isWordChar c = true)
    (hb : Symbol.isWordChar b = false) : c ≠ b := by
  rintro rfl
  rw [hc] at hb
  exact absurd hb (by decide)

/-- A word begins behind whatever is complete. -/
theorem step_ready (hd : d.HasPlainQuotes) {s : Scan} (hs : s.isReady = true) {c : Char}
    (hc : Symbol.isWordChar c = true) : step d s (.char c) = (s.pending, .word [c]) := by
  have hopening : c ≠ d.openQuote := by
    rcases hd with ⟨h, -⟩ | ⟨h, -⟩ <;> exact h ▸ ne_of_isWordChar hc rfl
  have hclose : c ≠ d.closeQuote := by
    rcases hd with ⟨-, h⟩ | ⟨-, h⟩ <;> exact h ▸ ne_of_isWordChar hc rfl
  have hblank : c ≠ ' ' := ne_of_isWordChar hc rfl
  have hstart : start d.openQuote c = ([], .word [c]) := by simp [start, hopening, hblank, hc]
  cases s with
  | between => simp [step, takeChar, hstart, pending]
  | closed cs => simp [step, takeChar, hclose, restart, hstart]
  | mark m =>
    have hpair : (m, c) ∉ Symbol.pairs := by
      have hgreater : c ≠ '>' := ne_of_isWordChar hc rfl
      have hequal : c ≠ '=' := ne_of_isWordChar hc rfl
      have hless : c ≠ '<' := ne_of_isWordChar hc rfl
      simp [Symbol.pairs, hgreater, hequal, hless]
    simp [step, takeChar, hpair, restart, hstart]
  | word | quoted | held => simp [isReady] at hs

theorem run_word {w cs : List Char} (hcs : ∀ c ∈ cs, Symbol.isWordChar c = true) :
    run d (.word w) (cs.map .char) = ([], .word (w ++ cs)) := by
  induction cs generalizing w with
  | nil => simp [run]
  | cons c cs ih =>
    have hc := hcs c List.mem_cons_self
    rw [List.map_cons, run]
    simp [step, takeChar, hc, ih fun b hb => hcs b (List.mem_cons_of_mem c hb)]

/-- A text that is read, wherever a value or a slot may come, as symbols that end in a word. -/
def Writes (d : Dialect) (sql : String) (front : List Symbol) (w : List Char) : Prop :=
  ∀ s : Scan, s.isReady = true →
    run d s (Sign.ofText sql) = (s.pending ++ front, .word w)

theorem writes_word (hd : d.HasPlainQuotes) {sql : String} (hne : sql.toList ≠ [])
    (hsql : ∀ c ∈ sql.toList, Symbol.isWordChar c = true) : Writes d sql [] sql.toList := by
  intro s hs
  rw [Sign.ofText]
  obtain ⟨c, cs, hcs⟩ := List.exists_cons_of_ne_nil hne
  rw [hcs] at hsql ⊢
  rw [List.map_cons, run, step_ready hd hs (hsql c List.mem_cons_self)]
  simp [run_word fun b hb => hsql b (List.mem_cons_of_mem c hb)]

/-- Two such texts with a comma between them. -/
theorem Writes.comma (hd : d.HasPlainQuotes) {a b : String} {front front' : List Symbol}
    {w w' : List Char} (ha : Writes d a front w) (hb : Writes d b front' w') :
    Writes d (a ++ ("," ++ b)) (front ++ .word (String.ofList w) :: .mark "," :: front') w' := by
  intro s hs
  have hcomma : step d (.word w) (.char ',') =
      ([.word (String.ofList w), .mark ","], .between) := by
    rw [step_word rfl]
    rcases hd with ⟨h, -⟩ | ⟨h, -⟩ <;> rw [h] <;> rfl
  have hsigns : Sign.ofText "," = [.char ','] := rfl
  rw [Sign.ofText_append, Sign.ofText_append, run_append, ha s hs, hsigns, List.singleton_append,
    run]
  simp only [hcomma, hb .between rfl]
  simp [pending]

/-- A value or a slot is scanned as what is written for it. -/
theorem markers_total_hole {s s' : Scan} {x : Symbol} {hole : Sign} (hx : step d s hole = s.hold x)
    {ys ys' : List Sign} {ms : List String} (hs : Filled s s') (h : Plain (total d s (hole :: ys)))
    {sql : String} {front : List Symbol} {w : List Char} (hsql : Writes d sql front w)
    (hrest : ∀ t t', Filled t t' → Plain (total d t ys) →
      markers (total d t' ys') = markers t'.pending ++ ms) :
    markers (total d s' (Sign.ofText sql ++ ys')) =
      markers s'.pending ++ (markers (front ++ [.word (String.ofList w)]) ++ ms) := by
  rw [total_cons, hx] at h
  -- what touches a word or another value is illegal
  have hready : s.isReady = true ∧ s.hold x = (s.pending, .held x) := by
    cases s with
    | between | closed | mark => exact ⟨rfl, rfl⟩
    | word | quoted | held => exact absurd (by simp [hold]) h.left.not_mem_illegal
  obtain rfl : s' = s := by
    cases hs with
    | same => rfl
    | held => exact absurd hready.1 (by simp [isReady])
  rw [hready.2] at h
  rw [total_append, hsql s' hready.1, markers_append, markers_append,
    hrest _ _ (.held (x := x)) h.right, markers_append]
  simp [pending]

end Scan

/-! ### Markers -/

theorem isWordChar_of_isDigit {c : Char} (hc : c.isDigit = true) : Symbol.isWordChar c = true := by
  simp [Symbol.isWordChar, Text.isWordChar, Char.isAlphanum, hc]

/-- The markers of the dialects are words, and begin as a marker does. -/
theorem marker_isWord {d : Dialect} (hd : d ∈ Dialect.shipped) (n : Nat) :
    (∀ c ∈ (d.marker n).toList, Symbol.isWordChar c = true) ∧
      (d.marker n).toList.head?.any Symbol.isMarkerChar = true := by
  have hdigits : ∀ c ∈ (toString n).toList, Symbol.isWordChar c = true := by
    intro c hc
    have hmem : c ∈ Nat.toDigits 10 n := by simpa using hc
    exact isWordChar_of_isDigit (Nat.isDigit_of_mem_toDigits (by decide) (by decide) hmem)
  rcases Dialect.mem_shipped.mp hd with rfl | rfl | rfl
  · have hmarker : Dialect.sqlite.marker n = "?" := rfl
    rw [hmarker]
    exact ⟨List.all_eq_true.mp rfl, rfl⟩
  · have hmarker : Dialect.postgres.marker n = "$" ++ toString n := rfl
    have hchars : (Dialect.postgres.marker n).toList = '$' :: (toString n).toList := by
      simp [hmarker]
    rw [hchars]
    refine ⟨fun c hc => ?_, rfl⟩
    rcases List.mem_cons.mp hc with rfl | hc
    · rfl
    · exact hdigits c hc
  · have hmarker : Dialect.sqlServer.marker n = "@p" ++ toString n := rfl
    have hchars : (Dialect.sqlServer.marker n).toList = '@' :: 'p' :: (toString n).toList := by
      simp [hmarker]
    rw [hchars]
    refine ⟨fun c hc => ?_, rfl⟩
    rcases List.mem_cons.mp hc with rfl | hc
    · rfl
    · rcases List.mem_cons.mp hc with rfl | hc
      · rfl
      · exact hdigits c hc

end EntitySql
