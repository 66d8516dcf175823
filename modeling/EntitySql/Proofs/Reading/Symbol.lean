import EntitySql.Sql.Shipped
import EntitySql.Sql.Term

/-!
# The symbols of a rendered text

A rendered statement is a sequence of signs: the characters of its text, the values captured in it
and its slots. Reading starts by scanning these signs into symbols, which are quoted names, words,
marks, values and slots. The scanner knows nothing of the renderer: a name stands between the
quotes of the dialect, a doubled closing quote inside it stands for one, a run of word characters
is one word, and the marks of two characters are taken before those of one.

A value stands for a parameter marker, and a marker is a word. So a value that touches a word or
another value is illegal: the marker would run together with it.

## Main definitions

* `Sign`, `Fragment.signs`: what a rendered statement consists of
* `Symbol`, `Scan`: what is read, and the state of the scanner
* `Scan.run`, `Dialect.symbols`: the scanner
* `Scans`, `Settles`: signs that are read as the given symbols wherever they stand
* `Dialect.markersIn`: the markers in a text
* `Fragment.Reads`: readings of fragments that do not see how text is cut
* `Plain`, `PlainText`: symbols and texts without markers and without signs that form no symbol

## Main results

* `Fragment.allSigns_normalize`: how text is cut into fragments does not matter
* `Scans.append`, `Settles.append_scans`: signs are scanned piece by piece
* `scans_quote`: a quoted name is read as the name
* `PlainText.plain_symbols`: a plain text is read as plain symbols
-/

namespace EntitySql

/-- A sign of a rendered statement. -/
inductive Sign where
  /-- A character of the text. -/
  | char (c : Char)
  /-- A captured value. -/
  | value (v : Value)
  /-- A slot for one value, or for a list of them. -/
  | slot (list : Bool)
deriving DecidableEq, Inhabited, Repr

/-- The characters of a text as signs. -/
def Sign.ofText (s : String) : List Sign := s.toList.map .char

namespace Fragment

/-- The signs of a fragment. The absent value is the word `NULL`. -/
def signs : Fragment → List Sign
  | text sql => Sign.ofText sql
  | captured v => if v.isNull then Sign.ofText "NULL" else [.value v]
  | slot => [.slot false]
  | listSlot => [.slot true]

/-- The signs of fragments, one after the other. -/
def allSigns (fs : List Fragment) : List Sign := fs.flatMap signs

end Fragment

@[simp] theorem Sign.ofText_append (a b : String) : ofText (a ++ b) = ofText a ++ ofText b := by
  simp [ofText]

@[simp] theorem Fragment.allSigns_nil : allSigns [] = [] := rfl

@[simp] theorem Fragment.allSigns_cons (f : Fragment) (fs : List Fragment) :
    allSigns (f :: fs) = f.signs ++ allSigns fs := rfl

@[simp] theorem Fragment.allSigns_append (fs gs : List Fragment) :
    allSigns (fs ++ gs) = allSigns fs ++ allSigns gs :=
  List.flatMap_append

/-! ### Readings that do not see how text is cut -/

/-- A reading of fragments, each by itself, to which a text is what its parts are and the absent
value is the word `NULL`. These are the two things that the normal form changes. -/
structure Fragment.Reads {α : Type} (read : Fragment → List α) : Prop where
  /-- The empty text is nothing. -/
  empty : read (text "") = []
  /-- A text is its parts. -/
  append (a b : String) : read (text (a ++ b)) = read (text a) ++ read (text b)
  /-- The absent value is a word. -/
  null : read (captured .null) = read (text "NULL")

namespace Fragment.Reads

variable {α : Type} {read : Fragment → List α}

theorem consText (h : Reads read) (sql : String) (fs : List Fragment) :
    (Fragment.consText sql fs).flatMap read = read (text sql) ++ fs.flatMap read := by
  unfold Fragment.consText
  split
  · simp [h.append]
  · split
    · next hempty => simp [hempty, h.empty]
    · rfl

/-- The normal form is read as the fragments are. -/
theorem normalize (h : Reads read) (fs : List Fragment) :
    (Fragment.normalize fs).flatMap read = fs.flatMap read := by
  induction fs with
  | nil => rfl
  | cons f rest ih =>
    cases f with
    | text sql => rw [Fragment.normalize, h.consText, ih]; rfl
    | captured v => cases v <;> simp [Fragment.normalize, h.consText, ih, h.null]
    | slot => simp [Fragment.normalize, ih]
    | listSlot => simp [Fragment.normalize, ih]

end Fragment.Reads

theorem Fragment.reads_signs : Reads signs where
  empty := rfl
  append := Sign.ofText_append
  null := rfl

/-- **How text is cut does not matter.** The normal form has the same signs. -/
theorem Fragment.allSigns_normalize (fs : List Fragment) :
    allSigns (normalize fs) = allSigns fs :=
  reads_signs.normalize fs

/-! ### Scanning -/

/-- What a rendered statement is read as. -/
inductive Symbol where
  /-- A quoted name, without its quotes. -/
  | name (s : String)
  /-- A run of word characters. -/
  | word (s : String)
  /-- An operator or a punctuation mark. -/
  | mark (s : String)
  /-- A captured value. -/
  | value (v : Value)
  /-- A slot. -/
  | slot (list : Bool)
  /-- Signs that form no symbol. -/
  | illegal
deriving DecidableEq, Inhabited, Repr

/-- Whether a character belongs to a word. The markers of parameters are words too. -/
def Symbol.isWordChar (c : Char) : Bool :=
  Text.isWordChar c || c == '?' || c == '$' || c == '@'

/-- The marks of two characters. -/
def Symbol.pairs : List (Char × Char) :=
  [('<', '>'), ('<', '='), ('<', '<'), ('>', '='), ('>', '>')]

/-- What the scanner has of the symbol that it is reading. -/
inductive Scan where
  /-- Nothing. -/
  | between
  /-- The characters of a word. -/
  | word (cs : List Char)
  /-- The characters of a name whose end is not reached. -/
  | quoted (cs : List Char)
  /-- The characters of a name behind a closing quote, which may be the first of two. -/
  | closed (cs : List Char)
  /-- The first character of a mark. -/
  | mark (c : Char)
  /-- A value or a slot. -/
  | held (x : Symbol)
deriving DecidableEq, Inhabited, Repr

namespace Scan

/-- The symbols that the scanner has when nothing follows. -/
def pending : Scan → List Symbol
  | between => []
  | word cs => [.word (String.ofList cs)]
  | quoted _ => [.illegal]
  | closed cs => [.name (String.ofList cs)]
  | mark c => [.mark (String.singleton c)]
  | held x => [x]

/-- The first character of a symbol. -/
def start (opening c : Char) : List Symbol × Scan :=
  if c = opening then ([], quoted [])
  else if c = ' ' then ([], between)
  else if Symbol.isWordChar c then ([], word [c])
  else if Symbol.pairs.any (·.1 == c) then ([], mark c)
  else ([.mark (String.singleton c)], between)

/-- A character that does not continue the symbol being read. -/
def restart (opening : Char) (s : Scan) (c : Char) : List Symbol × Scan :=
  (s.pending ++ (start opening c).1, (start opening c).2)

/-- The next character. -/
def takeChar (opening close : Char) (s : Scan) (c : Char) : List Symbol × Scan :=
  match s with
  | between => start opening c
  | word cs => if Symbol.isWordChar c then ([], word (cs ++ [c])) else s.restart opening c
  | quoted cs => if c = close then ([], closed cs) else ([], quoted (cs ++ [c]))
  | closed cs => if c = close then ([], quoted (cs ++ [c])) else s.restart opening c
  | mark m =>
    if Symbol.pairs.contains (m, c) then ([.mark (String.ofList [m, c])], between)
    else s.restart opening c
  | held _ => if Symbol.isWordChar c then ([.illegal], between) else s.restart opening c

/-- The next value or slot. It must not touch a word. -/
def hold (s : Scan) (x : Symbol) : List Symbol × Scan :=
  match s with
  | word _ | quoted _ | held _ => ([.illegal], between)
  | _ => (s.pending, held x)

/-- The next sign. -/
def step (d : Dialect) (s : Scan) : Sign → List Symbol × Scan
  | .char c => s.takeChar d.openQuote d.closeQuote c
  | .value v => s.hold (.value v)
  | .slot list => s.hold (.slot list)

/-- Scans signs: the symbols that are complete, and the state behind them. -/
def run (d : Dialect) : Scan → List Sign → List Symbol × Scan
  | s, [] => ([], s)
  | s, x :: xs =>
    let first := s.step d x
    let rest := run d first.2 xs
    (first.1 ++ rest.1, rest.2)

/-- Whether the state is inside a quoted name. -/
def isOpen : Scan → Bool
  | quoted _ => true
  | _ => false

end Scan

/-- The symbols of signs. -/
def Dialect.symbols (d : Dialect) (xs : List Sign) : List Symbol :=
  (Scan.run d .between xs).1 ++ (Scan.run d .between xs).2.pending

theorem Scan.run_append (d : Dialect) (s : Scan) (xs ys : List Sign) :
    run d s (xs ++ ys) =
      ((run d s xs).1 ++ (run d (run d s xs).2 ys).1, (run d (run d s xs).2 ys).2) := by
  induction xs generalizing s with
  | nil => simp [run]
  | cons x xs ih => simp [run, ih]

/-! ### Scanning piece by piece

Most pieces of a statement end in the middle of a symbol, which the character behind them ends. So a
piece is scanned on its own when the piece behind it begins with a break. -/

/-- Whether a character ends every symbol outside quotes. -/
def Sign.isBreak (c : Char) : Bool := c == ' ' || c == ',' || c == ')' || c == '.'

/-- The signs are empty or begin with a break. -/
def Sign.Breaks (xs : List Sign) : Prop := ∀ x ∈ xs.head?, ∃ c, x = .char c ∧ isBreak c = true

/-- Signs that are read as the given symbols when a break follows. -/
def Scans (d : Dialect) (xs : List Sign) (symbols : List Symbol) : Prop :=
  ∃ out s, Scan.run d .between xs = (out, s) ∧ s.isOpen = false ∧ out ++ s.pending = symbols

/-- Signs that are read as the given symbols whatever follows. -/
def Settles (d : Dialect) (xs : List Sign) (symbols : List Symbol) : Prop :=
  Scan.run d .between xs = (symbols, .between)

instance (d : Dialect) (xs : List Sign) (symbols : List Symbol) :
    Decidable (Settles d xs symbols) :=
  inferInstanceAs (Decidable (_ = _))

/-- The quotes of a dialect that the scanner tells from breaks. -/
def Dialect.HasPlainQuotes (d : Dialect) : Prop :=
  d.openQuote = '"' ∧ d.closeQuote = '"' ∨ d.openQuote = '[' ∧ d.closeQuote = ']'

theorem Dialect.mem_shipped {d : Dialect} :
    d ∈ shipped ↔ d = sqlite ∨ d = postgres ∨ d = sqlServer := by
  simp [shipped]

theorem Dialect.hasPlainQuotes_of_shipped {d : Dialect} (h : d ∈ shipped) : d.HasPlainQuotes := by
  rcases mem_shipped.mp h with rfl | rfl | rfl
  · exact .inl ⟨rfl, rfl⟩
  · exact .inl ⟨rfl, rfl⟩
  · exact .inr ⟨rfl, rfl⟩

section

variable {d : Dialect} {xs ys : List Sign} {as bs : List Symbol}

theorem Scans.symbols_eq (h : Scans d xs as) : d.symbols xs = as := by
  obtain ⟨out, s, hrun, -, hout⟩ := h
  rw [Dialect.symbols, hrun, hout]

theorem Settles.scans (h : Settles d xs as) : Scans d xs as :=
  ⟨as, .between, h, rfl, List.append_nil as⟩

theorem Settles.append_scans (hx : Settles d xs as) (hy : Scans d ys bs) :
    Scans d (xs ++ ys) (as ++ bs) := by
  obtain ⟨out, s, hrun, hopen, hout⟩ := hy
  refine ⟨as ++ out, s, ?_, hopen, by rw [List.append_assoc, hout]⟩
  rw [Scan.run_append, hx, hrun]

/-- A break ends whatever symbol is being read. -/
theorem Scan.takeChar_of_isBreak (hd : d.HasPlainQuotes) {s : Scan} (hs : s.isOpen = false)
    {c : Char} (hc : Sign.isBreak c = true) :
    s.takeChar d.openQuote d.closeQuote c = s.restart d.openQuote c := by
  have hc' : c = ' ' ∨ c = ',' ∨ c = ')' ∨ c = '.' := by
    simpa [Sign.isBreak, or_assoc] using hc
  have hword : Symbol.isWordChar c = false := by rcases hc' with rfl | rfl | rfl | rfl <;> rfl
  have hclose : c ≠ d.closeQuote := by
    rcases hd with ⟨-, h⟩ | ⟨-, h⟩ <;> rw [h] <;> rcases hc' with rfl | rfl | rfl | rfl <;> decide
  cases s with
  | between => simp [takeChar, restart, pending]
  | word cs => simp [takeChar, hword]
  | quoted cs => simp [isOpen] at hs
  | closed cs => simp [takeChar, hclose]
  | mark m =>
    have hpair : (m, c) ∉ Symbol.pairs := by
      rcases hc' with rfl | rfl | rfl | rfl <;> simp [Symbol.pairs]
    simp [takeChar, hpair]
  | held x => simp [takeChar, hword]

/-- Behind a complete piece, a piece that begins with a break is scanned as if it stood alone. -/
theorem Scan.run_of_breaks (hd : d.HasPlainQuotes) {s : Scan} (hs : s.isOpen = false)
    (hx : Sign.Breaks xs) (hne : xs ≠ []) :
    run d s xs = (s.pending ++ (run d .between xs).1, (run d .between xs).2) := by
  cases xs with
  | nil => exact absurd rfl hne
  | cons x xs =>
    obtain ⟨c, rfl, hc⟩ := hx x rfl
    have hb : Scan.between.isOpen = false := rfl
    simp only [run, step, takeChar_of_isBreak hd hs hc, takeChar_of_isBreak hd hb hc]
    simp [restart, pending]

theorem Scans.append (hd : d.HasPlainQuotes) (hx : Scans d xs as) (hy : Scans d ys bs)
    (hb : Sign.Breaks ys) : Scans d (xs ++ ys) (as ++ bs) := by
  obtain ⟨out, s, hrun, hopen, rfl⟩ := hx
  obtain ⟨out', s', hrun', hopen', rfl⟩ := hy
  by_cases hne : ys = []
  · subst hne
    obtain ⟨rfl, rfl⟩ : out' = [] ∧ s' = .between := by simpa [Scan.run, eq_comm] using hrun'
    exact ⟨out, s, by simpa using hrun, hopen, by simp [Scan.pending]⟩
  · refine ⟨out ++ (s.pending ++ out'), s', ?_, hopen', by simp⟩
    rw [Scan.run_append, hrun, Scan.run_of_breaks hd hopen hb hne, hrun']

theorem Sign.Breaks.append (hx : Breaks xs) (hy : Breaks ys) : Breaks (xs ++ ys) := by
  cases xs with
  | nil => exact hy
  | cons x xs => exact hx

/-- Signs that are read as the given symbols behind any complete piece. -/
structure ScansBehind (d : Dialect) (xs : List Sign) (symbols : List Symbol) : Prop where
  /-- They are read as the symbols. -/
  scans : Scans d xs symbols
  /-- They end the piece in front of them. -/
  breaks : Sign.Breaks xs

theorem ScansBehind.nil : ScansBehind d [] [] :=
  ⟨⟨[], .between, rfl, rfl, rfl⟩, by simp [Sign.Breaks]⟩

theorem ScansBehind.append (hd : d.HasPlainQuotes) (hx : ScansBehind d xs as)
    (hy : ScansBehind d ys bs) : ScansBehind d (xs ++ ys) (as ++ bs) :=
  ⟨hx.scans.append hd hy.scans hy.breaks, hx.breaks.append hy.breaks⟩

theorem Scans.append_behind (hd : d.HasPlainQuotes) (hx : Scans d xs as)
    (hy : ScansBehind d ys bs) : Scans d (xs ++ ys) (as ++ bs) :=
  hx.append hd hy.scans hy.breaks

theorem Sign.breaks_of_head? {c : Char} (hc : xs.head? = some (.char c))
    (hb : isBreak c = true) : Breaks xs := by
  intro x hx
  rw [hc] at hx
  exact ⟨c, (Option.some.inj hx).symm, hb⟩

/-- A piece that begins with a break and ends between symbols can stand in front of another. -/
theorem Settles.behind {c : Char} (hx : Settles d xs as) (hc : xs.head? = some (.char c))
    (hb : Sign.isBreak c = true) (hy : Scans d ys bs) : ScansBehind d (xs ++ ys) (as ++ bs) := by
  refine ⟨hx.append_scans hy, Sign.breaks_of_head? ?_ hb⟩
  rw [List.head?_append, hc]
  rfl

/-! ### Texts without quotes -/

theorem Scan.isOpen_start {opening c : Char} (hc : c ≠ opening) :
    (start opening c).2.isOpen = false := by
  simp only [start, hc, if_false]
  repeat' split
  all_goals rfl

theorem Scan.isOpen_takeChar {opening close : Char} {s : Scan} (hs : s.isOpen = false) {c : Char}
    (hopening : c ≠ opening) (hclose : c ≠ close) :
    (s.takeChar opening close c).2.isOpen = false := by
  have hstart := isOpen_start hopening
  cases s with
  | between => exact hstart
  | word cs =>
    simp only [takeChar, restart]
    split
    · rfl
    · exact hstart
  | quoted cs => simp [isOpen] at hs
  | closed cs => simpa only [takeChar, restart, hclose, if_false] using hstart
  | mark m =>
    simp only [takeChar, restart]
    split
    · rfl
    · exact hstart
  | held x =>
    simp only [takeChar, restart]
    split
    · rfl
    · exact hstart

theorem Scan.isOpen_run_chars {s : Scan} (hs : s.isOpen = false) {cs : List Char}
    (hopening : d.openQuote ∉ cs) (hclose : d.closeQuote ∉ cs) :
    (run d s (cs.map .char)).2.isOpen = false := by
  induction cs generalizing s with
  | nil => exact hs
  | cons c cs ih =>
    simp only [List.mem_cons, not_or] at hopening hclose
    exact ih (isOpen_takeChar hs (Ne.symm hopening.1) (Ne.symm hclose.1)) hopening.2 hclose.2

/-- A text without quotes is scanned as whatever it is scanned as when it stands alone. -/
theorem scans_of_unquoted {s : String} (hopening : d.openQuote ∉ s.toList)
    (hclose : d.closeQuote ∉ s.toList) : Scans d (Sign.ofText s) (d.symbols (Sign.ofText s)) :=
  ⟨_, _, rfl, Scan.isOpen_run_chars rfl hopening hclose, rfl⟩

/-! ### Names -/

/-- Behind its opening quote, a name is read up to the closing quote that stands alone. -/
theorem Scan.run_encode (acc cs : List Char) :
    run d (quoted acc) ((Text.Quoted.encode d.closeQuote cs ++ [d.closeQuote]).map .char) =
      ([], closed (acc ++ cs)) := by
  induction cs generalizing acc with
  | nil => simp [Text.Quoted.encode, run, step, takeChar]
  | cons c cs ih =>
    by_cases hc : c = d.closeQuote
    · simp only [Text.Quoted.encode, hc, if_true, List.cons_append, List.map_cons, run, step,
        takeChar, ih]
      simp
    · simp only [Text.Quoted.encode, hc, if_false, List.cons_append, List.map_cons, run, step,
        takeChar, ih]
      simp

/-- **A quoted name is read as the name**, whatever characters it has. -/
theorem scans_quote (d : Dialect) (name : String) :
    Scans d (Sign.ofText (d.quote name)) [.name name] := by
  refine ⟨[], .closed name.toList, ?_, rfl, by simp [Scan.pending]⟩
  have hsigns : Sign.ofText (d.quote name) = .char d.openQuote ::
      (Text.Quoted.encode d.closeQuote name.toList ++ [d.closeQuote]).map .char := by
    simp [Sign.ofText, Dialect.quote, Text.Quoted.enclose, Text.Quoted.encloseChars]
  rw [hsigns, Scan.run]
  simp only [Scan.step, Scan.takeChar, Scan.start, if_true, Scan.run_encode, List.nil_append]

end

/-! ### Markers -/

namespace Symbol

/-- Whether a character begins a marker. -/
def isMarkerChar (c : Char) : Bool := c == '?' || c == '$' || c == '@'

/-- The marker that a symbol is. -/
def marker? : Symbol → Option String
  | word w => if w.toList.head?.any isMarkerChar then some w else none
  | _ => none

end Symbol

/-- The markers among symbols, in order. -/
def markers (xs : List Symbol) : List String := xs.filterMap Symbol.marker?

/-- The markers in a text, in order. -/
def Dialect.markersIn (d : Dialect) (sql : String) : List String :=
  markers (d.symbols (Sign.ofText sql))

@[simp] theorem markers_nil : markers [] = [] := rfl

@[simp] theorem markers_append (xs ys : List Symbol) :
    markers (xs ++ ys) = markers xs ++ markers ys :=
  List.filterMap_append

/-- Symbols of which none is a marker or illegal. -/
def Plain (xs : List Symbol) : Prop := ∀ x ∈ xs, x ≠ .illegal ∧ x.marker? = none

instance (xs : List Symbol) : Decidable (Plain xs) :=
  List.decidableBAll (fun x : Symbol => x ≠ .illegal ∧ x.marker? = none) xs

theorem Plain.nil : Plain [] := by simp [Plain]

theorem Plain.append {xs ys : List Symbol} (hx : Plain xs) (hy : Plain ys) : Plain (xs ++ ys) := by
  intro x h
  rcases List.mem_append.mp h with h | h
  · exact hx x h
  · exact hy x h

theorem Plain.cons {x : Symbol} {xs : List Symbol} (hx : x ≠ .illegal ∧ x.marker? = none)
    (h : Plain xs) : Plain (x :: xs) :=
  List.forall_mem_cons.mpr ⟨hx, h⟩

theorem Plain.left {xs ys : List Symbol} (h : Plain (xs ++ ys)) : Plain xs :=
  fun x hx => h x (List.mem_append_left ys hx)

theorem Plain.right {xs ys : List Symbol} (h : Plain (xs ++ ys)) : Plain ys :=
  fun y hy => h y (List.mem_append_right xs hy)

theorem Plain.markers_eq_nil {xs : List Symbol} (h : Plain xs) : markers xs = [] :=
  List.filterMap_eq_nil_iff.mpr fun x hx => (h x hx).2

theorem Plain.not_mem_illegal {xs : List Symbol} (h : Plain xs) : Symbol.illegal ∉ xs :=
  fun hmem => (h _ hmem).1 rfl

/-! ### Plain texts -/

namespace Scan

variable {d : Dialect}

/-- All symbols of signs, in front of which the scanner is in a state. -/
def total (d : Dialect) (s : Scan) (xs : List Sign) : List Symbol :=
  (run d s xs).1 ++ (run d s xs).2.pending

@[simp] theorem total_nil (s : Scan) : total d s [] = s.pending := rfl

theorem total_cons (s : Scan) (x : Sign) (xs : List Sign) :
    total d s (x :: xs) = (s.step d x).1 ++ total d (s.step d x).2 xs := by
  simp [total, run]

theorem total_append (s : Scan) (xs ys : List Sign) :
    total d s (xs ++ ys) = (run d s xs).1 ++ total d (run d s xs).2 ys := by
  simp [total, run_append]

/-- A state without a quote, a value or a marker. -/
def IsPlain : Scan → Prop
  | word cs => ∀ c ∈ cs, Symbol.isMarkerChar c = false
  | quoted _ | held _ => False
  | _ => True

end Scan

/-- A text without quotes and without characters that begin a marker. -/
def PlainText (s : String) : Prop :=
  ∀ c ∈ s.toList, c ≠ '"' ∧ c ≠ '[' ∧ c ≠ ']' ∧ Symbol.isMarkerChar c = false

instance (s : String) : Decidable (PlainText s) :=
  List.decidableBAll (fun c => c ≠ '"' ∧ c ≠ '[' ∧ c ≠ ']' ∧ Symbol.isMarkerChar c = false) s.toList

/-- A text that is given by its characters is plain if they are. Testing a literal in this way does
not decode it. -/
theorem PlainText.ofList {cs : List Char}
    (h : cs.all (fun c => c != '"' && c != '[' && c != ']' && !Symbol.isMarkerChar c) = true) :
    PlainText (.ofList cs) := by
  intro c hc
  rw [String.toList_ofList] at hc
  simpa [and_assoc] using List.all_eq_true.mp h c hc

theorem PlainText.append {a b : String} (ha : PlainText a) (hb : PlainText b) :
    PlainText (a ++ b) := by
  intro c hc
  rw [String.toList_append] at hc
  rcases List.mem_append.mp hc with hc | hc
  · exact ha c hc
  · exact hb c hc

theorem PlainText.nat (n : Nat) : PlainText (toString n) := by
  intro c hc
  have hdigit : c.isDigit = true :=
    Nat.isDigit_of_mem_toDigits (by decide) (by decide) (by simpa using hc : c ∈ Nat.toDigits 10 n)
  have hne : ∀ b : Char, b.isDigit = false → c ≠ b := by
    rintro b hb rfl
    rw [hdigit] at hb
    exact absurd hb (by decide)
  simp [Symbol.isMarkerChar, hne '"' rfl, hne '[' rfl, hne ']' rfl, hne '?' rfl, hne '$' rfl,
    hne '@' rfl]

namespace Scan

variable {d : Dialect}

theorem plain_pending {s : Scan} (hs : s.IsPlain) : Plain s.pending := by
  cases s with
  | word cs =>
    intro x hx
    obtain rfl := List.mem_singleton.mp hx
    refine ⟨by simp, ?_⟩
    cases cs with
    | nil => rfl
    | cons c cs =>
      have hc : Symbol.isMarkerChar c = false := hs c List.mem_cons_self
      simp [Symbol.marker?, hc]
  | between => exact Plain.nil
  | closed | mark =>
    intro x hx
    obtain rfl := List.mem_singleton.mp hx
    exact ⟨by simp, rfl⟩
  | quoted | held => exact absurd hs (by simp [IsPlain])

theorem plain_start {opening c : Char} (hopening : c ≠ opening)
    (hc : Symbol.isMarkerChar c = false) :
    Plain (start opening c).1 ∧ (start opening c).2.IsPlain := by
  simp only [start, if_neg hopening]
  split
  · exact ⟨Plain.nil, trivial⟩
  · split
    · exact ⟨Plain.nil, by simpa [IsPlain] using hc⟩
    · split
      · exact ⟨Plain.nil, trivial⟩
      · refine ⟨fun x hx => ?_, trivial⟩
        obtain rfl := List.mem_singleton.mp hx
        exact ⟨by simp, rfl⟩

theorem plain_takeChar {opening close c : Char} {s : Scan} (hs : s.IsPlain)
    (hopening : c ≠ opening) (hclose : c ≠ close) (hc : Symbol.isMarkerChar c = false) :
    Plain (s.takeChar opening close c).1 ∧ (s.takeChar opening close c).2.IsPlain := by
  have hpending := plain_pending hs
  obtain ⟨hout, hstate⟩ := plain_start hopening hc
  cases s with
  | between => exact ⟨hout, hstate⟩
  | word cs =>
    simp only [takeChar, restart]
    split
    · refine ⟨Plain.nil, fun b hb => ?_⟩
      rcases List.mem_append.mp hb with hb | hb
      · exact hs b hb
      · rw [List.mem_singleton.mp hb, hc]
    · exact ⟨hpending.append hout, hstate⟩
  | closed cs =>
    simp only [takeChar, if_neg hclose, restart]
    exact ⟨hpending.append hout, hstate⟩
  | mark m =>
    simp only [takeChar, restart]
    split
    · refine ⟨fun x hx => ?_, trivial⟩
      obtain rfl := List.mem_singleton.mp hx
      exact ⟨by simp, rfl⟩
    · exact ⟨hpending.append hout, hstate⟩
  | quoted | held => exact absurd hs (by simp [IsPlain])

/-- Plain characters are scanned as plain symbols. -/
theorem plain_total {s : Scan} (hs : s.IsPlain) {cs : List Char}
    (h : ∀ c ∈ cs, c ≠ d.openQuote ∧ c ≠ d.closeQuote ∧ Symbol.isMarkerChar c = false) :
    Plain (total d s (cs.map .char)) := by
  induction cs generalizing s with
  | nil => exact plain_pending hs
  | cons c cs ih =>
    obtain ⟨hopening, hclose, hc⟩ := h c List.mem_cons_self
    obtain ⟨hout, hstate⟩ := plain_takeChar hs hopening hclose hc
    rw [List.map_cons, total_cons]
    exact hout.append (ih hstate fun b hb => h b (List.mem_cons_of_mem c hb))

end Scan

/-- **A plain text is read as plain symbols**, whatever symbols these are. -/
theorem PlainText.plain_symbols {d : Dialect} (hd : d.HasPlainQuotes) {s : String}
    (hs : PlainText s) : Plain (d.symbols (Sign.ofText s)) := by
  refine Scan.plain_total (s := .between) trivial fun c hc => ?_
  obtain ⟨hdouble, hopening, hclose, hmarker⟩ := hs c hc
  rcases hd with ⟨h, h'⟩ | ⟨h, h'⟩ <;> rw [h, h']
  · exact ⟨hdouble, hdouble, hmarker⟩
  · exact ⟨hopening, hclose, hmarker⟩

theorem PlainText.scans {d : Dialect} (hd : d.HasPlainQuotes) {s : String} (hs : PlainText s) :
    Scans d (Sign.ofText s) (d.symbols (Sign.ofText s)) := by
  refine scans_of_unquoted (fun hopening => ?_) fun hclose => ?_
  · rcases hd with ⟨h, -⟩ | ⟨h, -⟩ <;> rw [h] at hopening
    · exact (hs _ hopening).1 rfl
    · exact (hs _ hopening).2.1 rfl
  · rcases hd with ⟨-, h⟩ | ⟨-, h⟩ <;> rw [h] at hclose
    · exact (hs _ hclose).1 rfl
    · exact (hs _ hclose).2.2.1 rfl

end EntitySql
