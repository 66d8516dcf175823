import EntitySql.Database.Token
import EntitySql.Value

/-!
# Reading back tokens that were written

A token that was written is read back where its text cannot be continued by what follows it. Names
in quotes, words, numerals and literals are not continued by a break, which is a blank, a comma or a
closing parenthesis; parentheses and commas are not continued by anything. So a statement that puts
a break behind every such token is read as the tokens that it was written with.

## Main definitions

* `Token.Stands`, `Token.Stand`: tokens that are read back in front of the given characters
* `Token.Spells`: tokens that a text consists of, in front of every break

## Main results

* `Token.ofText_of_stand`: a text of tokens that stand is read as these tokens
* `Token.stands_name`, `Token.stands_word`, `Token.stands_numeral`, `Token.stands_literal`: what
  stands in front of a break
-/

namespace EntitySql

namespace Token

/-! ### Tokens that stand in a text -/

/-- The characters of tokens, with their gaps. -/
def spelled (ts : List Token) : List Char := ts.flatMap fun t => t.gap ++ t.text

@[simp] theorem spelled_nil : spelled [] = [] := rfl

@[simp] theorem spelled_cons (t : Token) (ts : List Token) :
    spelled (t :: ts) = t.gap ++ t.text ++ spelled ts := rfl

@[simp] theorem spelled_append (ts us : List Token) :
    spelled (ts ++ us) = spelled ts ++ spelled us :=
  List.flatMap_append

/-- The token is read where its characters stand in front of the given ones. -/
structure Stands (t : Token) (rest : List Char) : Prop where
  /-- The gap is blank. -/
  gap : ∀ c ∈ t.gap, isGap c = true
  /-- The first character belongs to no gap, and what is read from it on is the token. -/
  text : ∃ c cs, t.text = c :: cs ∧ (∀ n, afterGap n (c :: (cs ++ rest)) = c :: (cs ++ rest)) ∧
    readLexeme c (cs ++ rest) = (t.lexeme, rest)

/-- Every one of the tokens is read where they stand in front of the given characters. -/
def Stand : List Token → List Char → Prop
  | [], _ => True
  | t :: ts, rest => t.Stands (spelled ts ++ rest) ∧ Stand ts rest

theorem stand_append {ts us : List Token} {rest : List Char} :
    Stand (ts ++ us) rest ↔ Stand ts (spelled us ++ rest) ∧ Stand us rest := by
  induction ts with
  | nil => simp [Stand]
  | cons t ts ih => simp only [List.cons_append, Stand, ih, spelled_append, List.append_assoc,
      and_assoc]

/-- A character that begins no comment is passed over if it is blank. -/
theorem afterGap_cons {c : Char} (hminus : c ≠ '-') (hslash : c ≠ '/') (n : Nat) (cs : List Char) :
    afterGap (n + 1) (c :: cs) = if isGap c then afterGap n cs else c :: cs := by
  rw [afterGap]
  · exact fun rest h _ => hminus h
  · exact fun rest h _ => hslash h

/-- A gap is passed over. -/
theorem afterGap_append {gap : List Char} (hgap : ∀ c ∈ gap, isGap c = true) (n : Nat)
    (cs : List Char) : afterGap (n + gap.length) (gap ++ cs) = afterGap n cs := by
  induction gap with
  | nil => rfl
  | cons c gap ih =>
    have hc : isGap c = true := hgap c List.mem_cons_self
    have hminus : c ≠ '-' := by
      rintro rfl
      exact absurd hc (by decide)
    have hslash : c ≠ '/' := by
      rintro rfl
      exact absurd hc (by decide)
    rw [List.length_cons, ← Nat.add_assoc, List.cons_append, afterGap_cons hminus hslash,
      if_pos hc, ih fun b hb => hgap b (List.mem_cons_of_mem c hb)]

/-- A character that neither is blank nor begins a comment ends the gap. -/
theorem afterGap_of_not_gap {c : Char} (hgap : isGap c = false) (hminus : c ≠ '-')
    (hslash : c ≠ '/') (n : Nat) (cs : List Char) : afterGap n (c :: cs) = c :: cs := by
  cases n with
  | zero => rfl
  | succ n => rw [afterGap_cons hminus hslash, hgap]; rfl

/-- A token that stands is the first that is read. -/
theorem readMany_of_stands {t : Token} {rest : List Char} (h : t.Stands rest) (n : Nat) :
    readMany (n + 1) (t.gap ++ t.text ++ rest) = t :: readMany n rest := by
  obtain ⟨c, cs, htext, hgap, hlexeme⟩ := h.text
  have hlength : (t.gap ++ t.text ++ rest).length =
      (t.text.length + rest.length) + t.gap.length := by
    simp only [List.length_append]
    omega
  have hbehind : afterGap (t.gap ++ t.text ++ rest).length (t.gap ++ t.text ++ rest) =
      c :: (cs ++ rest) := by
    rw [hlength, List.append_assoc, afterGap_append h.gap, htext, List.cons_append, hgap]
  rw [readMany, hbehind]
  simp only [hlexeme]
  have hgaptake : (t.gap ++ t.text ++ rest).take
      ((t.gap ++ t.text ++ rest).length - ((cs ++ rest).length + 1)) = t.gap := by
    have hcount : (t.gap ++ t.text ++ rest).length - ((cs ++ rest).length + 1) = t.gap.length := by
      simp only [htext, List.length_append, List.length_cons]
      omega
    rw [hcount, List.append_assoc, List.take_left]
  have htexttake : (c :: (cs ++ rest)).take ((cs ++ rest).length + 1 - rest.length) = t.text := by
    have hcount : (cs ++ rest).length + 1 - rest.length = t.text.length := by
      simp only [htext, List.length_append, List.length_cons]
      omega
    rw [hcount, ← List.cons_append, ← htext, List.take_left]
  rw [hgaptake, htexttake]

/-- **Tokens that stand are read back**, in front of whatever follows. -/
theorem readMany_of_stand {ts : List Token} {rest : List Char} (h : Stand ts rest) (n : Nat) :
    readMany (n + ts.length) (spelled ts ++ rest) = ts ++ readMany n rest := by
  induction ts with
  | nil => rfl
  | cons t ts ih =>
    rw [List.length_cons, ← Nat.add_assoc, spelled_cons, List.append_assoc,
      readMany_of_stands h.1, ih h.2, List.cons_append]

/-- Each token that stands has a character. -/
theorem length_le_of_stand {ts : List Token} {rest : List Char} (h : Stand ts rest) :
    ts.length ≤ (spelled ts).length := by
  induction ts with
  | nil => exact Nat.le_refl _
  | cons t ts ih =>
    obtain ⟨c, cs, htext, -⟩ := h.1.text
    have hrest := ih h.2
    simp only [spelled_cons, List.length_append, List.length_cons, htext]
    omega

/-- **A text of tokens that stand is read as these tokens.** -/
theorem ofText_of_stand {sql : String} {ts : List Token} (hsql : sql.toList = spelled ts)
    (h : Stand ts []) : ofText sql = ts := by
  obtain ⟨n, hn⟩ := Nat.exists_eq_add_of_le (length_le_of_stand h)
  have hread := readMany_of_stand h n
  have hnone : ∀ m, readMany m [] = [] := by
    intro m
    cases m <;> rfl
  rw [List.append_nil, hnone, List.append_nil] at hread
  rw [ofText, hsql, hn, Nat.add_comm]
  exact hread

/-! ### Breaks -/

/-- Whether a character continues no name, word, numeral or literal. -/
def isBreak (c : Char) : Bool := c == ' ' || c == '\n' || c == ',' || c == ')'

/-- Nothing, or characters that begin with a break. -/
def Breaks (cs : List Char) : Prop := ∀ c ∈ cs.head?, isBreak c = true

theorem Breaks.append {xs ys : List Char} (hx : Breaks xs) (hy : Breaks ys) : Breaks (xs ++ ys) := by
  cases xs with
  | nil => exact hy
  | cons x xs => exact hx

theorem breaks_cons {c : Char} {cs : List Char} (hc : isBreak c = true) : Breaks (c :: cs) := by
  intro b hb
  obtain rfl : c = b := by simpa using hb
  exact hc

/-- No break has a property that none of the four breaks has. -/
theorem Breaks.head?_not {cs : List Char} (h : Breaks cs) {p : Char → Bool}
    (hp : p ' ' = false ∧ p '\n' = false ∧ p ',' = false ∧ p ')' = false) :
    ∀ c ∈ cs.head?, p c = false := by
  intro c hc
  have hbreak := h c hc
  simp only [isBreak, Bool.or_eq_true, beq_iff_eq] at hbreak
  rcases hbreak with ((rfl | rfl) | rfl) | rfl
  · exact hp.1
  · exact hp.2.1
  · exact hp.2.2.1
  · exact hp.2.2.2

/-! ### Tokens that are written -/

theorem isGap_blank : ∀ c ∈ (" ").toList, isGap c = true := List.all_eq_true.mp rfl

theorem isGap_empty : ∀ c ∈ ("").toList, isGap c = true := List.all_eq_true.mp rfl

/-- A name in double quotes. -/
def ofName (gap name : String) : Token :=
  ⟨gap.toList, (Text.Quoted.enclose '"' '"' name).toList, .quoted name⟩

/-- A keyword, or another word. -/
def ofWord (gap w : String) : Token := ⟨gap.toList, w.toList, .word⟩

/-- A symbol of one character. -/
def ofMark (gap : String) (c : Char) : Token := ⟨gap.toList, [c], .symbol⟩

/-- A text literal. -/
def ofLiteral (gap s : String) : Token := ⟨gap.toList, (textLiteral s).toList, .text s⟩

@[simp] theorem lexeme_ofName (gap name : String) : (ofName gap name).lexeme = .quoted name := rfl

@[simp] theorem lexeme_ofWord (gap w : String) : (ofWord gap w).lexeme = .word := rfl

@[simp] theorem lexeme_ofMark (gap : String) (c : Char) : (ofMark gap c).lexeme = .symbol := rfl

@[simp] theorem lexeme_ofLiteral (gap s : String) : (ofLiteral gap s).lexeme = .text s := rfl

section

variable {gap : String} (hgap : ∀ c ∈ gap.toList, isGap c = true)

include hgap

/-- A name stands where no other quote follows it. -/
theorem stands_name_of_head (name : String) {rest : List Char} (hrest : rest.head? ≠ some '"') :
    (ofName gap name).Stands rest := by
  refine ⟨hgap, '"', Text.Quoted.encode '"' name.toList ++ ['"'], ?_, fun n => ?_, ?_⟩
  · simp [ofName, Text.Quoted.enclose, Text.Quoted.encloseChars]
  · exact afterGap_of_not_gap rfl (by decide) (by decide) n _
  · have hread := Text.Quoted.decode_encode name.toList rest hrest
    rw [List.append_assoc, List.singleton_append, readLexeme]
    simp [readQuoted, hread, ofName]

theorem stands_name (name : String) {rest : List Char} (hrest : Breaks rest) :
    (ofName gap name).Stands rest := by
  refine stands_name_of_head hgap name fun hquote => ?_
  exact absurd (hrest.head?_not (p := (· == '"')) (by decide) _ hquote) (by decide)

theorem stands_literal (s : String) {rest : List Char} (hrest : Breaks rest) :
    (ofLiteral gap s).Stands rest := by
  refine ⟨hgap, '\'', Text.Quoted.encode '\'' s.toList ++ ['\''], ?_, fun n => ?_, ?_⟩
  · simp [ofLiteral, textLiteral, Text.Quoted.enclose, Text.Quoted.encloseChars]
  · exact afterGap_of_not_gap rfl (by decide) (by decide) n _
  · have hhead : rest.head? ≠ some '\'' := by
      intro hquote
      exact absurd (hrest.head?_not (p := (· == '\'')) (by decide) _ hquote) (by decide)
    have hread := Text.Quoted.decode_encode s.toList rest hhead
    rw [List.append_assoc, List.singleton_append, readLexeme]
    simp [readQuoted, hread, ofLiteral]

/-- A parenthesis or a comma stands in front of anything. -/
theorem stands_mark {c : Char} (hc : c = '(' ∨ c = ')' ∨ c = ',') (rest : List Char) :
    (ofMark gap c).Stands rest := by
  refine ⟨hgap, c, [], rfl, fun n => ?_, ?_⟩
  · rcases hc with rfl | rfl | rfl <;> exact afterGap_of_not_gap rfl (by decide) (by decide) n _
  · have hpair : ∀ d, pairs.contains (c, d) = false := by
      intro d
      rcases hc with rfl | rfl | rfl <;> simp [pairs]
    have hsymbol : readSymbol c rest = (.symbol, rest) := by
      cases rest with
      | nil => rcases hc with rfl | rfl | rfl <;> rfl
      | cons d after =>
        rw [readSymbol, hpair]
        rcases hc with rfl | rfl | rfl <;> rfl
    rcases hc with rfl | rfl | rfl <;> exact hsymbol

/-- A word begins with a letter other than the one that begins byte literals, and goes on with
characters of names. -/
def isWordText : List Char → Bool
  | c :: cs => beginsName c && c != 'x' && c != 'X' && cs.all continuesName
  | [] => false

/-- A word stands where no character of a name follows it. -/
theorem stands_word_of_head {w : String} (hw : isWordText w.toList = true) {rest : List Char}
    (hrest : ∀ c ∈ rest.head?, continuesName c = false) : (ofWord gap w).Stands rest := by
  obtain ⟨c, cs, hcs⟩ : ∃ c cs, w.toList = c :: cs := by
    cases hw' : w.toList with
    | nil => simp [hw', isWordText] at hw
    | cons c cs => exact ⟨c, cs, rfl⟩
  simp only [hcs, isWordText, Bool.and_eq_true, bne_iff_ne, ne_eq, List.all_eq_true] at hw
  obtain ⟨⟨⟨hbegins, hx⟩, hX⟩, hcontinues⟩ := hw
  have hne : ∀ b : Char, beginsName b = false → c ≠ b := by
    rintro b hb rfl
    rw [hbegins] at hb
    exact absurd hb (by decide)
  refine ⟨hgap, c, cs, hcs, fun n => ?_, ?_⟩
  · have hblank : isGap c = false := by
      simp [isGap, hne ' ' rfl, hne '\t' rfl, hne '\n' rfl, hne '\r' rfl, hne '\x0c' rfl]
    exact afterGap_of_not_gap hblank (hne '-' rfl) (hne '/' rfl) n _
  · have hdrop : (cs ++ rest).dropWhile continuesName = rest := by
      rw [List.dropWhile_append_of_pos hcontinues]
      cases rest with
      | nil => rfl
      | cons d after =>
        have hd : continuesName d = false := hrest d rfl
        rw [List.dropWhile_cons_of_neg (by simp [hd])]
    simp [readLexeme, hne '"' rfl, hne '[' rfl, hne '\x60' rfl, hne '\'' rfl, hne '?' rfl, hx, hX,
      hbegins, hdrop, ofWord]

theorem stands_word {w : String} (hw : isWordText w.toList = true) {rest : List Char}
    (hrest : Breaks rest) : (ofWord gap w).Stands rest :=
  stands_word_of_head hgap hw (hrest.head?_not (by decide))

end

/-! ### Numerals -/

/-- Digits, with or without a fraction, with or without a power of ten. -/
inductive IsNumeral : List Char → Prop where
  | intro (whole fraction power : List Char) (hne : whole ≠ [])
    (hwhole : ∀ c ∈ whole, c.isDigit = true)
    (hfraction : fraction = [] ∨ ∃ ds, fraction = '.' :: ds ∧ ∀ c ∈ ds, c.isDigit = true)
    (hpower : power = [] ∨ ∃ sign ds, power = 'e' :: (sign ++ ds) ∧ (sign = [] ∨ sign = ['-']) ∧
      ds ≠ [] ∧ ∀ c ∈ ds, c.isDigit = true) :
    IsNumeral (whole ++ (fraction ++ power))

theorem IsNumeral.exists_cons {cs : List Char} (h : IsNumeral cs) :
    ∃ c tail, cs = c :: tail ∧ c.isDigit = true := by
  obtain ⟨whole, fraction, power, hne, hwhole, -, -⟩ := h
  obtain ⟨w, ws, rfl⟩ := List.exists_cons_of_ne_nil hne
  exact ⟨w, ws ++ (fraction ++ power), rfl, hwhole w List.mem_cons_self⟩

/-- A digit is none of the characters that are not digits. -/
theorem ne_of_isDigit {c b : Char} (hc : c.isDigit = true) (hb : b.isDigit = false) : c ≠ b := by
  rintro rfl
  rw [hc] at hb
  exact absurd hb (by decide)

theorem beginsName_of_isDigit {c : Char} (hc : c.isDigit = true) : beginsName c = false := by
  simp only [Char.isDigit, Bool.and_eq_true, decide_eq_true_eq, ge_iff_le,
    UInt32.le_iff_toNat_le] at hc
  have hval : c.val.toNat = c.toNat := rfl
  have hlow : 48 ≤ c.toNat := hc.1
  have hhigh : c.toNat ≤ 57 := hc.2
  have hunder : c ≠ '_' := by
    rintro rfl
    exact absurd hhigh (by decide)
  have halpha : c.isAlpha = false := by
    delta Char.isAlpha Char.isUpper Char.isLower
    simp only [Bool.or_eq_false_iff, Bool.and_eq_false_iff, decide_eq_false_iff_not, ge_iff_le,
      UInt32.le_iff_toNat_le, hval]
    have hA : ('A'.val).toNat = 65 := rfl
    have ha : ('a'.val).toNat = 97 := rfl
    constructor <;> omega
  have hascii : ¬ 128 ≤ c.toNat := by omega
  simp [beginsName, halpha, hunder, hascii]

/-- Digits are taken as far as they go. -/
theorem span_digits {ds ys : List Char} (hds : ∀ c ∈ ds, c.isDigit = true)
    (hys : ∀ c ∈ ys.head?, c.isDigit = false) :
    (ds ++ ys).takeWhile Char.isDigit = ds ∧ (ds ++ ys).dropWhile Char.isDigit = ys := by
  have htake : ys.takeWhile Char.isDigit = [] := by
    cases ys with
    | nil => rfl
    | cons y ys => rw [List.takeWhile_cons_of_neg (by simp [hys y rfl])]
  have hdrop : ys.dropWhile Char.isDigit = ys := by
    cases ys with
    | nil => rfl
    | cons y ys => rw [List.dropWhile_cons_of_neg (by simp [hys y rfl])]
  rw [List.takeWhile_append_of_pos hds, List.dropWhile_append_of_pos hds, htake, hdrop]
  exact ⟨List.append_nil ds, rfl⟩

/-- What a numeral leaves. -/
theorem readUnsigned_snd {cs : List Char} (h : cs.takeWhile Char.isDigit ≠ []) :
    (Numeral.readUnsigned false cs).map (·.2) =
      let behind := cs.dropWhile Char.isDigit
      let behind := ((Numeral.readFraction behind).map (·.2)).getD behind
      some (((Numeral.readPower behind).map (·.2)).getD behind) := by
  have hsome : (cs.takeWhile Char.isDigit).isEmpty = false := by simpa using h
  simp only [Numeral.readUnsigned]
  cases hfraction : Numeral.readFraction (cs.dropWhile Char.isDigit) with
  | none =>
    cases hpower : Numeral.readPower (cs.dropWhile Char.isDigit) <;> simp [hsome, hpower]
  | some r =>
    obtain ⟨fraction, rest⟩ := r
    cases hpower : Numeral.readPower rest <;> simp [hsome, hpower]

theorem fraction_of_head? {ys : List Char} (h : ∀ c ∈ ys.head?, c ≠ '.') :
    Numeral.readFraction ys = none := by
  cases ys with
  | nil => rfl
  | cons y ys =>
    have hy : y ≠ '.' := h y rfl
    unfold Numeral.readFraction
    split
    · next heq => exact absurd (List.cons.inj heq).1 hy
    · rfl

theorem power_of_head? {ys : List Char} (h : ∀ c ∈ ys.head?, c ≠ 'e' ∧ c ≠ 'E') :
    Numeral.readPower ys = none := by
  cases ys with
  | nil => rfl
  | cons y ys =>
    obtain ⟨he, hE⟩ := h y rfl
    simp [Numeral.readPower, he, hE]

theorem power_append {power rest : List Char}
    (hpower : power = [] ∨ ∃ sign ds, power = 'e' :: (sign ++ ds) ∧ (sign = [] ∨ sign = ['-']) ∧
      ds ≠ [] ∧ ∀ c ∈ ds, c.isDigit = true) (hrest : Breaks rest) :
    ((Numeral.readPower (power ++ rest)).map (·.2)).getD (power ++ rest) = rest := by
  rcases hpower with rfl | ⟨sign, ds, rfl, hsign, hne, hds⟩
  · rw [List.nil_append, power_of_head?]
    · rfl
    · intro c hc
      have hbreak := hrest.head?_not (p := fun c => c == 'e' || c == 'E') (by decide) c hc
      simpa using hbreak
  · obtain ⟨htake, hdrop⟩ := span_digits hds (hrest.head?_not (by decide))
    have hsigned : ∃ negative, Numeral.readSign (sign ++ (ds ++ rest)) = (negative, ds ++ rest) := by
      rcases hsign with rfl | rfl
      · obtain ⟨d, ds, rfl⟩ := List.exists_cons_of_ne_nil hne
        have hd := hds d List.mem_cons_self
        refine ⟨false, ?_⟩
        rw [List.nil_append, List.cons_append]
        unfold Numeral.readSign
        split
        · next heq => exact absurd (List.cons.inj heq).1 (ne_of_isDigit hd rfl)
        · next heq => exact absurd (List.cons.inj heq).1 (ne_of_isDigit hd rfl)
        · rfl
      · exact ⟨true, rfl⟩
    obtain ⟨negative, hsigned⟩ := hsigned
    have hsome : ds.isEmpty = false := by simpa using hne
    simp [Numeral.readPower, hsigned, htake, hdrop, hsome]

theorem fraction_append {fraction ys : List Char}
    (hfraction : fraction = [] ∨ ∃ ds, fraction = '.' :: ds ∧ ∀ c ∈ ds, c.isDigit = true)
    (hys : ∀ c ∈ ys.head?, c.isDigit = false ∧ c ≠ '.') :
    ((Numeral.readFraction (fraction ++ ys)).map (·.2)).getD (fraction ++ ys) = ys := by
  rcases hfraction with rfl | ⟨ds, rfl, hds⟩
  · rw [List.nil_append, fraction_of_head? fun c hc => (hys c hc).2]
    rfl
  · obtain ⟨-, hdrop⟩ := span_digits hds fun c hc => (hys c hc).1
    simp [Numeral.readFraction, hdrop]

/-- A numeral that is not hexadecimal is read as a decimal one. -/
theorem readNumber_of_decimal {cs rest : List Char}
    (hx : ∀ x, cs[1]? = some x → (x == 'x' || x == 'X') = false)
    (hleft : (Numeral.readUnsigned false cs).map (·.2) = some rest) (hrest : Breaks rest) :
    readNumber cs = (.number, rest) := by
  have hend : ∀ behind, behind = rest →
      (match behind with
        | c :: _ =>
          if continuesName c then (.illegal, behind.dropWhile continuesName) else (.number, behind)
        | [] => (Lexeme.number, behind)) = (.number, rest) := by
    intro behind hbehind
    rw [hbehind]
    cases rest with
    | nil => rfl
    | cons c after =>
      have hc : continuesName c = false := hrest.head?_not (by decide) c rfl
      simp [hc]
  refine hend _ ?_
  split
  · next x d after =>
    rw [hx x rfl, hleft]
    rfl
  · rw [hleft]
    rfl

/-- A numeral is taken as a whole in front of a break. -/
theorem readNumber_append {cs : List Char} (h : IsNumeral cs) {rest : List Char}
    (hrest : Breaks rest) : readNumber (cs ++ rest) = (.number, rest) := by
  obtain ⟨whole, fraction, power, hne, hwhole, hfraction, hpower⟩ := h
  have hdigit : ∀ c ∈ rest.head?, c.isDigit = false := hrest.head?_not (by decide)
  have hpoint : ∀ c ∈ rest.head?, c ≠ '.' := by
    intro c hc
    simpa using hrest.head?_not (p := (· == '.')) (by decide) c hc
  have hbehind : ∀ c ∈ (power ++ rest).head?, c.isDigit = false ∧ c ≠ '.' := by
    intro c hc
    rcases hpower with rfl | ⟨sign, ds, rfl, -⟩
    · exact ⟨hdigit c hc, hpoint c hc⟩
    · obtain rfl : 'e' = c := by simpa using hc
      decide
  have hfirst : ∀ c ∈ (fraction ++ (power ++ rest)).head?, c.isDigit = false := by
    intro c hc
    rcases hfraction with rfl | ⟨ds, rfl, -⟩
    · exact (hbehind c hc).1
    · obtain rfl : '.' = c := by simpa using hc
      rfl
  have hx : ∀ c ∈ (fraction ++ (power ++ rest)).head?, (c == 'x' || c == 'X') = false := by
    intro c hc
    rcases hfraction with rfl | ⟨ds, rfl, -⟩
    · rcases hpower with rfl | ⟨sign, ds, rfl, -⟩
      · exact hrest.head?_not (p := fun c => c == 'x' || c == 'X') (by decide) c hc
      · obtain rfl : 'e' = c := by simpa using hc
        rfl
    · obtain rfl : '.' = c := by simpa using hc
      rfl
  obtain ⟨htake, hdrop⟩ := span_digits hwhole hfirst
  have hleft : (Numeral.readUnsigned false (whole ++ (fraction ++ (power ++ rest)))).map (·.2) =
      some rest := by
    rw [readUnsigned_snd (by rwa [htake]), hdrop]
    simp only [fraction_append hfraction hbehind, power_append hpower hrest]
  have hsecond : ∀ x, (whole ++ (fraction ++ (power ++ rest)))[1]? = some x →
      (x == 'x' || x == 'X') = false := by
    intro x hsome
    obtain ⟨w, ws, rfl⟩ := List.exists_cons_of_ne_nil hne
    cases ws with
    | nil =>
      refine hx x ?_
      rw [List.head?_eq_getElem?]
      exact hsome
    | cons v vs =>
      obtain rfl : v = x := by simpa using hsome
      have hv : v.isDigit = true := hwhole v (by simp)
      simp [ne_of_isDigit hv (b := 'x') rfl, ne_of_isDigit hv (b := 'X') rfl]
  rw [List.append_assoc, List.append_assoc]
  exact readNumber_of_decimal hsecond hleft hrest

/-- A numeral. -/
def ofNumeral (gap : String) (cs : List Char) : Token := ⟨gap.toList, cs, .number⟩

@[simp] theorem lexeme_ofNumeral (gap : String) (cs : List Char) :
    (ofNumeral gap cs).lexeme = .number := rfl

theorem stands_numeral {gap : String} (hgap : ∀ c ∈ gap.toList, isGap c = true) {cs : List Char}
    (h : IsNumeral cs) {rest : List Char} (hrest : Breaks rest) :
    (ofNumeral gap cs).Stands rest := by
  have hread := readNumber_append h hrest
  obtain ⟨c, tail, hc, hdigit⟩ := h.exists_cons
  have hne : ∀ b : Char, b.isDigit = false → c ≠ b := fun b hb => ne_of_isDigit hdigit hb
  refine ⟨hgap, c, tail, hc, fun n => ?_, ?_⟩
  · have hblank : isGap c = false := by
      simp [isGap, hne ' ' rfl, hne '\t' rfl, hne '\n' rfl, hne '\r' rfl, hne '\x0c' rfl]
    exact afterGap_of_not_gap hblank (hne '-' rfl) (hne '/' rfl) n _
  · rw [hc] at hread
    simpa [readLexeme, hne '"' rfl, hne '[' rfl, hne '\x60' rfl, hne '\'' rfl, hne '?' rfl,
      hne 'x' rfl, hne 'X' rfl, beginsName_of_isDigit hdigit, hdigit, ofNumeral] using hread

/-- A minus sign stands in front of anything but another one. -/
theorem stands_minus {gap : String} (hgap : ∀ c ∈ gap.toList, isGap c = true) {rest : List Char}
    (hrest : ∀ c ∈ rest.head?, c ≠ '-') : (ofMark gap '-').Stands rest := by
  refine ⟨hgap, '-', [], rfl, fun n => ?_, ?_⟩
  · cases n with
    | zero => rfl
    | succ n =>
      rw [List.nil_append, afterGap]
      · rfl
      · rintro after - rfl
        exact hrest '-' rfl rfl
      · exact fun after h => absurd h (by decide)
  · have hpair : ∀ d, pairs.contains ('-', d) = false := by simp [pairs]
    have hsymbol : readSymbol '-' rest = (.symbol, rest) := by
      cases rest with
      | nil => rfl
      | cons d after =>
        rw [readSymbol, hpair]
        rfl
    exact hsymbol

/-! ### Pieces of text -/

/-- The tokens that a piece of text consists of, wherever a break follows it. -/
structure Spells (ts : List Token) (cs : List Char) : Prop where
  /-- The tokens have the characters of the piece. -/
  spelled : spelled ts = cs
  /-- They stand in front of every break. -/
  stand : ∀ rest, Breaks rest → Stand ts rest

theorem Spells.nil : Spells [] [] := ⟨rfl, fun _ _ => trivial⟩

theorem Spells.append {ts us : List Token} {xs ys : List Char} (hx : Spells ts xs)
    (hy : Spells us ys) (hb : Breaks ys) : Spells (ts ++ us) (xs ++ ys) := by
  refine ⟨by rw [spelled_append, hx.spelled, hy.spelled], fun rest hrest => ?_⟩
  rw [stand_append, hy.spelled]
  exact ⟨hx.stand _ (hb.append hrest), hy.stand rest hrest⟩

/-- A text that tokens spell is read as these tokens. -/
theorem Spells.ofText {sql : String} {ts : List Token} {cs : List Char} (h : Spells ts cs)
    (hsql : sql.toList = cs) : ofText sql = ts :=
  ofText_of_stand (hsql.trans h.spelled.symm) (h.stand [] (by simp [Breaks]))

/-- A token that stands in front of everything may be followed by anything. -/
theorem Spells.cons {t : Token} (ht : ∀ rest, t.Stands rest) {us : List Token} {ys : List Char}
    (hy : Spells us ys) : Spells (t :: us) (t.gap ++ t.text ++ ys) :=
  ⟨by rw [spelled_cons, hy.spelled], fun rest hrest => ⟨ht _, hy.stand rest hrest⟩⟩

/-- A token that stands in front of a break is a piece of its own. -/
theorem spells_of_stands {t : Token} (ht : ∀ rest, Breaks rest → t.Stands rest) :
    Spells [t] (t.gap ++ t.text) := by
  refine ⟨by simp, fun rest hrest => ⟨?_, trivial⟩⟩
  simpa using ht rest hrest

section

variable {gap : String} (hgap : ∀ c ∈ gap.toList, isGap c = true)

include hgap

theorem spells_name (n : String) :
    Spells [ofName gap n] (gap.toList ++ (Text.Quoted.enclose '"' '"' n).toList) := by
  have hname : Spells [ofName gap n] ((ofName gap n).gap ++ (ofName gap n).text) :=
    spells_of_stands fun _ hrest => stands_name hgap n hrest
  simpa only [ofName] using hname

theorem spells_literal (s : String) :
    Spells [ofLiteral gap s] (gap.toList ++ (textLiteral s).toList) := by
  have hliteral : Spells [ofLiteral gap s] ((ofLiteral gap s).gap ++ (ofLiteral gap s).text) :=
    spells_of_stands fun _ hrest => stands_literal hgap s hrest
  simpa only [ofLiteral] using hliteral

theorem spells_word {w : String} (hw : isWordText w.toList = true) :
    Spells [ofWord gap w] (gap.toList ++ w.toList) :=
  spells_of_stands fun _ hrest => stands_word hgap hw hrest

theorem spells_numeral {cs : List Char} (h : IsNumeral cs) :
    Spells [ofNumeral gap cs] (gap.toList ++ cs) :=
  spells_of_stands fun _ hrest => stands_numeral hgap h hrest

/-- A sign in front of anything but another one. -/
theorem spells_minus {c : Char} (hc : c ≠ '-') {ts : List Token} {cs : List Char}
    (h : Spells ts (c :: cs)) : Spells (ofMark gap '-' :: ts) (gap.toList ++ '-' :: c :: cs) := by
  refine ⟨?_, fun rest hrest => ⟨stands_minus hgap ?_, h.stand rest hrest⟩⟩
  · rw [spelled_cons, h.spelled]
    simp [ofMark]
  · rw [h.spelled]
    simpa using hc

theorem spells_negative {cs : List Char} (h : IsNumeral cs) :
    Spells [ofMark gap '-', ofNumeral "" cs] (gap.toList ++ '-' :: cs) := by
  have hnumeral := spells_numeral isGap_empty h
  obtain ⟨c, tail, rfl, hdigit⟩ := h.exists_cons
  exact spells_minus hgap (ne_of_isDigit hdigit rfl) hnumeral

theorem spells_mark {c : Char} (hc : c = '(' ∨ c = ')' ∨ c = ',') {ts : List Token}
    {cs : List Char} (h : Spells ts cs) : Spells (ofMark gap c :: ts) (gap.toList ++ (c :: cs)) := by
  have hall := Spells.cons (fun rest => stands_mark hgap hc rest) h
  simpa [ofMark] using hall

end

end Token

end EntitySql
