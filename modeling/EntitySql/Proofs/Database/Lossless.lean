import EntitySql.Proofs.Database.Lexing
import EntitySql.Text.Alphanumeric

/-!
# Tokens hold their whole text

A text is taken apart into tokens without loss: the gaps and the characters of its tokens, one after
the other, and what is left behind the last one are the text. Each part of the scanner leaves a
suffix of what it is given, so that a token has the characters in between.

The quotes around a name are not part of the name. What a name in quotes is without them is
`Token.bare`; it has the letters and digits of the token, since a quote is neither.

## Main results

* `Text.Quoted.eq_encode_of_decode`: a quoted text that is read was written that way
* `Lexeme.takes_readLexeme`: a token that is read is the front of its text
* `Token.spelled_ofText`: the tokens of a text and what is behind them are the text
* `Token.filter_bare`: the quotes around a name hold no letter or digit
-/

namespace EntitySql

/-- A quoted text that is read is the writing of what is read, and no closing quote follows it. -/
theorem Text.Quoted.eq_encode_of_decode {close : Char} {cs s rest : List Char}
    (h : decode close cs = some (s, rest)) :
    cs = encode close s ++ close :: rest ∧ rest.head? ≠ some close := by
  fun_induction decode close cs generalizing s rest with
  | case1 => cases h
  | case2 =>
    obtain ⟨rfl, rfl⟩ : [] = s ∧ [] = rest := by simpa using h
    exact ⟨rfl, by simp⟩
  | case3 => cases h
  | case4 tail ih =>
    obtain ⟨⟨s', rest'⟩, hs, hpair⟩ := Option.map_eq_some_iff.mp h
    obtain ⟨rfl, rfl⟩ : close :: s' = s ∧ rest' = rest := by simpa using hpair
    obtain ⟨hrest, hnext⟩ := ih hs
    exact ⟨by simp [encode, hrest], hnext⟩
  | case5 d tail hd =>
    obtain ⟨rfl, rfl⟩ : [] = s ∧ d :: tail = rest := by simpa using h
    exact ⟨rfl, by simpa using hd⟩
  | case6 c d tail hc ih =>
    obtain ⟨⟨s', rest'⟩, hs, hpair⟩ := Option.map_eq_some_iff.mp h
    obtain ⟨rfl, rfl⟩ : c :: s' = s ∧ rest' = rest := by simpa using hpair
    obtain ⟨hrest, hnext⟩ := ih hs
    exact ⟨by simp [encode, hc, hrest], hnext⟩

namespace Numeral

theorem suffix_readSign (cs : List Char) : (readSign cs).2 <:+ cs := by
  fun_cases readSign cs with
  | case1 rest => exact List.suffix_cons _ _
  | case2 rest => exact List.suffix_cons _ _
  | case3 => exact List.suffix_refl _

theorem suffix_readFraction {cs fraction rest : List Char}
    (h : readFraction cs = some (fraction, rest)) : rest <:+ cs := by
  fun_cases readFraction cs with
  | case1 tail =>
    obtain ⟨-, rfl⟩ : _ ∧ tail.dropWhile Char.isDigit = rest := by simpa [readFraction] using h
    exact (List.dropWhile_suffix _).trans (List.suffix_cons _ _)
  | case2 => simp_all [readFraction]

theorem suffix_readPower {cs rest : List Char} {power : Int}
    (h : readPower cs = some (power, rest)) : rest <:+ cs := by
  cases cs with
  | nil => cases h
  | cons c tail =>
    simp only [readPower] at h
    split at h
    · split at h
      · cases h
      · obtain ⟨-, rfl⟩ := Prod.mk.inj (Option.some.inj h)
        exact (List.dropWhile_suffix _).trans ((suffix_readSign tail).trans (List.suffix_cons _ _))
    · cases h

theorem suffix_readUnsigned {negative : Bool} {cs rest : List Char} {n : Numeral}
    (h : readUnsigned negative cs = some (n, rest)) : rest <:+ cs := by
  have hwhole : cs.dropWhile Char.isDigit <:+ cs := List.dropWhile_suffix _
  -- the power stands behind the fraction, and that behind the digits in front
  have hpower : ∀ behind : List Char, behind <:+ cs →
      ((readPower behind).map (·.2)).getD behind <:+ cs := by
    intro behind hbehind
    cases hp : readPower behind with
    | none => exact hbehind
    | some p => exact (suffix_readPower hp).trans hbehind
  suffices hrest : ∃ behind, behind <:+ cs ∧
      rest = ((readPower behind).map (·.2)).getD behind by
    obtain ⟨behind, hbehind, rfl⟩ := hrest
    exact hpower behind hbehind
  cases hf : readFraction (cs.dropWhile Char.isDigit) with
  | none =>
    refine ⟨_, hwhole, ?_⟩
    cases hp : readPower (cs.dropWhile Char.isDigit) <;> simp_all [readUnsigned]
  | some f =>
    refine ⟨f.2, (suffix_readFraction hf).trans hwhole, ?_⟩
    cases hp : readPower f.2 <;> simp_all [readUnsigned]

end Numeral

namespace Token

theorem suffix_afterComment (cs : List Char) : afterComment cs <:+ cs := by
  fun_induction afterComment cs with
  | case1 rest => exact (List.suffix_cons _ _).trans (List.suffix_cons _ _)
  | case2 c rest _ ih => exact ih.trans (List.suffix_cons _ _)
  | case3 => exact List.suffix_refl _

theorem suffix_afterGap (n : Nat) (cs : List Char) : afterGap n cs <:+ cs := by
  fun_induction afterGap n cs with
  | case1 n rest ih =>
    exact ih.trans ((List.dropWhile_suffix _).trans
      ((List.suffix_cons _ _).trans (List.suffix_cons _ _)))
  | case2 n rest ih =>
    exact ih.trans ((suffix_afterComment rest).trans
      ((List.suffix_cons _ _).trans (List.suffix_cons _ _)))
  | case3 n c rest _ _ _ ih => exact ih.trans (List.suffix_cons _ _)
  | case4 n c rest => exact List.suffix_refl _
  | case5 => exact List.suffix_refl _

theorem suffix_readNumber (cs : List Char) : (readNumber cs).2 <:+ cs := by
  have hdecimal : ((Numeral.readUnsigned false cs).map (·.2)).getD cs <:+ cs := by
    cases h : Numeral.readUnsigned false cs with
    | none => exact List.suffix_refl _
    | some r => exact Numeral.suffix_readUnsigned h
  unfold readNumber
  extract_lets behind
  have hbehind : behind <:+ cs := by
    unfold behind
    split
    · split
      · exact (List.dropWhile_suffix _).trans ((List.suffix_cons _ _).trans
          ((List.suffix_cons _ _).trans (List.suffix_cons _ _)))
      · exact hdecimal
    · exact hdecimal
  clear_value behind
  cases behind with
  | nil => exact hbehind
  | cons c after =>
    cases hc : continuesName c with
    | true => simpa [hc] using (List.dropWhile_suffix continuesName).trans hbehind
    | false => simpa [hc] using hbehind

theorem suffix_readBlob (cs : List Char) : (readBlob cs).2 <:+ cs := by
  unfold readBlob
  extract_lets digits
  split
  · next after bytes hafter _ =>
    have hquote : '\'' :: after <:+ cs := hafter ▸ List.dropWhile_suffix _
    exact (List.suffix_cons _ _).trans hquote
  · exact (List.drop_suffix _ _).trans (List.dropWhile_suffix _)

theorem suffix_readSymbol (c : Char) (rest : List Char) : (readSymbol c rest).2 <:+ rest := by
  unfold readSymbol
  split
  · split
    · exact List.suffix_cons _ _
    · split <;> exact List.suffix_refl _
  · split <;> exact List.suffix_refl _

/-! ### Tokens -/

end Token

/-- The characters of a token without the quotes around a name. -/
def Lexeme.bare (text : List Char) : Lexeme → List Char
  | .quoted name | .bracketed name => name.toList
  | _ => text

/-- What is read at the front of a text: a suffix is left, and the token in front of it has the
letters and digits that it has without quotes. -/
structure Lexeme.Takes (cs : List Char) (r : Lexeme × List Char) : Prop where
  /-- A suffix of the text is left. -/
  suffix : r.2 <:+ cs
  /-- The quotes are neither letters nor digits. -/
  filter_bare : ∀ text, text ++ r.2 = cs →
    (r.1.bare text).filter Text.isAlphanumeric = text.filter Text.isAlphanumeric

namespace Lexeme

/-- A token that is not a name in quotes has nothing to be left out. -/
theorem takes_of_suffix {cs : List Char} {r : Lexeme × List Char} (hsuffix : r.2 <:+ cs)
    (hbare : ∀ text, r.1.bare text = text) : Takes cs r :=
  ⟨hsuffix, fun text _ => by rw [hbare]⟩

theorem filter_encode {p : Char → Bool} {close : Char} (hclose : p close = false)
    (s : List Char) : (Text.Quoted.encode close s).filter p = s.filter p := by
  induction s with
  | nil => rfl
  | cons c s ih =>
    by_cases hc : c = close
    · simp [Text.Quoted.encode, hc, hclose, ih]
    · simp [Text.Quoted.encode, hc, List.filter_cons, ih]

/-- A quoted text is written with the characters that it stands for, and quotes. -/
theorem exists_readQuoted (close : Char) (make : String → Lexeme) (rest : List Char) :
    Token.readQuoted close make rest = (.illegal, []) ∨
      ∃ s after, Token.readQuoted close make rest = (make (String.ofList s), after) ∧
        close :: rest = close :: (Text.Quoted.encode close s ++ [close]) ++ after := by
  unfold Token.readQuoted
  cases h : Text.Quoted.decode close rest with
  | none => exact .inl rfl
  | some r =>
    refine .inr ⟨r.1, r.2, rfl, ?_⟩
    simp [(Text.Quoted.eq_encode_of_decode h).1]

theorem suffix_readQuoted (close : Char) (make : String → Lexeme) (rest : List Char) :
    (Token.readQuoted close make rest).2 <:+ close :: rest := by
  obtain h | ⟨s, after, h, hwhole⟩ := exists_readQuoted close make rest
  · rw [h]
    exact List.nil_suffix
  · rw [h]
    exact ⟨_, hwhole.symm⟩

theorem takes_name {close : Char} (hclose : Text.isAlphanumeric close = false)
    {make : String → Lexeme} (hmake : ∀ s text, (make s).bare text = s.toList) (rest : List Char) :
    Takes (close :: rest) (Token.readQuoted close make rest) := by
  refine ⟨suffix_readQuoted close make rest, fun text htext => ?_⟩
  obtain h | ⟨s, after, h, hwhole⟩ := exists_readQuoted close make rest
  · rw [h]
    rfl
  · rw [h] at htext ⊢
    obtain rfl := List.append_cancel_right (htext.trans hwhole)
    simp [hmake, hclose, filter_encode hclose]

theorem bare_literal (close : Char) (rest text : List Char) :
    (Token.readQuoted close .text rest).1.bare text = text := by
  obtain h | ⟨s, after, h, -⟩ := exists_readQuoted close .text rest <;> rw [h] <;> rfl

theorem bare_readNumber (cs text : List Char) : (Token.readNumber cs).1.bare text = text := by
  fun_cases Token.readNumber cs <;> rfl

theorem bare_readBlob (cs text : List Char) : (Token.readBlob cs).1.bare text = text := by
  fun_cases Token.readBlob cs <;> rfl

theorem bare_readSymbol (c : Char) (rest text : List Char) :
    (Token.readSymbol c rest).1.bare text = text := by
  fun_cases Token.readSymbol c rest <;> rfl

/-- A name in brackets ends at the first closing one. -/
theorem takes_bracketed {rest after : List Char} {c : Char}
    (h : rest.dropWhile (· != ']') = c :: after) :
    Takes ('[' :: rest) (.bracketed (String.ofList (rest.takeWhile (· != ']'))), after) := by
  have hc : c = ']' := by simpa [h] using List.head?_dropWhile_not (· != ']') rest
  have hrest := List.takeWhile_append_dropWhile (p := (· != ']')) (l := rest)
  rw [h, hc] at hrest
  have hwhole : '[' :: rest = ('[' :: (rest.takeWhile (· != ']') ++ [']'])) ++ after := by
    rw [List.cons_append, List.append_assoc, List.singleton_append, hrest]
  refine ⟨⟨_, hwhole.symm⟩, fun text htext => ?_⟩
  obtain rfl : text = '[' :: (rest.takeWhile (· != ']') ++ [']']) :=
    List.append_cancel_right (htext.trans hwhole)
  have hopen : Text.isAlphanumeric '[' = false := by decide +kernel
  have hclose : Text.isAlphanumeric ']' = false := by decide +kernel
  simp [bare, hopen, hclose]

/-- A token is read off the front of a text. -/
theorem takes_readLexeme (c : Char) (rest : List Char) :
    Takes (c :: rest) (Token.readLexeme c rest) := by
  have hbehind : ∀ {q : Char → Bool}, rest.dropWhile q <:+ c :: rest :=
    (List.dropWhile_suffix _).trans (List.suffix_cons _ _)
  fun_cases Token.readLexeme c rest with
  | case1 h =>
    obtain rfl : c = '"' := by simpa using h
    exact takes_name (by decide +kernel) (fun _ _ => rfl) rest
  | case2 _ h _ _ hdrop =>
    obtain rfl : c = '[' := by simpa using h
    exact takes_bracketed hdrop
  | case3 => exact takes_of_suffix List.nil_suffix fun _ => rfl
  | case4 _ _ h =>
    obtain rfl : c = '\x60' := by simpa using h
    exact takes_name (by decide +kernel) (fun _ _ => rfl) rest
  | case5 _ _ _ h =>
    obtain rfl : c = '\'' := by simpa using h
    exact takes_of_suffix (suffix_readQuoted _ _ _) (bare_literal _ _)
  | case6 => exact takes_of_suffix hbehind fun _ => rfl
  | case7 =>
    have htail : rest.tail <:+ c :: rest := (List.tail_suffix _).trans (List.suffix_cons _ _)
    exact takes_of_suffix ((Token.suffix_readBlob _).trans htail) (bare_readBlob _)
  | case8 => exact takes_of_suffix hbehind fun _ => rfl
  | case9 => exact takes_of_suffix (Token.suffix_readNumber _) (bare_readNumber _)
  | case10 =>
    exact takes_of_suffix ((Token.suffix_readSymbol c rest).trans (List.suffix_cons _ _))
      (bare_readSymbol c rest)

end Lexeme

namespace Token

/-- The characters of a token without the quotes around a name. -/
def bare (t : Token) : List Char := t.lexeme.bare t.text

/-! ### Texts -/

/-- The first token of a text has the characters in front of what is left. -/
theorem readMany_succ (n : Nat) (cs : List Char) :
    readMany (n + 1) cs = [] ∨ ∃ t rest, readMany (n + 1) cs = t :: readMany n rest ∧
      t.gap ++ t.text ++ rest = cs ∧
      t.bare.filter Text.isAlphanumeric = t.text.filter Text.isAlphanumeric := by
  have hgap : afterGap cs.length cs <:+ cs := suffix_afterGap _ _
  cases h : afterGap cs.length cs with
  | nil => exact .inl (by rw [readMany, h])
  | cons c rest =>
    have hfront := List.suffix_iff_eq_append.1 (h ▸ hgap)
    have htakes := Lexeme.takes_readLexeme c rest
    have htext := List.suffix_iff_eq_append.1 htakes.suffix
    refine .inr ⟨_, (readLexeme c rest).2, by rw [readMany, h], ?_, ?_⟩
    · rw [List.append_assoc]
      exact (congrArg (_ ++ ·) htext).trans hfront
    · exact htakes.filter_bare _ htext

/-- The tokens of a text are the front of it. -/
theorem spelled_readMany (n : Nat) (cs : List Char) : spelled (readMany n cs) <+: cs := by
  induction n generalizing cs with
  | zero => exact List.nil_prefix
  | succ n ih =>
    obtain h | ⟨t, rest, h, hcs, -⟩ := readMany_succ n cs
    · rw [h]
      exact List.nil_prefix
    · rw [h, ← hcs]
      exact (List.prefix_append_right_inj _).2 (ih rest)

theorem filter_bare_of_mem_readMany {n : Nat} {cs : List Char} {t : Token}
    (h : t ∈ readMany n cs) :
    t.bare.filter Text.isAlphanumeric = t.text.filter Text.isAlphanumeric := by
  induction n generalizing cs with
  | zero => cases h
  | succ n ih =>
    obtain hnone | ⟨first, rest, hfirst, -, hbare⟩ := readMany_succ n cs
    · rw [hnone] at h
      cases h
    · rw [hfirst] at h
      obtain rfl | h := List.mem_cons.1 h
      · exact hbare
      · exact ih h

/-- What stands behind the last token of a text. -/
def behind (sql : String) : List Char := sql.toList.drop (spelled (ofText sql)).length

/-- **The tokens of a text hold it**, with the blanks and comments behind the last one. -/
theorem spelled_ofText (sql : String) : spelled (ofText sql) ++ behind sql = sql.toList :=
  List.prefix_iff_eq_append.1 (spelled_readMany _ _)

/-- The letters and digits of a token are those that it has without quotes. -/
theorem filter_bare {sql : String} {t : Token} (h : t ∈ ofText sql) :
    t.bare.filter Text.isAlphanumeric = t.text.filter Text.isAlphanumeric :=
  filter_bare_of_mem_readMany h

end Token

end EntitySql
