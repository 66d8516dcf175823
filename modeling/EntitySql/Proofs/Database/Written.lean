import EntitySql.Database.Grammar.Expression
import EntitySql.Proofs.Database.Yielding

/-!
# Expressions as they are written

An expression that is written shows more than the tree it stands for: which of its operands stand in
parentheses. `Written` keeps these, so a `Written` has a text and tokens of its own, and also the
tree that its writer had in mind, which is its `phrase`. Whether a reader finds that tree again is
another matter.

Only operators between operands that are columns, markers and the absent value are of interest.
Lists, calls and choices are not written here.

## Main definitions

* `Written`: an expression with its parentheses
* `Written.text`, `Written.tokens`, `Written.phrase`: its characters, its tokens and its tree
* `Written.Legal`, `Written.Tight`: operators that are read as they are written, and signs that stand
  in front of single operands

## Main results

* `Reading.operator?_tokens`: the operator of its tokens
* `Written.spells`: the tokens of a text
-/

namespace EntitySql

open Token

/-- An expression with the parentheses that it is written with. -/
inductive Written where
  /-- The absent value. -/
  | null
  /-- A marker. -/
  | marker
  /-- A column, behind a table alias if there is one. -/
  | column (qualifier : Option String) (name : String)
  /-- An expression in parentheses. -/
  | enclosed (inner : Written)
  /-- A unary operation. -/
  | unary (op : UnaryOperator) (operand : Written)
  /-- A binary operation. -/
  | binary (left : Written) (op : Operator) (right : Written)
deriving DecidableEq, Inhabited, Repr

/-! ### Tokens -/

/-- A marker without a number. -/
def Token.ofMarker (gap : String) : Token := ⟨gap.toList, ['?'], .marker none⟩

/-- The tokens of an operator between its operands. -/
def Operator.tokens : Operator → List Token
  | isNot => [ofWord " " "IS", ofWord " " "NOT"]
  | is => [ofWord " " "IS"]
  | isIn => [ofWord " " "IN"]
  | like => [ofWord " " "LIKE"]
  | and => [ofWord " " "AND"]
  | or => [ofWord " " "OR"]
  | op => [⟨[' '], op.sql.toList, .symbol⟩]

namespace Written

/-- The characters of an expression. -/
def text : Written → List Char
  | null => "NULL".toList
  | marker => ['?']
  | column none name => (Text.Quoted.enclose '"' '"' name).toList
  | column (some a) name =>
    (Text.Quoted.enclose '"' '"' a).toList ++ '.' :: (Text.Quoted.enclose '"' '"' name).toList
  | enclosed x => '(' :: (x.text ++ [')'])
  | unary op x => op.sql.toList ++ x.text
  | binary l op r => l.text ++ (' ' :: op.sql.toList ++ ' ' :: r.text)

/-- The tokens of an expression behind a gap. -/
def tokens : String → Written → List Token
  | gap, null => [ofWord gap "NULL"]
  | gap, marker => [ofMarker gap]
  | gap, column none name => [ofName gap name]
  | gap, column (some a) name => [ofName gap a, ofMark "" '.', ofName "" name]
  | gap, enclosed x => ofMark gap '(' :: (x.tokens "" ++ [ofMark "" ')'])
  | gap, unary .negate x => ofMark gap '-' :: x.tokens ""
  | gap, unary .not x => ofWord gap "NOT" :: x.tokens " "
  | gap, binary l op r => l.tokens gap ++ (op.tokens ++ r.tokens " ")

/-- The number of markers. -/
def markers : Written → Nat
  | marker => 1
  | null | column _ _ => 0
  | enclosed x | unary _ x => x.markers
  | binary l _ r => l.markers + r.markers

/-- The tree that an expression is written for, with its markers numbered from the given number. -/
def phrase : Nat → Written → Phrase
  | _, null => .datum .null
  | n, marker => .parameter n
  | _, column none name => .quoted name
  | _, column (some a) name => .column (some a) name
  | n, enclosed x => x.phrase n
  | n, unary op x => .unary op (x.phrase n)
  | n, binary l op r => .binary (l.phrase n) op (r.phrase (n + l.markers))

/-- Whether the first word is `NOT`. -/
def startsNot : Written → Bool
  | unary .not _ => true
  | binary l _ _ => l.startsNot
  | _ => false

/-- Whether the expression is a single operand. -/
def isClosed : Written → Bool
  | unary _ _ | binary _ _ _ => false
  | _ => true

/-- The operators are read as they are written: there are no lists behind `IN`, no operators that
the reader does not know, and `IS` is not continued by `NOT`. -/
def Legal : Written → Prop
  | null | marker | column _ _ => True
  | enclosed x | unary _ x => x.Legal
  | binary l op r =>
    (l.Legal ∧ r.Legal) ∧ op ≠ .isIn ∧ op ≠ .bitXor ∧ (op = .is → r.startsNot = false)

/-- What is behind a unary operator is a single operand. -/
def Tight : Written → Prop
  | null | marker | column _ _ => True
  | enclosed x => x.Tight
  | unary _ x => x.Tight ∧ x.isClosed = true
  | binary l _ r => l.Tight ∧ r.Tight

end Written

/-! ### Texts -/

namespace Token

theorem stands_marker {gap : String} (hgap : ∀ c ∈ gap.toList, isGap c = true) {rest : List Char}
    (hrest : Breaks rest) : (ofMarker gap).Stands rest := by
  refine ⟨hgap, '?', [], rfl, fun n => afterGap_of_not_gap rfl (by decide) (by decide) n _, ?_⟩
  have hdigit : ∀ c ∈ rest.head?, c.isDigit = false := hrest.head?_not (by decide)
  cases rest with
  | nil => rfl
  | cons c rest =>
    have hc : c.isDigit = false := hdigit c rfl
    simp [readLexeme, ofMarker, hc]

/-- A point stands where no digit follows it. -/
theorem stands_point {rest : List Char} (hrest : ∀ c ∈ rest.head?, c.isDigit = false) :
    (ofMark "" '.').Stands rest := by
  refine ⟨isGap_empty, '.', [], rfl, fun n => afterGap_of_not_gap rfl (by decide) (by decide) n _, ?_⟩
  cases rest with
  | nil => rfl
  | cons c rest =>
    have hc : c.isDigit = false := hrest c rfl
    simp [readLexeme, readSymbol, pairs, hc, beginsName, singles, ofMark]

/-- The signs of the operators that are symbols of one character. -/
def signs : List Char := ['*', '/', '%', '+', '-', '=', '<', '>', '&', '|']

theorem stands_sign {c : Char} (hc : c ∈ signs) {rest : List Char} (hrest : Breaks rest) :
    (⟨[' '], [c], .symbol⟩ : Token).Stands rest := by
  -- no break continues a sign to a symbol of two characters, or to a comment
  have hread : (∀ n, afterGap n (c :: rest) = c :: rest) ∧ readLexeme c rest = (.symbol, rest) := by
    simp only [signs, List.mem_cons, List.not_mem_nil, or_false] at hc
    rcases rest with _ | ⟨d, rest⟩
    · rcases hc with rfl | rfl | rfl | rfl | rfl | rfl | rfl | rfl | rfl | rfl <;>
        exact ⟨fun n => by cases n <;> rfl, rfl⟩
    · have hd : isBreak d = true := hrest d rfl
      simp only [isBreak, Bool.or_eq_true, beq_iff_eq] at hd
      rcases hd with ((rfl | rfl) | rfl) | rfl <;>
        rcases hc with rfl | rfl | rfl | rfl | rfl | rfl | rfl | rfl | rfl | rfl <;>
          exact ⟨fun n => by cases n <;> rfl, rfl⟩
  exact ⟨isGap_blank, c, [], rfl, hread.1, hread.2⟩

/-- A symbol of two characters stands in front of anything. -/
theorem stands_pair {c d : Char} (hpair : (c, d) ∈ [('<', '>'), ('<', '='), ('<', '<'), ('>', '='),
    ('>', '>')]) (rest : List Char) : (⟨[' '], [c, d], .symbol⟩ : Token).Stands rest := by
  have hread : (∀ n, afterGap n (c :: d :: rest) = c :: d :: rest) ∧
      readLexeme c (d :: rest) = (.symbol, rest) := by
    simp only [List.mem_cons, Prod.mk.injEq, List.not_mem_nil, or_false] at hpair
    rcases hpair with ⟨rfl, rfl⟩ | ⟨rfl, rfl⟩ | ⟨rfl, rfl⟩ | ⟨rfl, rfl⟩ | ⟨rfl, rfl⟩ <;>
      exact ⟨fun n => by cases n <;> rfl, rfl⟩
  exact ⟨isGap_blank, c, [d], rfl, hread.1, hread.2⟩

end Token

/-- The tokens of an operator are read where a break follows them. -/
theorem Operator.spells_tokens {op : Operator} (hop : op ≠ .bitXor) :
    Spells op.tokens (' ' :: op.sql.toList) := by
  have hsign : ∀ {c}, c ∈ Token.signs → Spells [⟨[' '], [c], .symbol⟩] [' ', c] :=
    fun hc => spells_of_stands fun _ hrest => stands_sign hc hrest
  have hpair : ∀ {c d}, (c, d) ∈ [('<', '>'), ('<', '='), ('<', '<'), ('>', '='), ('>', '>')] →
      Spells [⟨[' '], [c, d], .symbol⟩] [' ', c, d] :=
    fun hcd => spells_of_stands fun rest _ => stands_pair hcd rest
  have hword : ∀ {w : String}, isWordText w.toList = true →
      Spells [ofWord " " w] (' ' :: w.toList) :=
    fun hw => spells_word isGap_blank hw
  cases op with
  | bitXor => exact absurd rfl hop
  | multiply | divide | modulo | add | subtract | equal | less | greater | bitAnd | bitOr =>
    exact hsign (by decide)
  | notEqual | lessOrEqual | greaterOrEqual | shiftLeft | shiftRight => exact hpair (by decide)
  | like | is | isIn | and | or => exact hword (by decide)
  | isNot =>
    have hall := (hword (w := "IS") (by decide)).append (hword (w := "NOT") (by decide))
      (breaks_cons rfl)
    exact hall

namespace Written

/-- No sign begins a single operand. -/
theorem head?_text_of_isClosed {w : Written} (h : w.isClosed = true) (rest : List Char) :
    ∀ c ∈ ("".toList ++ w.text ++ rest).head?, c ≠ '-' := by
  have hquote : ∀ name : String,
      (Text.Quoted.enclose '"' '"' name).toList = '"' :: (Text.Quoted.encode '"' name.toList ++ ['"']) :=
    fun name => by simp [Text.Quoted.enclose, Text.Quoted.encloseChars]
  cases w with
  | null => simp [text]
  | marker => simp [text]
  | column qualifier name => cases qualifier <;> simp [text, hquote]
  | enclosed x => simp [text]
  | unary op x => simp [isClosed] at h
  | binary l op r => simp [isClosed] at h

/-- **The tokens of an expression.** -/
theorem spells {w : Written} (hlegal : w.Legal) (htight : w.Tight) {gap : String}
    (hgap : ∀ c ∈ gap.toList, isGap c = true) : Spells (w.tokens gap) (gap.toList ++ w.text) := by
  induction w generalizing gap with
  | null => exact spells_word hgap (by decide)
  | marker => exact spells_of_stands fun _ hrest => stands_marker hgap hrest
  | column qualifier name =>
    cases qualifier with
    | none => exact spells_name hgap name
    | some a =>
      refine ⟨by simp [spelled, tokens, text, ofName, ofMark], fun rest hrest => ⟨?_, ?_, ?_, trivial⟩⟩
      · exact stands_name_of_head hgap a (by simp [ofMark])
      · exact stands_point (by simp [ofName, Text.Quoted.enclose, Text.Quoted.encloseChars])
      · exact stands_name isGap_empty name hrest
  | enclosed x ih =>
    have hclose := spells_mark isGap_empty (c := ')') (.inr (.inl rfl)) Spells.nil
    have hinner := (ih hlegal htight isGap_empty).append hclose (breaks_cons rfl)
    simpa [tokens, text] using spells_mark hgap (.inl rfl) hinner
  | unary op x ih =>
    cases op with
    | not =>
      have hword : Spells [ofWord gap "NOT"] (gap.toList ++ "NOT".toList) :=
        spells_word hgap (by decide)
      have hall := hword.append (ih hlegal htight.1 isGap_blank) (breaks_cons rfl)
      simpa [tokens, text, UnaryOperator.sql] using hall
    | negate =>
      have hinner := ih hlegal htight.1 isGap_empty
      refine ⟨by simp [tokens, text, UnaryOperator.sql, hinner.spelled, ofMark], fun rest hrest =>
        ⟨?_, hinner.stand rest hrest⟩⟩
      rw [hinner.spelled]
      exact stands_minus hgap (head?_text_of_isClosed htight.2 rest)
  | binary l op r ihl ihr =>
    obtain ⟨⟨hl, hr⟩, -, hop, -⟩ := hlegal
    have hright := ihr hr htight.2 isGap_blank
    have hrest := (Operator.spells_tokens hop).append hright (breaks_cons rfl)
    have hall := (ihl hl htight.1 hgap).append hrest (breaks_cons rfl)
    simpa [tokens, text] using hall

end Written

end EntitySql
