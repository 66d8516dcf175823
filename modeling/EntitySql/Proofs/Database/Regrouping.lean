import EntitySql.Proofs.Database.Grouped

/-!
# What the reader makes of operators

Whether or not an expression fits, its tokens are those of one that does: putting its operands one
after the other where the table of the reader has them gives the same tokens, and an expression that
fits. So every expression is read, and it is read as the tree of the expression that it is regrouped
to.

The reader finds the tree that the expression was written for exactly if the expression fits. That
an expression with the same tokens and the same tree is the same expression is where parentheses
matter: what stands between two that match is the same in both.

## Main definitions

* `Written.regrouped`: the expression that fits, with the same tokens

## Main results

* `Written.run_phrase_regrouped`: every expression is read as its regrouped tree
* `Written.phrase_regrouped_iff`: which is its own exactly if it fits
-/

namespace EntitySql

open Token

namespace Written

/-- An expression followed by an operator and an operand. The operator stands where the right edge
of the expression lets it in. -/
def insert : Written → Operator → Written → Written
  | unary p y, op, x =>
    if Reading.binding op < (unary p y).limit then binary (unary p y) op x
    else unary p (y.insert op x)
  | binary l p r, op, x =>
    if Reading.binding op < (binary l p r).limit then binary (binary l p r) op x
    else binary l p (r.insert op x)
  | w, op, x => binary w op x

/-- An expression followed by an operator and an expression, whose operands are inserted one after
the other. -/
def attach : Written → Operator → Written → Written
  | w, op, binary l p r => (w.attach op l).attach p r
  | w, op, x => w.insert op x

/-- The expression as the table of the reader groups it, with the same parentheses. -/
def regrouped : Written → Written
  | enclosed x => enclosed x.regrouped
  | unary op x => unary op x.regrouped
  | binary l op r => l.regrouped.attach op r.regrouped
  | w => w

/-- Whether the expression is no binary operation. -/
def isOperand : Written → Bool
  | binary _ _ _ => false
  | _ => true

theorem level_of_isOperand {x : Written} (hx : x.isOperand = true) : x.level = 10 := by
  cases x with
  | binary l p r => simp [isOperand] at hx
  | _ => rfl

theorem binding_lt (op : Operator) : Reading.binding op < 9 := by cases op <;> decide

/-! ### The same tokens -/

section

variable (w : Written) (op : Operator) (x : Written)

theorem tokens_insert (gap : String) :
    (w.insert op x).tokens gap = w.tokens gap ++ (op.tokens ++ x.tokens " ") := by
  induction w generalizing gap with
  | null | marker | column | enclosed => rfl
  | unary p y ih =>
    rw [insert]
    split
    · rfl
    · cases p <;> simp [tokens, ih]
  | binary l p r _ ih =>
    rw [insert]
    split
    · rfl
    · simp [tokens, ih]

theorem tokens_attach (gap : String) :
    (w.attach op x).tokens gap = w.tokens gap ++ (op.tokens ++ x.tokens " ") := by
  induction x generalizing w op with
  | binary l p r ihl ihr => simp [attach, ihr, ihl, tokens]
  | _ => exact tokens_insert w op _ gap

theorem markers_insert : (w.insert op x).markers = w.markers + x.markers := by
  induction w with
  | null | marker | column | enclosed => rfl
  | unary p y ih =>
    rw [insert]
    split
    · rfl
    · simp [markers, ih]
  | binary l p r _ ih =>
    rw [insert]
    split
    · rfl
    · simp [markers, ih, Nat.add_assoc]

theorem markers_attach : (w.attach op x).markers = w.markers + x.markers := by
  induction x generalizing w op with
  | binary l p r ihl ihr => simp [attach, ihr, ihl, markers, Nat.add_assoc]
  | _ => exact markers_insert w op _

theorem startsNot_insert : (w.insert op x).startsNot = w.startsNot := by
  cases w with
  | null | marker | column | enclosed => rfl
  | unary p y =>
    rw [insert]
    split
    · rfl
    · cases p <;> rfl
  | binary l p r =>
    rw [insert]
    split
    · rfl
    · rfl

theorem startsNot_attach : (w.attach op x).startsNot = w.startsNot := by
  induction x generalizing w op with
  | binary l p r ihl ihr => rw [attach, ihr, ihl]
  | _ => exact startsNot_insert w op _

end

theorem tokens_regrouped (w : Written) (gap : String) : w.regrouped.tokens gap = w.tokens gap := by
  induction w generalizing gap with
  | null | marker | column => rfl
  | enclosed x ih => simp [regrouped, tokens, ih]
  | unary op x ih => cases op <;> simp [regrouped, tokens, ih]
  | binary l op r ihl ihr => rw [regrouped, tokens_attach, ihl, ihr, tokens]

theorem markers_regrouped (w : Written) : w.regrouped.markers = w.markers := by
  induction w with
  | null | marker | column => rfl
  | enclosed x ih => exact ih
  | unary op x ih => exact ih
  | binary l op r ihl ihr => rw [regrouped, markers_attach, ihl, ihr, markers]

theorem startsNot_regrouped (w : Written) : w.regrouped.startsNot = w.startsNot := by
  induction w with
  | null | marker | column | enclosed => rfl
  | unary op x ih => cases op <;> rfl
  | binary l op r ihl ihr => rw [regrouped, startsNot_attach, ihl, startsNot]

/-! ### Legal operators -/

/-- The operator is read as it is written, in front of the expression. -/
def LegalBefore (op : Operator) (x : Written) : Prop :=
  op ≠ .isIn ∧ op ≠ .bitXor ∧ (op = .is → x.startsNot = false)

theorem legal_insert {w : Written} {op : Operator} {x : Written} (hw : w.Legal) (hx : x.Legal)
    (hop : LegalBefore op x) : (w.insert op x).Legal := by
  induction w with
  | null | marker | column | enclosed => exact ⟨⟨hw, hx⟩, hop⟩
  | unary p y ih =>
    rw [insert]
    split
    · exact ⟨⟨hw, hx⟩, hop⟩
    · exact ih hw
  | binary l p r _ ih =>
    rw [insert]
    split
    · exact ⟨⟨hw, hx⟩, hop⟩
    · obtain ⟨⟨hl, hr⟩, hin, hxor, his⟩ := hw
      exact ⟨⟨hl, ih hr⟩, hin, hxor, fun h => by rw [startsNot_insert, his h]⟩

theorem legal_attach {w : Written} {op : Operator} {x : Written} (hw : w.Legal) (hx : x.Legal)
    (hop : LegalBefore op x) : (w.attach op x).Legal := by
  induction x generalizing w op with
  | binary l p r ihl ihr =>
    obtain ⟨⟨hl, hr⟩, hp⟩ := hx
    exact ihr (ihl hw hl hop) hr hp
  | _ => exact legal_insert hw hx hop

theorem legal_regrouped {w : Written} (hw : w.Legal) : w.regrouped.Legal := by
  induction w with
  | null | marker | column => exact trivial
  | enclosed x ih => exact ih hw
  | unary op x ih => exact ih hw
  | binary l op r ihl ihr =>
    obtain ⟨⟨hl, hr⟩, hin, hxor, his⟩ := hw
    exact legal_attach (ihl hl) (ihr hr) ⟨hin, hxor, fun h => by rw [startsNot_regrouped, his h]⟩

/-! ### Expressions that fit -/

/-- The operator is let in at the top, or further down. -/
theorem level_insert (w : Written) (op : Operator) (x : Written) :
    Reading.binding op < w.limit ∧ (w.insert op x).level = Reading.binding op ∨
      (w.insert op x).level = w.level := by
  have hten : Reading.binding op < 10 := Nat.lt_succ_of_lt (binding_lt op)
  cases w with
  | null | marker | column | enclosed => exact .inl ⟨hten, rfl⟩
  | unary p y =>
    rw [insert]
    split
    · exact .inl ⟨by assumption, rfl⟩
    · exact .inr rfl
  | binary l p r =>
    rw [insert]
    split
    · exact .inl ⟨by assumption, rfl⟩
    · exact .inr rfl

theorem fits_insert {w : Written} {op : Operator} {x : Written} (hw : w.fits = true)
    (hx : x.fits = true) (hoperand : x.isOperand = true) : (w.insert op x).fits = true := by
  have hlt := binding_lt op
  have hlevel : Reading.binding op < x.level := by
    rw [level_of_isOperand hoperand]
    omega
  have htop : ∀ {v : Written}, v.fits = true → Reading.binding op < v.limit →
      (binary v op x).fits = true := by
    intro v hv hlimit
    exact fits_binary.mpr ⟨⟨hv, hx⟩, hlimit, hlevel⟩
  induction w with
  | null | marker | column | enclosed => exact htop hw (by simp only [limit]; omega)
  | unary p y ih =>
    rw [insert]
    split
    · exact htop hw (by assumption)
    next hnot =>
      rw [fits_unary] at hw ⊢
      simp only [limit, Nat.not_lt] at hnot
      refine ⟨ih hw.1, ?_⟩
      rcases level_insert y op x with ⟨hlet, hsame⟩ | hsame <;> omega
  | binary l p r _ ih =>
    rw [insert]
    split
    · exact htop hw (by assumption)
    next hnot =>
      rw [fits_binary] at hw ⊢
      simp only [limit, Nat.not_lt] at hnot
      obtain ⟨⟨hl, hr⟩, hleft, hright⟩ := hw
      refine ⟨⟨hl, ih hr⟩, hleft, ?_⟩
      rcases level_insert r op x with ⟨hlet, hsame⟩ | hsame <;> omega

theorem fits_attach {w : Written} {op : Operator} {x : Written} (hw : w.fits = true)
    (hx : x.fits = true) : (w.attach op x).fits = true := by
  induction x generalizing w op with
  | binary l p r ihl ihr =>
    obtain ⟨⟨hl, hr⟩, -⟩ := fits_binary.mp hx
    exact ihr (ihl hw hl) hr
  | _ => exact fits_insert hw hx rfl

theorem isClosed_regrouped {w : Written} (h : w.isClosed = true) : w.regrouped.isClosed = true := by
  cases w with
  | unary op x => simp [isClosed] at h
  | binary l op r => simp [isClosed] at h
  | _ => rfl

/-- **The regrouped expression fits.** -/
theorem fits_regrouped {w : Written} (htight : w.Tight) : w.regrouped.fits = true := by
  induction w with
  | null | marker | column => rfl
  | enclosed x ih => exact ih htight
  | unary op x ih =>
    have hlevel := (level_of_isClosed (isClosed_regrouped htight.2)).1
    have hbinding : binding op ≤ 10 := by cases op <;> decide
    exact fits_unary.mpr ⟨ih htight.1, by rwa [hlevel]⟩
  | binary l op r ihl ihr => exact fits_attach (ihl htight.1) (ihr htight.2)

/-- **Every expression is read**, as the tree of the regrouped one. -/
theorem run_phrase_regrouped {w : Written} (hlegal : w.Legal) (htight : w.Tight) (gap : String) :
    Reading.phrase.run ⟨w.tokens gap, 0⟩ = .ok (w.regrouped.phrase 0, ⟨[], w.markers⟩) := by
  have hrun := run_phrase (legal_regrouped hlegal) (fits_regrouped htight) gap
  rwa [tokens_regrouped, markers_regrouped] at hrun

/-! ### Expressions that fit are not regrouped -/

theorem insert_of_lt {w : Written} {op : Operator} (h : Reading.binding op < w.limit)
    (x : Written) : w.insert op x = binary w op x := by
  cases w with
  | unary p y => rw [insert, if_pos h]
  | binary l p r => rw [insert, if_pos h]
  | _ => rfl

/-- What binds tighter than an operator is attached to its right operand. -/
theorem attach_binary {l r : Written} {op p : Operator} {x : Written} (hx : x.fits = true)
    (hp : Reading.binding op < Reading.binding p) (hlevel : Reading.binding op < x.level) :
    (binary l op r).attach p x = binary l op (r.attach p x) := by
  induction x generalizing r p with
  | binary a q b iha ihb =>
    obtain ⟨⟨ha, hb⟩, hleft, hright⟩ := fits_binary.mp hx
    have hlimit := a.limit_le_level
    have hq : Reading.binding op < Reading.binding q := hlevel
    rw [attach, iha ha hp (by omega), ihb hb hq (by omega), attach]
  | _ =>
    have hclosed : ¬ Reading.binding p < (binary l op r).limit := by
      simp only [limit]
      omega
    simp only [attach, insert, if_neg hclosed]

/-- An operator between expressions that fit around it is attached at the top. -/
theorem attach_of_fits {l r : Written} {op : Operator} (h : (binary l op r).fits = true) :
    l.attach op r = binary l op r := by
  obtain ⟨⟨hl, hr⟩, hlimit, hlevel⟩ := fits_binary.mp h
  induction r generalizing l op with
  | binary a p b iha ihb =>
    obtain ⟨⟨ha, hb⟩, hleft, hright⟩ := fits_binary.mp hr
    have hlower := a.limit_le_level
    have hp : Reading.binding op < Reading.binding p := hlevel
    have ha' : Reading.binding op < a.level := by omega
    rw [attach, iha (fits_binary.mpr ⟨⟨hl, ha⟩, hlimit, ha'⟩) hl ha hlimit ha',
      attach_binary hb hp (by omega), ihb hr ha hb hleft hright]
  | _ => exact insert_of_lt hlimit _

theorem regrouped_of_fits {w : Written} (h : w.fits = true) : w.regrouped = w := by
  induction w with
  | null | marker | column => rfl
  | enclosed x ih => rw [regrouped, ih h]
  | unary op x ih => rw [regrouped, ih (fits_unary.mp h).1]
  | binary l op r ihl ihr =>
    obtain ⟨⟨hl, hr⟩, -⟩ := fits_binary.mp h
    rw [regrouped, ihl hl, ihr hr, attach_of_fits h]

/-! ### Parentheses -/

end Written

namespace Token

/-- The tokens up to the parenthesis that closes the given number of open ones, and one more. -/
def inside : Nat → List Token → List Token
  | _, [] => []
  | depth, t :: ts =>
    if t.isSymbol "(" then t :: inside (depth + 1) ts
    else if t.isSymbol ")" then
      match depth with
      | 0 => []
      | depth + 1 => t :: inside depth ts
    else t :: inside depth ts

theorem inside_of_plain {t : Token} (hopen : t.isSymbol "(" = false)
    (hclose : t.isSymbol ")" = false) (depth : Nat) (ts : List Token) :
    inside depth (t :: ts) = t :: inside depth ts := by
  simp [inside, hopen, hclose]

theorem inside_open (gap : String) (depth : Nat) (ts : List Token) :
    inside depth (ofMark gap '(' :: ts) = ofMark gap '(' :: inside (depth + 1) ts := rfl

theorem inside_close (depth : Nat) (ts : List Token) :
    inside (depth + 1) (ofMark "" ')' :: ts) = ofMark "" ')' :: inside depth ts := rfl

/-- No operator is a parenthesis. -/
theorem inside_operator (op : Operator) (depth : Nat) (ts : List Token) :
    inside depth (op.tokens ++ ts) = op.tokens ++ inside depth ts := by
  cases op <;> rfl

end Token

namespace Written

/-- The parentheses of an expression match. -/
theorem inside_tokens (w : Written) (gap : String) (depth : Nat) (ts : List Token) :
    inside depth (w.tokens gap ++ ts) = w.tokens gap ++ inside depth ts := by
  induction w generalizing gap depth ts with
  | null => exact inside_of_plain rfl rfl depth ts
  | marker => exact inside_of_plain rfl rfl depth ts
  | column qualifier name =>
    cases qualifier with
    | none => exact inside_of_plain rfl rfl depth ts
    | some a =>
      simp only [tokens, List.cons_append, List.nil_append]
      rw [inside_of_plain rfl rfl, inside_of_plain rfl rfl, inside_of_plain rfl rfl]
  | enclosed x ih =>
    simp only [tokens, List.cons_append, List.append_assoc, List.nil_append]
    rw [inside_open, ih, inside_close]
  | unary op x ih =>
    cases op with
    | negate =>
      simp only [tokens, List.cons_append]
      rw [inside_of_plain rfl rfl, ih]
    | not =>
      simp only [tokens, List.cons_append]
      rw [inside_of_plain rfl rfl, ih]
  | binary l op r ihl ihr =>
    simp only [tokens, List.append_assoc]
    rw [ihl, inside_operator, ihr]

/-- So the first parenthesis that closes none of them ends the expression. -/
theorem tokens_eq_of_close {w v : Written} {us us' : List Token}
    (h : w.tokens "" ++ ofMark "" ')' :: us = v.tokens "" ++ ofMark "" ')' :: us') :
    w.tokens "" = v.tokens "" := by
  have hinside := congrArg (inside 0) h
  have hend : ∀ us, inside 0 (ofMark "" ')' :: us) = [] := fun _ => rfl
  simpa [inside_tokens, hend] using hinside

end Written

/-! ### The size of an expression -/

/-- Whether the token is a name, a marker or the absent value. -/
def Token.standsForValue (t : Token) : Bool :=
  match t.lexeme with
  | .quoted _ | .marker _ => true
  | _ => t.isWord "NULL"

/-- The number of names, markers and literals of a tree of operators. -/
def Phrase.size : Phrase → Nat
  | .unary _ x => x.size
  | .binary l _ r => l.size + r.size
  | .column (some _) _ => 2
  | _ => 1

namespace Written

/-- The number of names, markers and absent values. -/
def size : Written → Nat
  | null | marker | column none _ => 1
  | column (some _) _ => 2
  | enclosed x | unary _ x => x.size
  | binary l _ r => l.size + r.size

theorem size_pos (w : Written) : 0 < w.size := by
  induction w with
  | null | marker => exact Nat.one_pos
  | column qualifier name => cases qualifier <;> simp [size]
  | enclosed x ih => exact ih
  | unary op x ih => exact ih
  | binary l op r ihl ihr => exact Nat.add_pos_left ihl _

/-- The tree of an expression determines the size. -/
theorem size_phrase (n : Nat) (w : Written) : (w.phrase n).size = w.size := by
  induction w generalizing n with
  | null | marker => rfl
  | column qualifier name => cases qualifier <;> rfl
  | enclosed x ih => exact ih n
  | unary op x ih => exact ih n
  | binary l op r ihl ihr => simp only [phrase, Phrase.size, size, ihl, ihr]

/-- And so do its tokens. -/
theorem countP_tokens (gap : String) (w : Written) :
    (w.tokens gap).countP standsForValue = w.size := by
  induction w generalizing gap with
  | null | marker => rfl
  | column qualifier name => cases qualifier <;> rfl
  | enclosed x ih =>
    have hmark : ∀ gap c, standsForValue (ofMark gap c) = false := fun _ _ => rfl
    simp [tokens, hmark, ih, size]
  | unary op x ih =>
    cases op with
    | negate => exact ih ""
    | not => exact ih " "
  | binary l op r ihl ihr =>
    have hop : op.tokens.countP standsForValue = 0 := by cases op <;> rfl
    simp [tokens, hop, ihl, ihr, size]

/-- Whether an expression begins with a parenthesis. -/
def opens : Written → Bool
  | enclosed _ => true
  | binary l _ _ => l.opens
  | _ => false

theorem isSymbol_tokens (gap : String) (w : Written) :
    ∀ t ∈ (w.tokens gap).head?, t.isSymbol "(" = w.opens := by
  induction w with
  | null | marker | enclosed => rintro t ⟨⟩; rfl
  | column qualifier name => cases qualifier <;> rintro t ⟨⟩ <;> rfl
  | unary op x => cases op <;> rintro t ⟨⟩ <;> rfl
  | binary l op r ihl =>
    obtain ⟨t, ts, htokens, -⟩ := l.exists_tokens gap
    intro t' ht'
    exact ihl t' (by simpa [tokens, htokens] using ht')

/-- The tokens of an expression show whether it begins with a parenthesis. -/
theorem opens_eq {w v : Written} {gap : String} {us us' : List Token}
    (h : w.tokens gap ++ us = v.tokens gap ++ us') : w.opens = v.opens := by
  obtain ⟨t, ts, hw, -⟩ := w.exists_tokens gap
  obtain ⟨t', ts', hv, -⟩ := v.exists_tokens gap
  obtain ⟨rfl, -⟩ := by simpa [hw, hv] using h
  rw [← w.isSymbol_tokens gap t (by simp [hw]), ← v.isSymbol_tokens gap t (by simp [hv])]

/-- An expression that begins with a parenthesis has one that stands in parentheses in it. -/
theorem exists_enclosed {w : Written} {gap : String} {us ts : List Token} (hw : w.opens = true)
    (h : w.tokens gap ++ us = ofMark gap '(' :: ts) :
    ∃ (x : Written) (rest : List Token),
      ts = x.tokens "" ++ ofMark "" ')' :: rest ∧ x.size ≤ w.size := by
  induction w generalizing us with
  | enclosed x =>
    simp only [tokens, List.cons_append, List.append_assoc, List.cons.injEq, true_and] at h
    exact ⟨x, us, h.symm, Nat.le_refl _⟩
  | binary l op r ihl =>
    rw [tokens, List.append_assoc] at h
    obtain ⟨x, rest, hts, hsize⟩ := ihl hw h
    exact ⟨x, rest, hts, Nat.le_add_right_of_le hsize⟩
  | _ => simp [opens] at hw

/-- An operation is not also another expression in parentheses: its left operand is smaller. -/
theorem not_enclosed {l r y : Written} {op : Operator} {gap : String} {us us' : List Token} {n : Nat}
    (htokens : (binary l op r).tokens gap ++ us = (enclosed y).tokens gap ++ us')
    (hphrase : (binary l op r).phrase n = (enclosed y).phrase n) : False := by
  have hopens : l.opens = true := opens_eq htokens
  simp only [tokens, List.append_assoc, List.cons_append] at htokens
  obtain ⟨x, rest, hts, hsize⟩ := exists_enclosed hopens htokens
  have hsame : y.size = x.size := by
    rw [← countP_tokens "" y, ← countP_tokens "" x, tokens_eq_of_close hts]
  have htree := congrArg Phrase.size hphrase
  simp only [size_phrase, size] at htree
  have hpos := r.size_pos
  omega

/-- **An expression is determined by its tokens and its tree.** -/
theorem eq_of_tokens_of_phrase {w v : Written} {gap : String} {us us' : List Token} {n : Nat}
    (htokens : w.tokens gap ++ us = v.tokens gap ++ us') (hphrase : w.phrase n = v.phrase n) :
    w = v ∧ us = us' := by
  have hopens := opens_eq htokens
  induction w generalizing v gap us us' n with
  | null =>
    cases v with
    | null => exact ⟨rfl, List.append_cancel_left htokens⟩
    | enclosed y => simp [opens] at hopens
    | column qualifier name => cases qualifier <;> simp [phrase] at hphrase
    | _ => simp [phrase] at hphrase
  | marker =>
    cases v with
    | marker => exact ⟨rfl, List.append_cancel_left htokens⟩
    | enclosed y => simp [opens] at hopens
    | column qualifier name => cases qualifier <;> simp [phrase] at hphrase
    | _ => simp [phrase] at hphrase
  | column qualifier name =>
    cases v with
    | column qualifier' name' =>
      obtain ⟨rfl, rfl⟩ : qualifier = qualifier' ∧ name = name' := by
        cases qualifier <;> cases qualifier' <;> simp_all [phrase]
      exact ⟨rfl, List.append_cancel_left htokens⟩
    | enclosed y => simp [opens] at hopens
    | _ => cases qualifier <;> simp [phrase] at hphrase
  | enclosed x ih =>
    cases v with
    | enclosed y =>
      simp only [tokens, List.cons_append, List.append_assoc, List.cons.injEq, true_and] at htokens
      obtain ⟨rfl, hus⟩ := ih htokens hphrase (opens_eq htokens)
      exact ⟨rfl, (List.cons.inj hus).2⟩
    | binary l op r => exact (not_enclosed htokens.symm hphrase.symm).elim
    | _ => simp [opens] at hopens
  | unary op x ih =>
    cases v with
    | unary op' y =>
      obtain ⟨rfl, hy⟩ := by simpa only [phrase, Phrase.unary.injEq] using hphrase
      cases op <;>
        obtain ⟨rfl, hus⟩ := ih (List.cons.inj htokens).2 hy (opens_eq (List.cons.inj htokens).2) <;>
        exact ⟨rfl, hus⟩
    | enclosed y => simp [opens] at hopens
    | column qualifier name => cases qualifier <;> simp [phrase] at hphrase
    | _ => simp [phrase] at hphrase
  | binary l op r ihl ihr =>
    cases v with
    | enclosed y => exact (not_enclosed htokens hphrase).elim
    | binary l' op' r' =>
      obtain ⟨hl, rfl, hr⟩ := by simpa only [phrase, Phrase.binary.injEq] using hphrase
      simp only [tokens, List.append_assoc] at htokens
      obtain ⟨rfl, hrest⟩ := ihl htokens hl (opens_eq htokens)
      have hright := List.append_cancel_left hrest
      obtain ⟨rfl, hus⟩ := ihr hright hr (opens_eq hright)
      exact ⟨rfl, hus⟩
    | column qualifier name => cases qualifier <;> simp [phrase] at hphrase
    | _ => simp [phrase] at hphrase

/-- **The reader finds the tree of an expression exactly if the expression fits.** -/
theorem phrase_regrouped_iff {w : Written} (htight : w.Tight) (n : Nat) :
    w.regrouped.phrase n = w.phrase n ↔ w.fits = true := by
  constructor
  · intro h
    have htokens : w.regrouped.tokens "" ++ [] = w.tokens "" ++ [] := by rw [tokens_regrouped]
    obtain ⟨heq, -⟩ := eq_of_tokens_of_phrase htokens h
    rw [← heq]
    exact fits_regrouped htight
  · intro h
    rw [regrouped_of_fits h]

end Written

end EntitySql
