import EntitySql.Catalog.ViewText
import EntitySql.Migration.Plan
import EntitySql.Sql.Shipped
import Mathlib.Data.List.DropRight

/-!
# Reading a view back

A view is created by a statement that names it and gives its body; a database keeps that statement,
and what is compared with the model is the body found in it. The name is arbitrary text between
quotes, so the scanner has to get past every `AS` and every quote in it, and the body is arbitrary
text too, so it must not be searched at all.

The scanner knows nothing of doubled quotes. It takes `"a""b"` for two quoted runs side by side,
which ends in the same place (`bodyFrom?_encode`): a quote inside the name closes one run and its
double opens the next.

Main statement: `unchanged_of_createView`.
-/

namespace EntitySql

namespace Text

/-! ## Trimmed texts -/

theorem trimRight_eq_rdropWhile (cs : List Char) : trimRight cs = cs.rdropWhile isBlank := rfl

/-- A trimmed text is trimmed on the right: its last character is not blank. -/
theorem trimRight_trimChars (cs : List Char) : trimRight (trimChars cs) = trimChars cs :=
  List.rdropWhile_idempotent _ _

/-- A trimmed text is trimmed on the left: cutting the right end of a text leaves its first
character, unless it leaves nothing. -/
theorem trimLeft_trimChars (cs : List Char) : trimLeft (trimChars cs) = trimChars cs := by
  refine (List.dropWhile_eq_self_iff).2 fun hpos => ?_
  have hfront : trimChars cs <+: trimLeft cs := List.rdropWhile_prefix _ _
  have hlong : 0 < (trimLeft cs).length := hpos.trans_le hfront.length_le
  rw [hfront.getElem hpos]
  exact List.dropWhile_get_zero_not _ _ hlong

/-- What follows something that does not end in a blank is trimmed by itself. -/
theorem trimRight_append {cs : List Char} (ds : List Char) (h : trimRight cs = cs) :
    trimRight (ds ++ cs) = if cs = [] then trimRight ds else ds ++ cs := by
  rw [trimRight_eq_rdropWhile] at h ⊢
  rcases cs.eq_nil_or_concat with rfl | ⟨front, last, rfl⟩
  · simp [trimRight_eq_rdropWhile]
  · have hlast : ¬ isBlank last = true := by
      simpa using List.rdropWhile_eq_self_iff.1 h (by simp)
    simp [← List.append_assoc, List.rdropWhile_concat_neg _ _ _ hlast]

theorem filter_dropWhile {p q : Char → Bool} (hpq : ∀ c, p c = true → q c = false)
    (cs : List Char) : (cs.dropWhile p).filter q = cs.filter q := by
  induction cs with
  | nil => rfl
  | cons c cs ih =>
    cases hc : p c with
    | true => simp [hc, ih, hpq c hc]
    | false => simp [hc]

/-- Trimming keeps every character of a kind that has no blanks. -/
theorem filter_trimChars {q : Char → Bool} (h : ∀ c, isBlank c = true → q c = false)
    (cs : List Char) : (trimChars cs).filter q = cs.filter q := by
  simp only [trimChars, trimRight, trimLeft, List.filter_reverse, filter_dropWhile h,
    List.reverse_reverse]

/-- The code points of the blanks. -/
def blankCodes : List Nat :=
  List.range' 0x09 5 ++ [0x20, 0x85, 0xA0, 0x1680] ++ List.range' 0x2000 11 ++
    [0x2028, 0x2029, 0x202F, 0x205F, 0x3000]

theorem mem_blankCodes {c : Char} (h : isBlank c = true) : c.toNat ∈ blankCodes := by
  simp only [isBlank, Bool.or_eq_true, Bool.and_eq_true, decide_eq_true_eq, beq_iff_eq] at h
  simp only [blankCodes, List.mem_append, List.mem_range'_1, List.mem_cons, List.not_mem_nil]
  omega

/-- No blank is a letter or a digit. -/
theorem isAlphanumeric_of_isBlank {c : Char} (h : isBlank c = true) : isAlphanumeric c = false := by
  have hall : ∀ n ∈ blankCodes, inside alphanumericBounds n = false := by decide +kernel
  exact hall _ (mem_blankCodes h)

end Text

namespace ViewText

/-! ## The scanner -/

/-- A quoted name is passed whole, whatever stands in it. -/
theorem bodyFrom?_encode {quote : Char} (hquote : closing? quote = some quote)
    (cs rest : List Char) :
    bodyFrom? (.quoted quote) (Text.Quoted.encode quote cs ++ quote :: rest) =
      bodyFrom? (.plain (some quote)) rest := by
  induction cs with
  | nil => simp [Text.Quoted.encode, bodyFrom?]
  | cons c cs ih =>
    by_cases hc : c = quote
    · simp [Text.Quoted.encode, hc, bodyFrom?, hquote, ih]
    · simp [Text.Quoted.encode, hc, bodyFrom?, ih]

/-- The statement that creates a view of the name, up to and with the word `AS`. -/
def creationHead (name : List Char) : List Char :=
  ['C', 'R', 'E', 'A', 'T', 'E', ' ', 'V', 'I', 'E', 'W', ' '] ++
    (Text.Quoted.encloseChars '"' '"' name ++ [' ', 'A', 'S'])

/-- The body is what follows the head, if that does not continue the word `AS`. -/
theorem bodyFrom?_creationHead (name : List Char) {rest : List Char}
    (h : (rest.head?.map Text.isWordChar).getD false = false) :
    bodyFrom? (.plain none) (creationHead name ++ rest) = some rest := by
  have hname : bodyFrom? (.plain none) (creationHead name ++ rest) =
      bodyFrom? (.quoted '"')
        (Text.Quoted.encode '"' name ++ '"' :: ([' ', 'A', 'S'] ++ rest)) := by
    simp [creationHead, Text.Quoted.encloseChars, bodyFrom?, closing?, afterAs?, Text.isWordChar]
  have hword : bodyFrom? (.plain (some '"')) ([' ', 'A', 'S'] ++ rest) = some rest := by
    simp [bodyFrom?, closing?, afterAs?, Text.isWordChar] at h ⊢
    simp [h]
  rw [hname, bodyFrom?_encode rfl, hword]

theorem beginsWithCreate_creationHead (name rest : List Char) :
    beginsWithCreate (creationHead name ++ rest) = true := by
  simp [creationHead, beginsWithCreate, Text.isKeyword]

theorem trimLeft_creationHead (name rest : List Char) :
    Text.trimLeft (creationHead name ++ rest) = creationHead name ++ rest := by
  simp [creationHead, Text.trimLeft, Text.isBlank]

/-- Behind the head nothing is trimmed but a body that is blank altogether. -/
theorem trimChars_creationHead (name : List Char) {cs : List Char} (h : Text.trimRight cs = cs) :
    Text.trimChars (creationHead name ++ ' ' :: cs) =
      creationHead name ++ if cs = [] then [] else ' ' :: cs := by
  have happend := Text.trimRight_append (creationHead name ++ [' ']) h
  rw [List.append_assoc, List.singleton_append] at happend
  rw [Text.trimChars, trimLeft_creationHead, happend]
  split
  · simp [creationHead, Text.trimRight, Text.isBlank]
  · rfl

theorem toList_createView {d : Dialect} (ho : d.openQuote = '"') (hc : d.closeQuote = '"')
    (name definition : String) :
    (d.createView name definition).toList =
      creationHead name.toList ++ ' ' :: Text.trimChars definition.toList := by
  simp [Dialect.createView, Dialect.quote, Text.Quoted.enclose, Text.trim, creationHead, ho, hc,
    toString]

/-- The body of the statement that creates a view is the body that was given, trimmed. Of a blank
one nothing is left, and then the trimmed statement ends in the word `AS`. -/
theorem body_createView {d : Dialect} (ho : d.openQuote = '"') (hc : d.closeQuote = '"')
    (name definition : String) : body (d.createView name definition) = Text.trim definition := by
  have hleft := Text.trimLeft_trimChars definition.toList
  have hright := Text.trimRight_trimChars definition.toList
  rw [body, toList_createView ho hc, Text.trim]
  generalize Text.trimChars definition.toList = cs at hleft hright
  rw [trimChars_creationHead _ hright, beginsWithCreate_creationHead, if_pos rfl]
  have hspace : Text.trimLeft (' ' :: cs) = cs :=
    (List.dropWhile_cons_of_pos (by decide)).trans hleft
  by_cases hblank : cs = []
  · rw [if_pos hblank, bodyFrom?_creationHead _ rfl, hblank]
    rfl
  · have hword : ((' ' :: cs).head?.map Text.isWordChar).getD false = false := by
      rw [List.head?_cons, Option.map_some, Option.getD_some]
      decide
    rw [if_neg hblank, bodyFrom?_creationHead _ hword]
    exact congrArg String.ofList hspace

/-- Two bodies that differ in blanks at their ends only are the same. -/
theorem fingerprint_trim (definition : String) :
    fingerprint (Text.trim definition) = fingerprint definition := by
  simp [fingerprint, Text.trim, Text.filter_trimChars fun _ => Text.isAlphanumeric_of_isBlank]

end ViewText

/-- Under every dialect that quotes names with double quotes, what is found in the statement that
creates a view is the body the view was given, trimmed, whatever its name and body. So the model
that the statement was planned for finds nothing to change in the view it created. -/
theorem unchanged_of_createView {d : Dialect} (ho : d.openQuote = '"') (hc : d.closeQuote = '"')
    (name definition : String) :
    (LiveView.ofStatement name (d.createView name definition)).definition =
        Text.trim definition ∧
      ∀ m : Model, m.name = name → m.storage = .view definition →
        (planView m none).statements d = [d.createView name definition] ∧
          planView m (some (LiveView.ofStatement name (d.createView name definition))) = .noOp := by
  have hbody := ViewText.body_createView ho hc name definition
  refine ⟨hbody, fun m hname hview => ⟨?_, ?_⟩⟩
  · simp [planView, hview, hname, Plan.statements, Plan.changes, Change.statements]
  · have hsame :
        sameDefinition (ViewText.body (d.createView name definition)) definition = true := by
      simp [sameDefinition, hbody, ViewText.fingerprint_trim]
    simp [planView, hview, LiveView.ofStatement, hsame]

/-- The name may hold quotes, blanks and the word `AS`, and the body may begin with it. -/
theorem unchanged_of_createView_sqlite :
    let m : Model := ⟨"\" AS \"\"x AS", .view "\n as \" AS ", [], [], []⟩
    let sql := Dialect.sqlite.createView "\" AS \"\"x AS" "\n as \" AS "
    Dialect.sqlite.openQuote = '"' ∧ Dialect.sqlite.closeQuote = '"' ∧
      m.name = "\" AS \"\"x AS" ∧ m.storage = .view "\n as \" AS " ∧
      (LiveView.ofStatement m.name sql).definition = Text.trim "\n as \" AS " ∧
      planView m (some (LiveView.ofStatement m.name sql)) = .noOp :=
  have hview := unchanged_of_createView (d := .sqlite) rfl rfl "\" AS \"\"x AS" "\n as \" AS "
  ⟨rfl, rfl, rfl, rfl, hview.1, (hview.2 _ rfl rfl).2⟩

end EntitySql
