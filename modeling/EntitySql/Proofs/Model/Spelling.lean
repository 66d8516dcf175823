import EntitySql.Model.ColumnType
import Mathlib.Data.List.Basic

/-!
# Types by their spelling

The spelling of a type is a path, a name and generic arguments, written with any blanks between
its tokens. The reading takes the blanks out first, so it cannot depend on them; what is left is
searched for a `<`, for the last double colon before it, and for one of three openings of an
optional type.

A path in front of a type is therefore ignored as long as the type is not optional. In front of an
optional type three paths are ignored: the empty one, `std::option` and `core::option`. Behind any
other, also behind one of these three that begins with a double colon, the type is read as a
required one that has `Option<..>` as its name.

## Main definitions

* `Spelling.Spaced`: a text with the given tokens and any blanks between them
* `Spelling.Path`, `Spelling.Named`: the two parts of a spelling, with their tokens

## Main results

* `Spelling.compact_eq_of_spaced`: blanks between tokens do not matter
* `Spelling.ofPlain_qualified`: a path in front of a required type does not matter
* `Spelling.insideOption?_qualified_iff`: which spellings are read as optional
* `Spelling.ofSpelling_qualified_iff`: which paths do not matter
-/

namespace EntitySql.Spelling

open ColumnType

/-! ### Blanks between tokens -/

/-- The characters of a text that are not blank. -/
def compact (text : List Char) : List Char := text.filter fun c => !Text.isBlank c

/-- The text consists of the tokens in order, with blanks before, between and behind them. -/
inductive Spaced : List (List Char) → List Char → Prop
  | finish {gap : List Char} (hgap : ∀ c ∈ gap, Text.isBlank c = true) : Spaced [] gap
  | next {gap token rest : List Char} {tokens : List (List Char)}
      (hgap : ∀ c ∈ gap, Text.isBlank c = true) (hrest : Spaced tokens rest) :
      Spaced (token :: tokens) (gap ++ token ++ rest)

@[simp] theorem compact_append (a b : List Char) : compact (a ++ b) = compact a ++ compact b :=
  List.filter_append ..

theorem compact_of_blank {gap : List Char} (h : ∀ c ∈ gap, Text.isBlank c = true) :
    compact gap = [] := by
  simpa [compact] using h

theorem compact_of_not_blank {cs : List Char} (h : ∀ c ∈ cs, Text.isBlank c = false) :
    compact cs = cs := by
  simpa [compact, List.filter_eq_self] using h

/-- Without its blanks a text has the characters of its tokens. -/
theorem compact_eq_of_spaced {tokens : List (List Char)} {text : List Char}
    (h : Spaced tokens text) : compact text = compact tokens.flatten := by
  induction h with
  | finish hgap => rw [compact_of_blank hgap]; rfl
  | next hgap _ ih =>
    rw [compact_append, compact_append, compact_of_blank hgap, List.nil_append, ih,
      List.flatten_cons, compact_append]

/-- A spelling is read off its characters that are not blank. -/
theorem ofSpelling_ofList (text : List Char) :
    ofSpelling (String.ofList text) =
      match insideOption? (compact text) with
      | some inner => ⟨ofPlain inner, true⟩
      | none => ⟨ofPlain (compact text), false⟩ := by
  rw [ofSpelling, String.toList_ofList]
  rfl

/-! ### Paths, names and arguments -/

/-- Whether a character can be part of a name: it is neither blank nor one of the signs that take
a spelling apart. -/
def isNamePart (c : Char) : Bool :=
  !Text.isBlank c && c != ':' && c != '<' && c != '>' && c != '&'

/-- A name. -/
structure Name where
  chars : List Char
  ne_nil : chars ≠ []
  isNamePart_of_mem : ∀ c ∈ chars, isNamePart c = true

/-- A module path: names with a double colon behind each, and perhaps one in front. -/
structure Path where
  /-- Whether the path begins with a double colon. -/
  rooted : Bool
  modules : List Name

/-- The generic arguments of a type. -/
inductive Arguments where
  | none
  /-- Arguments between angle brackets, perhaps with a double colon in front of the brackets. -/
  | given (withColons : Bool) (inner : List (List Char))

/-- A type by its name and its generic arguments. -/
structure Named where
  name : Name
  arguments : Arguments

def colons : List Char := [':', ':']

def Path.tokens (path : Path) : List (List Char) :=
  (if path.rooted then [colons] else []) ++ path.modules.flatMap fun m => [m.chars, colons]

def Arguments.tokens : Arguments → List (List Char)
  | none => []
  | given withColons inner => (if withColons then [colons] else []) ++ ['<'] :: (inner ++ [['>']])

def Named.tokens (type : Named) : List (List Char) := type.name.chars :: type.arguments.tokens

/-- The tokens of the optional type of what the given tokens spell. -/
def optionTokens (inner : List (List Char)) : List (List Char) :=
  "Option".toList :: ['<'] :: (inner ++ [['>']])

/-- The type is `Option<..>`. -/
def Named.IsOption (type : Named) : Prop :=
  type.name.chars = "Option".toList ∧ ∃ inner, type.arguments = .given false inner

/-- The path is empty or one of the two full paths of the optional type, without a double colon in
front. -/
def Path.IsOfOption (path : Path) : Prop :=
  path.rooted = false ∧ path.modules.map Name.chars ∈
    [[], ["std".toList, "option".toList], ["core".toList, "option".toList]]

/-! ### The characters of a spelling -/

/-- The characters of the path. -/
def Path.chars (path : Path) : List Char := path.tokens.flatten

/-- The characters up to the angle bracket, without the path. -/
def Named.head (type : Named) : List Char :=
  type.name.chars ++ match type.arguments with
    | .given true _ => colons
    | _ => []

/-- The characters from the angle bracket on. -/
def Named.generics (type : Named) : List Char :=
  match type.arguments with
  | .none => []
  | .given _ inner => '<' :: (compact inner.flatten ++ ['>'])

section Parts

variable {c : Char}

theorem not_blank_of_isNamePart (h : isNamePart c = true) : Text.isBlank c = false := by
  simp only [isNamePart, Bool.and_eq_true, Bool.not_eq_true'] at h
  exact h.1.1.1.1

theorem ne_of_isNamePart (h : isNamePart c = true) : c ≠ ':' ∧ c ≠ '<' ∧ c ≠ '&' := by
  simp only [isNamePart, Bool.and_eq_true, bne_iff_ne] at h
  exact ⟨h.1.1.1.2, h.1.1.2, h.2⟩

end Parts

theorem Path.chars_eq (path : Path) :
    path.chars =
      (if path.rooted then colons else []) ++ path.modules.flatMap fun m => m.chars ++ colons := by
  rw [Path.chars, Path.tokens, List.flatten_append]
  congr 1
  · split <;> rfl
  · induction path.modules with
    | nil => rfl
    | cons m modules ih => simp [ih]

/-- A path has name characters and colons only. -/
theorem Path.mem_chars {path : Path} {c : Char} (h : c ∈ path.chars) :
    isNamePart c = true ∨ c = ':' := by
  rw [path.chars_eq, List.mem_append, List.mem_flatMap] at h
  rcases h with h | ⟨m, -, h⟩
  · split at h
    · exact .inr (by simpa [colons] using h)
    · cases h
  · rcases List.mem_append.mp h with h | h
    · exact .inl (m.isNamePart_of_mem c h)
    · exact .inr (by simpa [colons] using h)

/-- So has the head of a type. -/
theorem Named.mem_head {type : Named} {c : Char} (h : c ∈ type.head) :
    isNamePart c = true ∨ c = ':' := by
  rcases List.mem_append.mp h with h | h
  · exact .inl (type.name.isNamePart_of_mem c h)
  · split at h
    · exact .inr (by simpa [colons] using h)
    · cases h

theorem Path.compact_chars (path : Path) : compact path.chars = path.chars := by
  apply compact_of_not_blank
  intro c hc
  rcases path.mem_chars hc with h | rfl
  · exact not_blank_of_isNamePart h
  · rfl

theorem Named.compact_tokens (type : Named) :
    compact type.tokens.flatten = type.head ++ type.generics := by
  have hname : compact type.name.chars = type.name.chars :=
    compact_of_not_blank fun c hc => not_blank_of_isNamePart (type.name.isNamePart_of_mem c hc)
  rw [Named.tokens, List.flatten_cons, compact_append, hname, Named.head, Named.generics]
  have hopen : Text.isBlank '<' = false := by decide
  have hclose : Text.isBlank '>' = false := by decide
  have hcolon : Text.isBlank ':' = false := by decide
  rcases type.arguments with _ | ⟨_ | _, inner⟩
  · simp [Arguments.tokens, compact]
  · simp [Arguments.tokens, compact, hopen, hclose]
  · simp [Arguments.tokens, compact, colons, hopen, hclose, hcolon]

/-- A spelling without its blanks. -/
theorem compact_qualified (path : Path) (type : Named) :
    compact (path.tokens ++ type.tokens).flatten = path.chars ++ (type.head ++ type.generics) := by
  rw [List.flatten_append, compact_append, type.compact_tokens]
  exact congrArg (· ++ _) path.compact_chars

/-! ### Paths in front of required types -/

theorem afterLastPath?_append {segment : List Char} (h : segment.head? ≠ some ':')
    (front : List Char) :
    afterLastPath? (front ++ (colons ++ segment)) = some (lastSegment segment) := by
  induction front with
  | nil =>
    have hone : afterLastPath? (':' :: segment) = afterLastPath? segment := by
      cases segment with
      | nil => rfl
      | cons c rest =>
        have hc : c ≠ ':' := fun hc => h (congrArg some hc)
        rw [afterLastPath?]
        · exact Option.or_none
        · rintro tail - heq
          exact hc (List.cons.inj heq).1
    change ((afterLastPath? (':' :: segment)).or (some segment)) = _
    rw [hone, lastSegment]
    cases afterLastPath? segment <;> rfl
  | cons c front ih =>
    change ((afterLastPath? (front ++ (colons ++ segment))).or _) = _
    rw [ih]
    rfl

/-- What stands before a double colon does not matter for the last segment. -/
theorem lastSegment_append {segment : List Char} (h : segment.head? ≠ some ':')
    (front : List Char) : lastSegment (front ++ (colons ++ segment)) = lastSegment segment := by
  rw [lastSegment, afterLastPath?_append h front, Option.getD_some]

theorem Path.chars_cases (path : Path) :
    path.chars = [] ∨ ∃ front, path.chars = front ++ colons := by
  rw [path.chars_eq]
  rcases List.eq_nil_or_concat path.modules with hnil | ⟨modules, m, hmodules⟩
  · rw [hnil]
    cases path.rooted with
    | false => exact .inl rfl
    | true => exact .inr ⟨[], rfl⟩
  · rw [hmodules]
    refine .inr ⟨(if path.rooted then colons else []) ++
      (modules.flatMap fun m => m.chars ++ colons) ++ m.chars, ?_⟩
    simp

/-- The head of a type begins with a character of a name. -/
theorem Named.head_cases (type : Named) :
    ∃ c rest, type.head = c :: rest ∧ isNamePart c = true := by
  obtain ⟨c, rest, hname⟩ := List.exists_cons_of_ne_nil type.name.ne_nil
  have hc : isNamePart c = true :=
    type.name.isNamePart_of_mem c (hname ▸ List.mem_cons_self)
  rw [Named.head, hname, List.cons_append]
  exact ⟨c, _, rfl, hc⟩

theorem lastSegment_qualified (path : Path) (type : Named) :
    lastSegment (path.chars ++ type.head) = lastSegment type.head := by
  obtain ⟨c, rest, hhead, hc⟩ := type.head_cases
  have hsegment : type.head.head? ≠ some ':' := by
    rw [hhead]
    exact fun h => (ne_of_isNamePart hc).1 (Option.some.inj h)
  rcases path.chars_cases with hnil | ⟨front, hfront⟩
  · rw [hnil, List.nil_append]
  · rw [hfront, List.append_assoc, lastSegment_append hsegment]

section Generics

variable (path : Path) (type : Named)

theorem ne_angle_of_mem {c : Char} (h : c ∈ path.chars ++ type.head) : (c != '<') = true := by
  have hpart : isNamePart c = true ∨ c = ':' :=
    (List.mem_append.mp h).elim Path.mem_chars Named.mem_head
  rcases hpart with hpart | rfl
  · exact bne_iff_ne.mpr (ne_of_isNamePart hpart).2.1
  · decide

/-- The first angle bracket of a spelling opens the arguments of the type. -/
theorem takeWhile_qualified :
    (path.chars ++ (type.head ++ type.generics)).takeWhile (· != '<') =
      path.chars ++ type.head := by
  rw [← List.append_assoc, List.takeWhile_append_of_pos fun c => ne_angle_of_mem path type]
  rw [Named.generics]
  split <;> simp

theorem dropWhile_qualified :
    (path.chars ++ (type.head ++ type.generics)).dropWhile (· != '<') = type.generics := by
  rw [← List.append_assoc, List.dropWhile_append_of_pos fun c => ne_angle_of_mem path type]
  rw [Named.generics]
  split <;> simp

theorem head?_qualified : (path.chars ++ (type.head ++ type.generics)).head? ≠ some '&' := by
  obtain ⟨c, rest, hhead, -⟩ := type.head_cases
  intro h
  have hmem : '&' ∈ path.chars ++ type.head := by
    rw [hhead] at h ⊢
    cases hpath : path.chars with
    | nil => simp_all
    | cons d chars => simp_all
  rcases (List.mem_append.mp hmem).elim Path.mem_chars Named.mem_head with hpart | hcolon
  · exact (ne_of_isNamePart hpart).2.2 rfl
  · exact absurd hcolon (by decide)

/-- The type that is read, told by the last segment and the arguments alone. -/
theorem ofPlain_eq :
    ofPlain (path.chars ++ (type.head ++ type.generics)) =
      let base := String.ofList (lastSegment type.head)
      let generics := String.ofList type.generics
      if generics = "" then (ofBase base).getD (custom (base ++ generics))
      else if base = "DateTime" then dateTime
      else if base = "Vec" ∧ generics = "<u8>" then bytes
      else custom (base ++ generics) := by
  rw [ofPlain, if_neg (head?_qualified path type), takeWhile_qualified, dropWhile_qualified,
    lastSegment_qualified]

end Generics

/-- The empty path. -/
def Path.empty : Path := ⟨false, []⟩

/-- **A path in front of a type that is read as required does not matter.** -/
theorem ofPlain_qualified (path : Path) (type : Named) :
    ofPlain (path.chars ++ (type.head ++ type.generics)) = ofPlain (type.head ++ type.generics) :=
  (ofPlain_eq path type).trans (ofPlain_eq .empty type).symm

/-! ### Paths in front of optional types -/

/-- A spelling is read as optional if it is one of three openings, anything, and a closing
bracket. -/
theorem insideOption?_eq_some_iff {cs inner : List Char} :
    insideOption? cs = some inner ↔
      ∃ opening ∈ optionOpenings, cs = opening ++ (inner ++ ['>']) := by
  constructor
  · intro h
    obtain ⟨found, hfound, h⟩ := Option.bind_eq_some_iff.mp h
    obtain ⟨opening, hmem, hopening⟩ := List.exists_of_findSome?_eq_some hfound
    split at h
    · rename_i hlast
      obtain ⟨front, rfl⟩ := List.getLast?_eq_some_iff.mp hlast
      obtain rfl : front = inner := by simpa using h
      exact ⟨opening, hmem, (List.isPrefixOf?_eq_some_iff_append_eq.mp hopening).symm⟩
    · cases h
  · rintro ⟨opening, hmem, rfl⟩
    have hfound : optionOpenings.findSome? (fun o => o.isPrefixOf? (opening ++ (inner ++ ['>']))) =
        some (inner ++ ['>']) := by
      simp only [optionOpenings, List.mem_cons, List.not_mem_nil, or_false] at hmem
      rcases hmem with rfl | rfl | rfl <;> rfl
    rw [insideOption?, hfound]
    simp

/-- The pieces between the colons of a path. -/
def Path.pieces (path : Path) : List (List Char) :=
  (if path.rooted then [[], []] else []) ++ path.modules.flatMap fun m => [m.chars, []]

/-- The pieces between the colons of the head of a type. -/
def Named.pieces (type : Named) : List (List Char) :=
  type.name.chars :: match type.arguments with
    | .given true _ => [[], []]
    | _ => []

theorem Name.ne_colon (name : Name) : ∀ c ∈ name.chars, (c == ':') = false := fun c hc =>
  beq_eq_false_iff_ne.mpr (ne_of_isNamePart (name.isNamePart_of_mem c hc)).1

theorem splitOnP_colons (text : List Char) :
    (colons ++ text).splitOnP (· == ':') = [] :: [] :: text.splitOnP (· == ':') := by
  change (([] : List Char) ++ ':' :: ([] ++ ':' :: text)).splitOnP (· == ':') = _
  rw [List.splitOnP_append_cons_of_forall_mem (by simp) ':' (by decide),
    List.splitOnP_append_cons_of_forall_mem (by simp) ':' (by decide)]

theorem Name.splitOnP_append_colons (name : Name) (text : List Char) :
    (name.chars ++ (colons ++ text)).splitOnP (· == ':') =
      name.chars :: [] :: text.splitOnP (· == ':') := by
  change (name.chars ++ ':' :: ([] ++ ':' :: text)).splitOnP (· == ':') = _
  rw [List.splitOnP_append_cons_of_forall_mem name.ne_colon ':' (by decide),
    List.splitOnP_append_cons_of_forall_mem (by simp) ':' (by decide)]

theorem Named.splitOnP_head (type : Named) : type.head.splitOnP (· == ':') = type.pieces := by
  have hplain : type.name.chars.splitOnP (· == ':') = [type.name.chars] :=
    List.splitOnP_eq_singleton type.name.ne_colon
  rw [Named.head, Named.pieces]
  rcases type.arguments with _ | ⟨_ | _, inner⟩
  · rw [List.append_nil, hplain]
  · rw [List.append_nil, hplain]
  · have h := type.name.splitOnP_append_colons []
    rwa [List.append_nil] at h

theorem splitOnP_modules (modules : List Name) (text : List Char) :
    ((modules.flatMap fun m => m.chars ++ colons) ++ text).splitOnP (· == ':') =
      (modules.flatMap fun m => [m.chars, []]) ++ text.splitOnP (· == ':') := by
  induction modules with
  | nil => rfl
  | cons m modules ih =>
    rw [List.flatMap_cons, List.append_assoc, List.append_assoc, m.splitOnP_append_colons, ih]
    rfl

theorem splitOnP_qualified (path : Path) (type : Named) :
    (path.chars ++ type.head).splitOnP (· == ':') = path.pieces ++ type.pieces := by
  rw [path.chars_eq, Path.pieces]
  cases path.rooted with
  | false =>
    change ((path.modules.flatMap fun m => m.chars ++ colons) ++ type.head).splitOnP _ = _
    rw [splitOnP_modules, type.splitOnP_head]
    rfl
  | true =>
    change (colons ++ (path.modules.flatMap fun m => m.chars ++ colons) ++ type.head).splitOnP _ = _
    rw [List.append_assoc, splitOnP_colons, splitOnP_modules, type.splitOnP_head]
    rfl

/-- The pieces tell the names. Behind the last module there is a name, so the two empty pieces of
the double colon in front of arguments cannot be taken for a module's. -/
theorem names_of_pieces {modules : List Name} {type : Named} {names : List (List Char)}
    {last : List Char} (hlast : last ≠ [])
    (h : (modules.flatMap fun m => [m.chars, []]) ++ type.pieces =
      (names.flatMap fun n => [n, []]) ++ [last]) :
    modules.map Name.chars = names ∧ type.pieces = [last] := by
  induction modules generalizing names with
  | nil =>
    cases names with
    | nil => exact ⟨rfl, h⟩
    | cons n names =>
      have htail := (List.cons.inj h).2
      split at htail
      · -- the two pieces would be an empty name and an empty `last`
        have hrest : [[]] = (names.flatMap fun n => [n, []]) ++ [last] := (List.cons.inj htail).2
        cases names with
        | nil => exact absurd (List.cons.inj hrest).1.symm hlast
        | cons _ _ => cases hrest
      · cases htail
  | cons m modules ih =>
    cases names with
    | nil => cases h
    | cons n names =>
      obtain ⟨hm, hrest⟩ := List.cons.inj h
      obtain ⟨hmodules, hpieces⟩ := ih (List.cons.inj hrest).2
      exact ⟨List.cons_eq_cons.mpr ⟨hm, hmodules⟩, hpieces⟩

theorem Path.names_of_pieces {path path' : Path} {type : Named} {last : List Char}
    (hunrooted : path'.rooted = false) (hlast : last ≠ [])
    (h : path.pieces ++ type.pieces = path'.pieces ++ [last]) :
    path.rooted = false ∧ path.modules.map Name.chars = path'.modules.map Name.chars ∧
      type.pieces = [last] := by
  have hpieces : path'.pieces = (path'.modules.map Name.chars).flatMap fun n => [n, []] := by
    rw [Path.pieces, hunrooted, List.flatMap_map]
    rfl
  rw [hpieces, Path.pieces] at h
  cases hrooted : path.rooted with
  | false =>
    rw [hrooted] at h
    exact ⟨rfl, Spelling.names_of_pieces hlast h⟩
  | true =>
    -- a double colon in front would be an empty first piece
    rw [hrooted] at h
    cases hmodules : path'.modules with
    | nil =>
      rw [hmodules] at h
      exact absurd (List.cons.inj h).1.symm hlast
    | cons m modules =>
      rw [hmodules] at h
      exact absurd (List.cons.inj h).1.symm m.ne_nil

def optionName : Name := ⟨"Option".toList, by decide, List.all_eq_true.mp rfl⟩

/-- The openings of optional types are the paths of the optional type with its name and a
bracket. -/
theorem exists_of_mem_optionOpenings {opening : List Char} (h : opening ∈ optionOpenings) :
    ∃ path : Path, path.IsOfOption ∧ opening = path.chars ++ (optionName.chars ++ ['<']) := by
  let module : Name := ⟨"option".toList, by decide, List.all_eq_true.mp rfl⟩
  let std : Name := ⟨"std".toList, by decide, List.all_eq_true.mp rfl⟩
  let core : Name := ⟨"core".toList, by decide, List.all_eq_true.mp rfl⟩
  simp only [optionOpenings, List.mem_cons, List.not_mem_nil, or_false] at h
  rcases h with rfl | rfl | rfl
  · exact ⟨.empty, ⟨rfl, by simp [Path.empty]⟩, rfl⟩
  · exact ⟨⟨false, [std, module]⟩, ⟨rfl, by simp [std, module]⟩, rfl⟩
  · exact ⟨⟨false, [core, module]⟩, ⟨rfl, by simp [core, module]⟩, rfl⟩

theorem Path.IsOfOption.mem_optionOpenings {path : Path} (h : path.IsOfOption) :
    path.chars ++ (optionName.chars ++ ['<']) ∈ optionOpenings := by
  obtain ⟨hrooted, hnames⟩ := h
  have hchars : path.chars = (path.modules.map Name.chars).flatMap fun n => n ++ colons := by
    rw [path.chars_eq, hrooted, List.flatMap_map]
    rfl
  rw [hchars]
  simp only [List.mem_cons, List.not_mem_nil, or_false] at hnames
  rcases hnames with hnames | hnames | hnames <;> rw [hnames]
  · exact .head _
  · exact .tail _ (.head _)
  · exact .tail _ (.tail _ (.head _))

theorem Named.isOption_iff (type : Named) :
    type.IsOption ↔ type.pieces = [optionName.chars] ∧ type.generics ≠ [] := by
  rw [Named.IsOption, Named.pieces, Named.generics]
  rcases type.arguments with _ | ⟨_ | _, inner⟩
  · simp
  · simp [optionName]
  · simp

/-- **A spelling is read as optional** exactly if its type is `Option<..>` and its path is one of
the three that the optional type is known by; then what is inside the brackets is read. -/
theorem insideOption?_qualified_iff {path : Path} {type : Named} {inner : List Char} :
    insideOption? (path.chars ++ (type.head ++ type.generics)) = some inner ↔
      path.IsOfOption ∧ type.IsOption ∧ type.generics = '<' :: (inner ++ ['>']) := by
  rw [insideOption?_eq_some_iff]
  constructor
  · rintro ⟨opening, hmem, h⟩
    obtain ⟨path', hpath', rfl⟩ := exists_of_mem_optionOpenings hmem
    let bare : Named := ⟨optionName, .none⟩
    have hassoc : path'.chars ++ (optionName.chars ++ ['<']) ++ (inner ++ ['>']) =
        path'.chars ++ bare.head ++ '<' :: (inner ++ ['>']) := by
      simp [bare, Named.head]
    rw [hassoc] at h
    have hfront : path.chars ++ type.head = path'.chars ++ bare.head := by
      rw [← takeWhile_qualified path type, h,
        List.takeWhile_append_of_pos fun c => ne_angle_of_mem path' bare]
      simp
    have hgenerics : type.generics = '<' :: (inner ++ ['>']) := by
      rw [← dropWhile_qualified path type, h,
        List.dropWhile_append_of_pos fun c => ne_angle_of_mem path' bare]
      simp
    have hpieces : path.pieces ++ type.pieces = path'.pieces ++ [optionName.chars] := by
      rw [← splitOnP_qualified, hfront, splitOnP_qualified]
      rfl
    obtain ⟨hrooted, hnames, htype⟩ := Path.names_of_pieces hpath'.1 optionName.ne_nil hpieces
    have hoption : type.IsOption :=
      type.isOption_iff.mpr ⟨htype, by rw [hgenerics]; exact List.cons_ne_nil _ _⟩
    exact ⟨⟨hrooted, hnames ▸ hpath'.2⟩, hoption, hgenerics⟩
  · rintro ⟨hpath, ⟨hname, tokens, harguments⟩, hgenerics⟩
    refine ⟨_, hpath.mem_optionOpenings, ?_⟩
    have hhead : type.head = optionName.chars := by
      rw [Named.head, harguments, List.append_nil]
      exact hname
    rw [hhead, hgenerics]
    simp

/-! ### What a spelling is read as -/

section Reading

variable {path : Path} {type : Named} {plain qualified : List Char}

theorem compact_of_spaced_qualified (h : Spaced (path.tokens ++ type.tokens) qualified) :
    compact qualified = path.chars ++ (type.head ++ type.generics) := by
  rw [compact_eq_of_spaced h, compact_qualified]

theorem Spaced.of_empty_path (h : Spaced type.tokens plain) :
    Spaced (Path.empty.tokens ++ type.tokens) plain := h

/-- A type that is not optional, or has a path that the optional type is not known by, is read as
required. -/
theorem ofSpelling_required (h : Spaced (path.tokens ++ type.tokens) qualified)
    (hnot : ¬(path.IsOfOption ∧ type.IsOption)) :
    ofSpelling (String.ofList qualified) = ⟨ofPlain (type.head ++ type.generics), false⟩ := by
  have hnone : insideOption? (path.chars ++ (type.head ++ type.generics)) = none := by
    refine Option.eq_none_iff_forall_ne_some.mpr fun inner hinner => hnot ?_
    obtain ⟨hpath, htype, -⟩ := insideOption?_qualified_iff.mp hinner
    exact ⟨hpath, htype⟩
  rw [ofSpelling_ofList, compact_of_spaced_qualified h, hnone, ofPlain_qualified]

theorem Named.IsOption.exists_generics (h : type.IsOption) :
    ∃ inner, type.generics = '<' :: (inner ++ ['>']) := by
  obtain ⟨-, tokens, harguments⟩ := h
  exact ⟨compact tokens.flatten, by rw [Named.generics, harguments]⟩

/-- An optional type with a path that it is known by is read as its inside, not required. -/
theorem ofSpelling_optional {inner : List Char}
    (h : Spaced (path.tokens ++ type.tokens) qualified) (hpath : path.IsOfOption)
    (htype : type.IsOption) (hinner : type.generics = '<' :: (inner ++ ['>'])) :
    ofSpelling (String.ofList qualified) = ⟨ofPlain inner, true⟩ := by
  rw [ofSpelling_ofList, compact_of_spaced_qualified h,
    insideOption?_qualified_iff.mpr ⟨hpath, htype, hinner⟩]

theorem Path.isOfOption_empty : Path.empty.IsOfOption := ⟨rfl, by simp [Path.empty]⟩

/-- **Which paths do not matter.** A path in front of a type changes nothing if the type is not
optional, or the path is empty or the full path of the optional type; in front of an optional type
any other path changes what is read. -/
theorem ofSpelling_qualified_iff (hplain : Spaced type.tokens plain)
    (hqualified : Spaced (path.tokens ++ type.tokens) qualified) :
    ofSpelling (String.ofList qualified) = ofSpelling (String.ofList plain) ↔
      (type.IsOption → path.IsOfOption) := by
  by_cases htype : type.IsOption
  · obtain ⟨inner, hinner⟩ := htype.exists_generics
    rw [ofSpelling_optional hplain.of_empty_path Path.isOfOption_empty htype hinner]
    constructor
    · intro h _
      by_contra hpath
      rw [ofSpelling_required hqualified fun hboth => hpath hboth.1] at h
      exact Bool.false_ne_true (congrArg FieldType.nullable h)
    · intro hpath
      exact ofSpelling_optional hqualified (hpath htype) htype hinner
  · rw [ofSpelling_required hqualified fun hboth => htype hboth.2,
      ofSpelling_required hplain.of_empty_path fun hboth => htype hboth.2]
    simp [htype]

/-- Behind a path that it is not known by, the optional type is taken for a type of that name. -/
theorem ofSpelling_of_unknown_path (hqualified : Spaced (path.tokens ++ type.tokens) qualified)
    (htype : type.IsOption) (hpath : ¬path.IsOfOption) :
    ofSpelling (String.ofList qualified) =
      ⟨custom (String.ofList (compact type.tokens.flatten)), false⟩ := by
  rw [ofSpelling_required hqualified fun hboth => hpath hboth.1, type.compact_tokens]
  obtain ⟨inner, hinner⟩ := htype.exists_generics
  obtain ⟨hname, tokens, harguments⟩ := htype
  have hhead : type.head = "Option".toList := by
    rw [Named.head, harguments, List.append_nil, hname]
  have hnonempty : String.ofList ('<' :: (inner ++ ['>'])) ≠ "" := by
    intro h
    have := congrArg String.toList h
    rw [String.toList_ofList] at this
    cases this
  have hbase : String.ofList (lastSegment "Option".toList) = "Option" := by decide
  have h := ofPlain_eq .empty type
  rw [show Path.empty.chars = [] from rfl, List.nil_append] at h
  rw [h, hhead, hinner, hbase]
  simp only [hnonempty, if_false]
  rw [if_neg (by decide), if_neg fun h => absurd h.1 (by decide), String.ofList_append,
    String.ofList_toList]

/-- What is spelled is an optional type, behind some path. -/
def SpellsOption (tokens : List (List Char)) : Prop :=
  ∃ (path : Path) (type : Named), type.IsOption ∧
    compact tokens.flatten = compact (path.tokens ++ type.tokens).flatten

/-- What is read as optional is spelled as optional. -/
theorem insideOption?_eq_none {tokens : List (List Char)} (h : ¬SpellsOption tokens) :
    insideOption? (compact tokens.flatten) = none := by
  refine Option.eq_none_iff_forall_ne_some.mpr fun inner hinner => h ?_
  obtain ⟨opening, hmem, heq⟩ := insideOption?_eq_some_iff.mp hinner
  obtain ⟨path, -, rfl⟩ := exists_of_mem_optionOpenings hmem
  refine ⟨path, ⟨optionName, .given false [inner]⟩, ⟨rfl, [inner], rfl⟩, ?_⟩
  have htext : (path.tokens ++ Named.tokens ⟨optionName, .given false [inner]⟩).flatten =
      compact tokens.flatten := by
    rw [heq, List.flatten_append, Path.chars]
    simp [Named.tokens, Arguments.tokens]
  simp only [htext, compact, List.filter_filter, Bool.and_self]

/-- **The optional type of a type that is not optional** is read as that type, not required. -/
theorem ofSpelling_option {tokens : List (List Char)} {inside wrapped : List Char}
    (hinside : Spaced tokens inside) (hwrapped : Spaced (optionTokens tokens) wrapped)
    (hnot : ¬SpellsOption tokens) :
    ofSpelling (String.ofList wrapped) = ⟨(ofSpelling (String.ofList inside)).type, true⟩ := by
  let option : Named := ⟨optionName, .given false tokens⟩
  have hoption : Spaced (Path.empty.tokens ++ option.tokens) wrapped := hwrapped
  rw [ofSpelling_optional hoption Path.isOfOption_empty ⟨rfl, tokens, rfl⟩ rfl, ofSpelling_ofList,
    compact_eq_of_spaced hinside, insideOption?_eq_none hnot]

end Reading

/-- **What a spelling is read as.** Blanks between its tokens do not matter, and a path in front of
it does not matter unless the type is optional: in front of `Option<..>` only `std::option` and
`core::option` are ignored, and with any other path it is read as a required type of the name
`Option<..>`. The optional type of a type that is not optional is that type, not required. -/
theorem ofSpelling_of_spaced (path : Path) (type : Named) {plain qualified : List Char}
    (hplain : Spaced type.tokens plain) (hqualified : Spaced (path.tokens ++ type.tokens) qualified) :
    (ofSpelling (String.ofList qualified) = ofSpelling (String.ofList plain) ↔
      (type.IsOption → path.IsOfOption)) ∧
    (type.IsOption → ¬path.IsOfOption → ofSpelling (String.ofList qualified) =
      ⟨custom (String.ofList (compact type.tokens.flatten)), false⟩) ∧
    ∀ (tokens : List (List Char)) (inside wrapped : List Char), Spaced tokens inside →
      Spaced (optionTokens tokens) wrapped → ¬SpellsOption tokens →
        ofSpelling (String.ofList wrapped) =
          ⟨(ofSpelling (String.ofList inside)).type, true⟩ := by
  refine ⟨ofSpelling_qualified_iff hplain hqualified, ofSpelling_of_unknown_path hqualified, ?_⟩
  intro tokens inside wrapped hinside hwrapped hnot
  exact ofSpelling_option hinside hwrapped hnot

/-- `option::Option<i64>` is a required type named `Option<i64>`, while `Option < i64 >` is an
integer that may be absent. -/
theorem ofSpelling_of_spaced_option_path :
    ofSpelling "option::Option<i64>" = ⟨custom "Option<i64>", false⟩ ∧
    ofSpelling "option::Option<i64>" ≠ ofSpelling "Option < i64 >" ∧
    ofSpelling "Option < i64 >" = ⟨(ofSpelling "i64").type, true⟩ := by
  let path : Path := ⟨false, [⟨"option".toList, by decide, List.all_eq_true.mp rfl⟩]⟩
  let type : Named := ⟨optionName, .given false ["i64".toList]⟩
  have hgap : ∀ c ∈ [' '], Text.isBlank c = true := List.all_eq_true.mp rfl
  have hnone : ∀ c ∈ ([] : List Char), Text.isBlank c = true := List.all_eq_true.mp rfl
  have hplain : Spaced type.tokens "Option < i64 >".toList :=
    .next hnone (.next hgap (.next hgap (.next hgap (.finish hnone))))
  have hqualified : Spaced (path.tokens ++ type.tokens) "option::Option<i64>".toList :=
    .next hnone (.next hnone (.next hnone (.next hnone (.next hnone (.next hnone (.finish hnone))))))
  have htype : type.IsOption := ⟨rfl, _, rfl⟩
  have hpath : ¬path.IsOfOption := fun h => absurd h.2 (by decide)
  have hnot : ¬SpellsOption ["i64".toList] := by
    rintro ⟨path', type', ⟨-, tokens, harguments⟩, h⟩
    have hmem : '<' ∈ compact (path'.tokens ++ type'.tokens).flatten := by
      rw [compact_qualified, Named.generics, harguments]
      simp
    rw [← h] at hmem
    exact absurd hmem (by decide)
  obtain ⟨hiff, hcustom, hall⟩ := ofSpelling_of_spaced path type hplain hqualified
  have hoption := hall ["i64".toList] "i64".toList _ (.next hnone (.finish hnone)) hplain hnot
  simp only [String.ofList_toList] at hiff hcustom hoption
  exact ⟨hcustom htype hpath, fun h => hpath (hiff.mp h htype), hoption⟩

end EntitySql.Spelling
