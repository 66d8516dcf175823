import EntitySql.Database.Datum
import EntitySql.Proofs.Database.DefaultText
import EntitySql.Sql.Shipped
import Mathlib.Data.Nat.Bitwise
import Mathlib.Data.Nat.Log

/-!
# Values that are stored

A field of a plain type holds a truth value, an integer of at most 64 bits, a character, a text or
bytes. Its value is bound in a form that keeps it exact, and then the column converts it by its
affinity. A `Scalar` is such a value with its type, `Scalar.datum` what is stored for it, and
`Scalar.ofValue?` reads it back.

Truth values and integers are stored as integers, characters and texts as texts, and bytes as bytes,
each as it is. The exception are the unsigned integers above the signed range. They are bound as
decimal text, and the text is a number to the affinity of their column, so what is stored is the
nearest double: different integers are stored as one.

## Main definitions

* `Scalar`: a value of a plain type
* `Scalar.datum`: what the column of its type stores for it
* `Scalar.Exceeds`: an unsigned integer above the signed range
* `Scalar.ofValue?`: the value of a type that a value of the database stands for

## Main results

* `Double.integer?_nearest`: integers of 64 bits are rounded to integers of 64 bits or more
* `Scalar.store_value`: what is stored
* `Scalar.ofValue?_value`, `Scalar.ofValue?_datum`: values are read back as they are bound, and as
  they are stored if they do not exceed
* `Scalar.eq_of_toValue_eq`: no other value is stored in the same form
-/

namespace EntitySql

/-! ### Doubles next to long integers -/

namespace Double

/-- A quotient between two integers is rounded to one of them, or to one between them. -/
theorem roundHalfEven_bounds {num den low high : Nat} (hlow : low * den ≤ num)
    (hhigh : num < high * den) : low ≤ roundHalfEven num den ∧ roundHalfEven num den ≤ high := by
  have hden : 0 < den := by
    refine Nat.pos_of_ne_zero ?_
    rintro rfl
    simp at hhigh
  have hle : low ≤ num / den := (Nat.le_div_iff_mul_le hden).mpr hlow
  have hlt : num / den < high := (Nat.div_lt_iff_lt_mul hden).mpr hhigh
  rw [roundHalfEven]
  split
  · omega
  · split
    · omega
    · omega

/-- The last bit of the double nearest to an integer of 64 bits stands for 2048. -/
theorem exists_nearest_eq {n : Nat} (hlow : 2 ^ 63 ≤ n) (hhigh : n < 2 ^ 64) :
    ∃ r, 2 ^ 52 ≤ r ∧ r ≤ 2 ^ 53 ∧ nearest n 1 = ⟨UInt64.ofNat (r + 1085 * 2 ^ 52)⟩ := by
  have hlog : Nat.log2 n = 63 := (Nat.log2_eq_iff (by omega)).mpr ⟨hlow, hhigh⟩
  have hbit : lastBit n 1 = 11 := by
    have hone : Nat.log2 1 = 0 := by decide
    have hmax : max (((63 : Nat) : Int) - ((0 : Nat) : Int) - 53) (-1074) = 10 := by decide
    have hscale : scaleBinary n 1 10 = (n, 1 * 2 ^ 10) := rfl
    simp only [lastBit, hlog, hone, hmax, hscale]
    rw [if_neg (by omega)]
    rfl
  obtain ⟨hge, hle⟩ := @roundHalfEven_bounds n (1 * 2 ^ 11) (2 ^ 52) (2 ^ 53) (by omega) (by omega)
  refine ⟨roundHalfEven n (1 * 2 ^ 11), hge, hle, ?_⟩
  have hscale : scaleBinary n 1 11 = (n, 1 * 2 ^ 11) := rfl
  simp only [nearest, hbit, hscale]
  generalize roundHalfEven n (1 * 2 ^ 11) = r at hge hle
  have hpower : (11 + 1074 : Int).toNat = 1085 := rfl
  have hwidth : 0x10000000000000 = 2 ^ 52 := rfl
  rw [if_neg (by omega), hpower, hwidth, if_pos (by omega)]

/-- A double with such a last bit is an integer. -/
theorem integer?_of_bits {r : Nat} (hlow : 2 ^ 52 ≤ r) (hhigh : r ≤ 2 ^ 53) :
    (Double.mk (UInt64.ofNat (r + 1085 * 2 ^ 52))).integer? = some ((r : Int) * 2 ^ 11) := by
  generalize hx : Double.mk (UInt64.ofNat (r + 1085 * 2 ^ 52)) = x
  have hbits : x.bits.toNat = r + 1085 * 2 ^ 52 := by
    rw [← hx, UInt64.toNat_ofNat']
    omega
  have hexponent : x.exponentField = 1085 + r / 2 ^ 52 := by
    have hmask : (0x7FF : UInt64).toNat = 2 ^ 11 - 1 := rfl
    have hshift : (52 : UInt64).toNat % 64 = 52 := rfl
    rw [exponentField, UInt64.toNat_and, UInt64.toNat_shiftRight, hbits, hmask,
      Nat.and_two_pow_sub_one_eq_mod, hshift, Nat.shiftRight_eq_div_pow]
    omega
  have hfraction : x.fractionField = r % 2 ^ 52 := by
    have hmask : (0xFFFFFFFFFFFFF : UInt64).toNat = 2 ^ 52 - 1 := rfl
    rw [fractionField, UInt64.toNat_and, hbits, hmask, Nat.and_two_pow_sub_one_eq_mod]
    omega
  have hsign : x.isNegative = false := by
    rw [isNegative, beq_eq_false_iff_ne]
    intro heq
    have hshift : (63 : UInt64).toNat % 64 = 63 := rfl
    have hone : x.bits.toNat >>> 63 = 1 := by
      rw [← hshift, ← UInt64.toNat_shiftRight, heq]
      rfl
    rw [hbits, Nat.shiftRight_eq_div_pow] at hone
    omega
  have hfinite : x.isFinite = true := by
    rw [isFinite, hexponent, bne_iff_ne]
    omega
  have hmagnitude : x.signedMagnitude =
      (((r % 2 ^ 52 + 2 ^ 52 : Nat) : Int), ((1085 + r / 2 ^ 52 : Nat) : Int) - 1075) := by
    have hpair : x.magnitude = (r % 2 ^ 52 + 2 ^ 52, ((1085 + r / 2 ^ 52 : Nat) : Int) - 1075) := by
      have hwidth : 0x10000000000000 = 2 ^ 52 := rfl
      rw [magnitude, hexponent, hfraction, if_neg (by omega), hwidth]
    rw [signedMagnitude, hpair, hsign]
    rfl
  have hinteger : ∀ {m q : Int}, x.signedMagnitude = (m, q) → 0 ≤ q →
      x.integer? = some (m * 2 ^ q.toNat) := by
    intro m q h hq
    rw [integer?, h]
    simp [hfinite, hq]
  -- the greatest ones are rounded up to the next power of two
  have hcases : r / 2 ^ 52 = 1 ∨ r = 2 ^ 53 := by omega
  rcases hcases with hone | rfl
  · have hdigits : r % 2 ^ 52 + 2 ^ 52 = r := by omega
    rw [hone, hdigits] at hmagnitude
    exact hinteger hmagnitude (by decide)
  · exact hinteger hmagnitude (by decide)

/-- **An integer of 64 bits is rounded to an integer that is as long or longer.** -/
theorem integer?_nearest {n : Nat} (hlow : 2 ^ 63 ≤ n) (hhigh : n < 2 ^ 64) :
    ∃ k, 2 ^ 63 ≤ k ∧ (nearest n 1).integer? = some k := by
  obtain ⟨r, hge, hle, hnearest⟩ := exists_nearest_eq hlow hhigh
  refine ⟨(r : Int) * 2 ^ 11, by omega, ?_⟩
  rw [hnearest, integer?_of_bits hge hle]

end Double

/-! ### Numbers in texts -/

namespace Numeral

/-- The decimal text of a number is read as the number. -/
theorem readAll_repr (n : Nat) : readAll (toString n).toList = some ⟨false, n, 0, true⟩ := by
  have htext : (toString n).toList = Nat.toDigits 10 n := Nat.toList_repr
  have hdigits := isDigit_toDigits n
  have hvalue : ofDigits (Nat.toDigits 10 n) = n := Nat.ofDigitChars_ten_toDigits
  rw [htext]
  obtain ⟨c, cs, hcs⟩ := List.exists_cons_of_ne_nil (@Nat.toDigits_ne_nil n 10)
  rw [hcs] at hdigits hvalue ⊢
  have hc := hdigits c List.mem_cons_self
  have hne : ∀ b : Char, b.isDigit = false → c ≠ b := fun b hb => Token.ne_of_isDigit hc hb
  have hspace : isSpace c = false := by
    simp only [Char.isDigit, Bool.and_eq_true, decide_eq_true_eq, ge_iff_le,
      UInt32.le_iff_toNat_le] at hc
    have hlow : 48 ≤ c.toNat := hc.1
    simp [isSpace, hne ' ' rfl]
    omega
  have hsign : readSign (c :: cs) = (false, c :: cs) := by
    unfold readSign
    split
    · next heq => exact absurd (List.cons.inj heq).1 (hne '-' rfl)
    · next heq => exact absurd (List.cons.inj heq).1 (hne '+' rfl)
    · rfl
  obtain ⟨htake, hdrop⟩ := @Token.span_digits _ [] hdigits (by simp)
  rw [List.append_nil] at htake hdrop
  simp [readAll, readPrefix, hspace, hsign, readUnsigned, htake, hdrop, readFraction, readPower,
    hvalue]

end Numeral

/-! ### What is present -/

/-- What is stored for something is something. -/
theorem Affinity.store_ne_null (a : Affinity) {d : Datum} (h : d ≠ .null) : a.store d ≠ .null := by
  have hnumeral : ∀ n, Datum.ofNumeral n ≠ .null := by
    intro n
    rw [Datum.ofNumeral]
    split
    · split <;> simp
    · simp
  have hread : d.readNumber ≠ .null := by
    unfold Datum.readNumber
    split
    · split
      · exact hnumeral _
      · simp
    · exact h
  have hprefer : ∀ {e : Datum}, e ≠ .null → e.preferInt ≠ .null := by
    intro e he
    unfold Datum.preferInt
    split
    · split
      · split <;> simp
      · simp
    · exact he
  have hwiden : ∀ {e : Datum}, e ≠ .null → e.widen ≠ .null := by
    intro e he
    cases e <;> simp_all [Datum.widen]
  cases a with
  | text => cases d <;> simp_all [store, Datum.spell]
  | blob => exact h
  | integer | numeric => exact hprefer hread
  | real => exact hwiden (hprefer hread)

/-! ### Scalars -/

namespace ColumnType

/-- The least integer of an integer type, and the first one above its greatest. -/
def range? : ColumnType → Option (Int × Int)
  | int8 => some (-2 ^ 7, 2 ^ 7)
  | int16 => some (-2 ^ 15, 2 ^ 15)
  | int32 => some (-2 ^ 31, 2 ^ 31)
  | int64 => some (-2 ^ 63, 2 ^ 63)
  | uint8 => some (0, 2 ^ 8)
  | uint16 => some (0, 2 ^ 16)
  | uint32 => some (0, 2 ^ 32)
  | uint64 => some (0, 2 ^ 64)
  | _ => none

/-- The type is an integer type and has the integer. -/
def HasInteger (type : ColumnType) (n : Int) : Prop :=
  match type.range? with
  | some (low, high) => low ≤ n ∧ n < high
  | none => False

instance (type : ColumnType) (n : Int) : Decidable (type.HasInteger n) := by
  unfold HasInteger
  split <;> infer_instance

end ColumnType

/-- A value of a field of a plain type. -/
inductive Scalar where
  /-- A truth value. -/
  | bool (b : Bool)
  /-- An integer that its type has. -/
  | integer (type : ColumnType) (n : Int) (h : type.HasInteger n)
  /-- A character. -/
  | char (c : Char)
  /-- A text. -/
  | text (s : String)
  /-- A byte string. -/
  | bytes (bs : List UInt8)

namespace Scalar

/-- The type of the column. -/
def type : Scalar → ColumnType
  | bool _ => .bool
  | integer type _ _ => type
  | char _ => .char
  | text _ => .text
  | bytes _ => .bytes

/-- The value that a command takes for it. -/
def value : Scalar → Value
  | bool b => .bool b
  | integer type n _ =>
    if type = .uint64 then .ofUInt64 (UInt64.ofNat n.toNat) else .int (Int64.ofInt n)
  | char c => .text (String.singleton c)
  | text s => .text s
  | bytes bs => .blob bs

/-- It is an integer above the signed 64-bit range. -/
def Exceeds : Scalar → Prop
  | integer _ n _ => 2 ^ 63 ≤ n
  | _ => False

/-- What is stored for it. -/
def datum : Scalar → Datum
  | bool b => .ofBool b
  | integer _ n _ => if n < 2 ^ 63 then .int (Int64.ofInt n) else .real (.ofInt n)
  | char c => .text (String.singleton c)
  | text s => .text s
  | bytes bs => .blob bs

/-- The integer of a type, if the type has it. -/
def integer? (type : ColumnType) (n : Int) : Option Scalar :=
  if h : type.HasInteger n then some (.integer type n h) else none

/-- The value of a type that a value of the database stands for. -/
def ofValue? (type : ColumnType) (v : Value) : Option Scalar :=
  match type, v with
  | .bool, .int n => if n = 0 then some (.bool false) else if n = 1 then some (.bool true) else none
  | .char, .text s =>
    match s.toList with
    | [c] => some (.char c)
    | _ => none
  | .text, .text s => some (.text s)
  | .bytes, .blob bs => some (.bytes bs)
  | type, .int n => integer? type n.toInt
  | type, .text s =>
    match Numeral.readAll s.toList with
    | some m => if m.isWhole then integer? type m.toInt else none
    | none => none
  | _, _ => none

/-! #### What is stored -/

theorem nativeType_of_hasInteger {type : ColumnType} {n : Int} (h : type.HasInteger n) :
    Sqlite.nativeType type = "INTEGER" := by
  cases type <;> first | exact h.elim | rfl

/-- Only the unsigned type of 64 bits has integers above the signed range. -/
theorem bounds_of_hasInteger {type : ColumnType} {n : Int} (h : type.HasInteger n) :
    -2 ^ 63 ≤ n ∧ n < 2 ^ 64 ∧ (type = .uint64 → 0 ≤ n) ∧ (type ≠ .uint64 → n < 2 ^ 63) := by
  cases type <;> simp only [ColumnType.HasInteger, ColumnType.range?] at h <;>
    first | exact h.elim | (simp; omega)

/-- A number that is too long for an integer is kept as its decimal text, any other as it is. -/
theorem value_integer {type : ColumnType} {n : Int} (h : type.HasInteger n) :
    (integer type n h).value =
      if n < 2 ^ 63 then .int (Int64.ofInt n) else .text (toString n.toNat) := by
  obtain ⟨-, hhigh, hlow, hshort⟩ := bounds_of_hasInteger h
  rw [value]
  split
  · next htype =>
    obtain ⟨k, rfl⟩ := Int.eq_ofNat_of_zero_le (hlow htype)
    have hnat : (UInt64.ofNat k).toNat = k := by
      rw [UInt64.toNat_ofNat']
      omega
    rw [Value.ofUInt64, Int.toNat_natCast, hnat, Int64.ofInt_eq_ofNat]
    exact if_congr (by omega) rfl rfl
  · next htype => rw [if_pos (hshort htype)]

/-- The decimal text of an integer that is too long becomes the nearest double. -/
theorem store_long {n : Nat} (hlow : 2 ^ 63 ≤ n) (hhigh : n < 2 ^ 64) :
    Affinity.integer.store (.text (toString n)) = .real (.ofInt n) := by
  have hlength : (Nat.toDigits 10 n).length ≤ 20 :=
    (Nat.length_toDigits_le_iff (by decide) (by decide)).mpr (hhigh.trans (by decide))
  have hsize : Numeral.toDouble ⟨false, n, 0, true⟩ = .nearest n 1 := by
    have hzero : ¬ (n = 0 ∨ ((Nat.toDigits 10 n).length : Int) < -330) := by omega
    have hmany : ¬ (310 : Int) < (Nat.toDigits 10 n).length := by omega
    simp [Numeral.toDouble, Numeral.size, hzero, hmany]
  have hnumber : (Datum.text (toString n)).readNumber = .real (.nearest n 1) := by
    have hint : Datum.int64? n = none := by
      rw [Datum.int64?, if_neg (by omega)]
    have hread : (Datum.text (toString n)).readNumber = Datum.ofNumeral ⟨false, n, 0, true⟩ := by
      rw [Datum.readNumber, Numeral.readAll_repr]
    rw [hread, ← hsize]
    simp [Datum.ofNumeral, Numeral.toInt, hint]
  obtain ⟨k, hk, hinteger⟩ := Double.integer?_nearest hlow hhigh
  have hdouble : Double.ofInt n = .nearest n 1 := by
    rw [Double.ofInt, if_neg (by omega), Int.natAbs_natCast]
  rw [Affinity.store, hnumber, Datum.preferInt, hinteger, hdouble]
  exact if_neg (by omega)

/-- **What the column of its type stores** for a value that is bound. -/
theorem store_value (s : Scalar) :
    (Affinity.ofType (Sqlite.nativeType s.type)).store
      (.ofValue (Dialect.sqlite.toBound s.value)) = s.datum := by
  have hinteger : Affinity.ofType "INTEGER" = .integer := by decide
  have htext : Affinity.ofType "TEXT" = .text := by decide
  have hblob : Affinity.ofType "BLOB" = .blob := by decide
  cases s with
  | bool b =>
    rw [type, Sqlite.nativeType, hinteger]
    cases b <;> rfl
  | integer type n h =>
    rw [Scalar.type, nativeType_of_hasInteger h, hinteger, value_integer h, datum]
    by_cases hshort : n < 2 ^ 63
    · rw [if_pos hshort, if_pos hshort]
      rfl
    · obtain ⟨k, rfl⟩ := Int.eq_ofNat_of_zero_le (by omega : 0 ≤ n)
      have hhigh := (bounds_of_hasInteger h).2.1
      rw [if_neg hshort, if_neg hshort]
      exact store_long (by omega) (by omega)
  | char c =>
    rw [type, Sqlite.nativeType, htext]
    rfl
  | text s =>
    rw [type, Sqlite.nativeType, htext]
    rfl
  | bytes bs =>
    rw [type, Sqlite.nativeType, hblob]
    rfl

/-- Something is stored for every value. -/
theorem datum_ne_null (s : Scalar) : s.datum ≠ .null := by
  cases s with
  | bool b => cases b <;> exact Datum.noConfusion
  | integer type n h =>
    rw [datum]
    split <;> exact Datum.noConfusion
  | _ => exact Datum.noConfusion

/-! #### What is read back -/

/-- The types that have integers read them in one way. -/
theorem ofValue?_int {type : ColumnType} {n : Int} (h : type.HasInteger n) (k : Int64) :
    ofValue? type (.int k) = integer? type k.toInt := by
  rw [ofValue?]
  rintro rfl
  exact h

theorem ofValue?_text {type : ColumnType} {n : Int} (h : type.HasInteger n) (s : String) :
    ofValue? type (.text s) =
      match Numeral.readAll s.toList with
      | some m => if m.isWhole then integer? type m.toInt else none
      | none => none := by
  rw [ofValue?] <;>
  · rintro rfl
    exact h

/-- An integer of 64 bits is read as the integer of each type that has it. -/
theorem integer?_ofInt {type : ColumnType} {n : Int} (h : type.HasInteger n) (hshort : n < 2 ^ 63) :
    ofValue? type (.int (Int64.ofInt n)) = some (integer type n h) := by
  have hback : (Int64.ofInt n).toInt = n :=
    Int64.toInt_ofInt_of_le (bounds_of_hasInteger h).1 hshort
  rw [ofValue?_int h, hback, integer?, dif_pos h]

/-- **The bound value keeps it exact**, whatever it is. -/
theorem ofValue?_value (s : Scalar) :
    ofValue? s.type (Dialect.sqlite.toBound s.value) = some s := by
  cases s with
  | bool b => cases b <;> rfl
  | integer type n h =>
    rw [Scalar.type, value_integer h]
    by_cases hshort : n < 2 ^ 63
    · rw [if_pos hshort]
      exact integer?_ofInt h hshort
    · obtain ⟨k, rfl⟩ := Int.eq_ofNat_of_zero_le (by omega : 0 ≤ n)
      rw [if_neg hshort]
      refine (ofValue?_text h _).trans ?_
      rw [Numeral.readAll_repr]
      exact dif_pos h
  | char c => simp [type, ofValue?, value, Dialect.sqlite, Value.boolAsInt]
  | text s => rfl
  | bytes bs => rfl

/-- **The stored value keeps it exact** if it does not exceed the signed range. -/
theorem ofValue?_datum {s : Scalar} (hs : ¬ s.Exceeds) : ofValue? s.type s.datum.toValue = some s := by
  cases s with
  | bool b => cases b <;> rfl
  | integer type n h =>
    have hshort : n < 2 ^ 63 := Int.not_le.mp hs
    rw [datum, if_pos hshort]
    exact integer?_ofInt h hshort
  | char c => simp [type, ofValue?, datum, Datum.toValue]
  | text s => rfl
  | bytes bs => rfl

/-- If it does, the value is a double. -/
theorem toValue_datum_of_exceeds {s : Scalar} (hs : s.Exceeds) : ∃ x, s.datum.toValue = .float x := by
  cases s with
  | integer type n h =>
    have hlong : ¬ n < 2 ^ 63 := Int.not_lt.mpr hs
    exact ⟨.ofInt n, by rw [datum, if_neg hlong]; rfl⟩
  | _ => exact hs.elim

/-- **No two values of a type are read back as the same**, unless both exceed the signed range. -/
theorem eq_of_toValue_eq {s s' : Scalar} (htype : s.type = s'.type) (hs : ¬ s.Exceeds)
    (h : s.datum.toValue = s'.datum.toValue) : s = s' := by
  have hread := ofValue?_datum hs
  have hnot : ¬ s'.Exceeds := by
    intro hs'
    obtain ⟨x, hx⟩ := toValue_datum_of_exceeds hs'
    rw [h, hx] at hread
    cases htype' : s.type <;> simp [htype', ofValue?] at hread
  rw [h, htype, ofValue?_datum hnot] at hread
  exact (Option.some.inj hread).symm

/-- The greatest integer of 64 bits is stored as the one below it is. -/
example : (integer .uint64 (2 ^ 64 - 1) (by decide)).datum =
    (integer .uint64 (2 ^ 64 - 2) (by decide)).datum := by decide +kernel

end Scalar

end EntitySql
